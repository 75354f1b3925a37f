import PrefixArith.CommandLine.Report

/-!
# The command

The outer layer: it fetches what a run needs, the settings file and the input, and writes the
report. It keeps no log.
-/

namespace PrefixArith

namespace CommandLine

/-- Reads a stream to its end. -/
partial def readAll (stream : IO.FS.Stream) (taken : ByteArray) : IO ByteArray := do
  let bytes ← stream.read 65536
  if bytes.isEmpty then return taken
  readAll stream (taken ++ bytes)

/--
What is at a path; there is nothing below a path that is not a directory, nor in a directory that
may not be searched. No place is named in a file that is refused.
-/
def fileAt (path : String) : IO Settings.File := do
  try
    return .content (← IO.FS.readBinFile path).toList none
  catch
    | .noFileOrDirectory .. => return .absent
    | .permissionDenied .. =>
        try
          discard (IO.FS.realPath path)
          return .locked
        catch _ => return .absent
    | .inappropriateType _ code _ => return if code = 20 then .absent else .directory
    | other => throw other

end CommandLine

end PrefixArith

open PrefixArith.CommandLine in
/-- Runs the command. -/
def main (arguments : List String) : IO UInt32 := do
  let mut file := .absent
  let mut input := []
  if let .ok (.run options) := request arguments then
    file ← fileAt options.path
    if options.expressions.isEmpty then
      input := (← readAll (← IO.getStdin) .empty).toList
  let found := file
  let report := Report.ofCommand arguments (fun _ => found) input ""
  IO.print report.output
  IO.eprint report.errors
  return report.code.toUInt32
