import PrefixArith.Settings.Reading

/-!
# Settings files

Settings are given as a JSON text or in a file. A file that is named has to exist; a file that is
only looked for leaves the standard settings where it does not.

The message about a text that is refused ends with the place where its reader gave it up. How the
reader counts lines and columns is left open: every text comes with the place that it would name.
-/

namespace PrefixArith

namespace Settings

/-- What is found at the path of a settings file. -/
inductive File where
  | absent
  /-- A file that may not be read. -/
  | locked
  | directory
  /-- The bytes of a file, and the place where they are refused if they are. -/
  | content (bytes : List UInt8) (place : Option Json.Place)

/-- The reason why there are no settings. -/
inductive Fault where
  | noFile
  | noPermission
  | isDirectory
  | inText (rejection : Json.Rejection) (place : Option Json.Place)
  | inFile (rejection : Json.Rejection) (place : Option Json.Place)

def Fault.message : Fault → String
  | noFile => "Failed to open config file: No such file or directory (os error 2)"
  | noPermission => "Failed to open config file: Permission denied (os error 13)"
  | isDirectory => "Failed to parse config file: Is a directory (os error 21)"
  | inText rejection place =>
      "Failed to parse config: " ++ rejection.message ++ Json.Place.phrase place
  | inFile rejection place =>
      "Failed to parse config file: " ++ rejection.message ++ Json.Place.phrase place

/-- The settings that a JSON text holds. -/
def ofText (text : List Char) (place : Option Json.Place) : Except Fault Settings :=
  (read [] text).mapError fun rejection => .inText rejection place

/-- The settings that a file holds. -/
def ofFile : File → Except Fault Settings
  | .absent => .error .noFile
  | .locked => .error .noPermission
  | .directory => .error .isDirectory
  | .content bytes place =>
      (read (Text.decode bytes).foreign (Text.decode bytes).characters).mapError fun rejection =>
        .inFile rejection place

/-- The settings that a file holds if it exists. -/
def ofFileOrStandard : File → Except Fault Settings
  | .absent => .ok standard
  | file => ofFile file

end Settings

end PrefixArith
