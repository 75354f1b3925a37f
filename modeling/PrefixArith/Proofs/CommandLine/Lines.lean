import Mathlib.Data.List.TakeWhile
import PrefixArith.CommandLine.Report
import PrefixArith.Proofs.Text.Encoding

/-!
# Lines of an input

An input is a row of lines that line feeds end, the last of them perhaps without one. A carriage
return in front of a line feed belongs to the end of the line; anywhere else it is a character of the
line as any other, also at the end of a last line that no line feed ends.
-/

namespace PrefixArith

namespace CommandLine

namespace Job

/-- The lines that an input is divided into. -/
inductive Lined : List UInt8 → List (List UInt8) → Prop where
  | none : Lined [] []
  | last {line : List UInt8} (nonempty : line ≠ []) (whole : lineFeed ∉ line) : Lined line [line]
  | ended {line rest : List UInt8} {others : List (List UInt8)} (whole : lineFeed ∉ line)
      (divided : Lined rest others) :
      Lined (line ++ lineFeed :: rest) (dropReturn line :: others)

theorem ne_lineFeed_of_mem {line : List UInt8} (whole : lineFeed ∉ line) :
    ∀ byte ∈ line, (byte != lineFeed) = true := by
  intro byte member
  rw [bne_iff_ne]
  rintro rfl
  exact whole member

theorem lines_last {line : List UInt8} (nonempty : line ≠ []) (whole : lineFeed ∉ line) :
    lines line = [line] := by
  have taken : line.takeWhile (· != lineFeed) = line :=
    List.takeWhile_eq_self_iff.mpr (ne_lineFeed_of_mem whole)
  have dropped : line.dropWhile (· != lineFeed) = [] :=
    List.dropWhile_eq_nil_iff.mpr (ne_lineFeed_of_mem whole)
  obtain ⟨first, rest, rfl⟩ := List.exists_cons_of_ne_nil nonempty
  rw [lines.eq_def]
  simp only
  split
  · rw [taken]
  · next remains =>
      rw [dropped] at remains
      cases remains

theorem lines_ended {line : List UInt8} (whole : lineFeed ∉ line) (rest : List UInt8) :
    lines (line ++ lineFeed :: rest) = dropReturn line :: lines rest := by
  have taken : (line ++ lineFeed :: rest).takeWhile (· != lineFeed) = line := by
    rw [List.takeWhile_append_of_pos (ne_lineFeed_of_mem whole),
      List.takeWhile_cons_of_neg (by simp), List.append_nil]
  have dropped : (line ++ lineFeed :: rest).dropWhile (· != lineFeed) = lineFeed :: rest := by
    rw [List.dropWhile_append_of_pos (ne_lineFeed_of_mem whole),
      List.dropWhile_cons_of_neg (by simp)]
  obtain ⟨first, others, input⟩ : ∃ first others, line ++ lineFeed :: rest = first :: others :=
    List.exists_cons_of_ne_nil (by simp)
  rw [input] at taken dropped ⊢
  rw [lines.eq_def]
  simp only
  split
  · next ended =>
      rw [dropped] at ended
      cases ended
  · next remains =>
      rw [dropped] at remains
      cases remains
      rw [taken]

/-- The lines of an input are those that it is divided into. -/
theorem Lined.lines_eq {input : List UInt8} {found : List (List UInt8)} (lined : Lined input found) :
    lines input = found := by
  induction lined with
  | none => rw [lines]
  | last nonempty whole => exact lines_last nonempty whole
  | ended whole divided ih => rw [lines_ended whole, ih]

/-- Every input is divided into its lines. -/
theorem lined_lines (input : List UInt8) : Lined input (lines input) := by
  by_cases feeds : lineFeed ∈ input
  · obtain ⟨line, rest, cut, whole⟩ := List.eq_append_cons_of_mem feeds
    have shorter : rest.length < input.length := by
      rw [cut, List.length_append, List.length_cons]
      omega
    rw [cut, lines_ended whole]
    exact .ended whole (lined_lines rest)
  · by_cases empty : input = []
    · rw [empty, lines]
      exact .none
    · rw [lines_last empty feeds]
      exact .last empty feeds
  termination_by input.length

/-! ## The jobs of a run -/

theorem all_of_ne_nil {expressions : List String} (nonempty : expressions ≠ [])
    (unread : List UInt8) : all expressions unread = expressions.map expression := by
  rw [all, if_neg (by simpa using nonempty)]

theorem all_nil (input : List UInt8) : all [] input = (lines input).filterMap ofLine? := by
  rw [all, if_pos List.isEmpty_nil]

end Job

end CommandLine

end PrefixArith
