import PrefixArith.Json.Fault
import PrefixArith.Text.Basic

/-!
# Strings of JSON

A string is read up to its closing quote with its escapes resolved, or passed over without regard to
what the escapes stand for. Characters beyond 16 bits are escaped as pairs of surrogates; a string
that is read has only whole pairs, one that is passed over may hold any.
-/

namespace PrefixArith

namespace Json

namespace Quoted

/-- The value of a hexadecimal digit. -/
def hexDigit? (digit : Char) : Option Nat :=
  Text.digit? 16 digit

/-- Reads four hexadecimal digits; the text has ended where fewer than four bytes are left. -/
def unit : List Char → Except Fault (Nat × List Char)
  | first :: second :: third :: fourth :: rest =>
      match hexDigit? first, hexDigit? second, hexDigit? third, hexDigit? fourth with
      | some a, some b, some c, some d => .ok (((a * 16 + b) * 16 + c) * 16 + d, rest)
      | _, _, _, _ => .error .badEscape
  | text => if Text.size text < 4 then .error .endInString else .error .badEscape

theorem unit_length_lt {text after : List Char} {code : Nat}
    (read : unit text = .ok (code, after)) : after.length < text.length := by
  unfold unit at read
  split at read
  · split at read
    · cases read
      simp only [List.length_cons]
      omega
    · cases read
  · split at read <;> cases read

def isLeadingSurrogate (code : Nat) : Bool :=
  0xD800 ≤ code && code ≤ 0xDBFF

def isTrailingSurrogate (code : Nat) : Bool :=
  0xDC00 ≤ code && code ≤ 0xDFFF

/-- Reads the escape of the trailing surrogate that has to follow a leading one. -/
def pair (leading : Nat) : List Char → Except Fault (Char × List Char)
  | [] => .error .endInString
  | ['\\'] => .error .endInString
  | '\\' :: 'u' :: rest =>
      match unit rest with
      | .error fault => .error fault
      | .ok (trailing, after) =>
          if isTrailingSurrogate trailing then
            .ok (Char.ofNat ((leading - 0xD800) * 0x400 + (trailing - 0xDC00) + 0x10000), after)
          else .error .loneSurrogate
  | _ :: _ => .error .cutSurrogatePair

theorem pair_length_le {leading : Nat} {text after : List Char} {character : Char}
    (read : pair leading text = .ok (character, after)) : after.length ≤ text.length := by
  unfold pair at read
  split at read
  · cases read
  · cases read
  · split at read
    · cases read
    · rename_i found
      split at read
      · simp only [Except.ok.injEq, Prod.mk.injEq] at read
        obtain ⟨_, rfl⟩ := read
        have := unit_length_lt found
        simp only [List.length_cons]
        omega
      · cases read
  · cases read

/-- The character that a letter after a backslash stands for. -/
def simpleEscape? : Char → Option Char
  | '"' => some '"'
  | '\\' => some '\\'
  | '/' => some '/'
  | 'b' => some '\x08'
  | 'f' => some '\x0c'
  | 'n' => some '\n'
  | 'r' => some '\r'
  | 't' => some '\t'
  | _ => none

/-- Reads what follows a backslash. -/
def escape : List Char → Except Fault (Char × List Char)
  | [] => .error .endInString
  | mark :: rest =>
      if mark = 'u' then
        match unit rest with
        | .error fault => .error fault
        | .ok (code, after) =>
            if isTrailingSurrogate code then .error .loneSurrogate
            else if isLeadingSurrogate code then pair code after
            else .ok (Char.ofNat code, after)
      else
        match simpleEscape? mark with
        | some character => .ok (character, rest)
        | none => .error .badEscape

theorem escape_length_lt {text after : List Char} {character : Char}
    (read : escape text = .ok (character, after)) : after.length < text.length := by
  unfold escape at read
  split at read
  · cases read
  · split at read
    · split at read
      · cases read
      · rename_i found
        have shorter := unit_length_lt found
        split at read
        · cases read
        · split at read
          · have := pair_length_le read
            simp only [List.length_cons]
            omega
          · cases read
            simp only [List.length_cons]
            omega
    · split at read
      · cases read
        exact Nat.lt_succ_self _
      · cases read

/-- Reads a string after its opening quote. -/
def read : List Char → Except Fault (List Char × List Char)
  | [] => .error .endInString
  | first :: rest =>
      if first = '"' then .ok ([], rest)
      else if first = '\\' then
        match _found : escape rest with
        | .error fault => .error fault
        | .ok (character, after) =>
            (read after).map fun found => (character :: found.1, found.2)
      else if first.toNat < 0x20 then .error .controlCharacter
      else (read rest).map fun found => (first :: found.1, found.2)
  termination_by text => text.length
  decreasing_by
    · exact Nat.lt_succ_of_lt (escape_length_lt _found)
    · exact Nat.lt_succ_self _

/-- Passes over what follows a backslash. -/
def skipEscape : List Char → Except Fault (List Char)
  | [] => .error .endInString
  | mark :: rest =>
      if mark = 'u' then (unit rest).map (·.2)
      else if (simpleEscape? mark).isSome then .ok rest
      else .error .badEscape

theorem skipEscape_length_lt {text after : List Char} (skipped : skipEscape text = .ok after) :
    after.length < text.length := by
  unfold skipEscape at skipped
  split at skipped
  · cases skipped
  · rename_i mark rest
    split at skipped
    · cases found : unit rest with
      | error fault =>
          rw [found] at skipped
          cases skipped
      | ok result =>
          rw [found] at skipped
          cases skipped
          exact Nat.lt_succ_of_lt (unit_length_lt found)
    · split at skipped
      · cases skipped
        exact Nat.lt_succ_self _
      · cases skipped

/-- Passes over a string after its opening quote. -/
def skip : List Char → Except Fault (List Char)
  | [] => .error .endInString
  | first :: rest =>
      if first = '"' then .ok rest
      else if first = '\\' then
        match _found : skipEscape rest with
        | .error fault => .error fault
        | .ok after => skip after
      else if first.toNat < 0x20 then .error .controlCharacter
      else skip rest
  termination_by text => text.length
  decreasing_by
    · exact Nat.lt_succ_of_lt (skipEscape_length_lt _found)
    · exact Nat.lt_succ_self _

theorem read_length_lt {text content after : List Char} (found : read text = .ok (content, after)) :
    after.length < text.length := by
  fun_induction read text generalizing content with
  | case1 => cases found
  | case2 =>
      cases found
      exact Nat.lt_succ_self _
  | case3 => cases found
  | case4 rest character middle escaped _ ih =>
      cases inner : read middle with
      | error fault =>
          rw [inner] at found
          cases found
      | ok result =>
          rw [inner] at found
          cases found
          have := ih inner
          have := escape_length_lt escaped
          simp only [List.length_cons]
          omega
  | case5 => cases found
  | case6 first rest _ _ _ ih =>
      cases inner : read rest with
      | error fault =>
          rw [inner] at found
          cases found
      | ok result =>
          rw [inner] at found
          cases found
          exact Nat.lt_succ_of_lt (ih inner)

theorem skip_length_lt {text after : List Char} (skipped : skip text = .ok after) :
    after.length < text.length := by
  fun_induction skip text with
  | case1 => cases skipped
  | case2 =>
      cases skipped
      exact Nat.lt_succ_self _
  | case3 => cases skipped
  | case4 rest middle passed _ ih =>
      have := ih skipped
      have := skipEscape_length_lt passed
      simp only [List.length_cons]
      omega
  | case5 => cases skipped
  | case6 first rest _ _ _ ih => exact Nat.lt_succ_of_lt (ih skipped)

end Quoted

end Json

end PrefixArith
