import PrefixArith.Proofs.CommandLine.Lines
import PrefixArith.Proofs.Settings.Message

/-!
# Expressions as arguments and as lines

A run does the same with expressions whether they are its arguments or the lines of its input. In the
input the lines can end in a line feed with or without a carriage return before it, the last one in
neither, and blank lines can stand anywhere.
-/

namespace PrefixArith

namespace CommandLine

namespace Job

/-! ## Lines of text among the bytes -/

theorem lineFeed_notMem_encode {text : List Char} (whole : '\n' ∉ text) :
    lineFeed ∉ Text.encode text := by
  intro member
  obtain ⟨character, inText, inBytes⟩ := List.mem_flatMap.mp member
  have number := Text.toNat_of_mem_utf8EncodeChar inBytes (by decide)
  obtain rfl : character = '\n' := Char.toNat_inj.mp number
  exact whole inText

/-- One carriage return at the end of a line is dropped. -/
theorem dropReturn_encode_concat (text : List Char) :
    dropReturn (Text.encode (text ++ ['\r'])) = Text.encode text := by
  have bytes : Text.encode (text ++ ['\r']) = Text.encode text ++ [carriageReturn] :=
    Text.encode_append text ['\r']
  rw [bytes, dropReturn, List.getLast?_concat, if_pos rfl, List.dropLast_concat]

/-- A line that ends in another character is kept as it is. -/
theorem dropReturn_encode {text : List Char} (other : text.getLast? ≠ some '\r') :
    dropReturn (Text.encode text) = Text.encode text := by
  rw [dropReturn, if_neg]
  intro ends
  cases text using List.reverseRecOn with
  | nil => cases ends
  | append_singleton front last =>
      have bytes : Text.encode (front ++ [last]) =
          Text.encode front ++ String.utf8EncodeChar last := by
        rw [Text.encode_append, Text.encode, Text.encode, List.flatMap_singleton]
      rw [bytes, List.getLast?_append_of_ne_nil _ String.utf8EncodeChar_ne_nil] at ends
      have number := Text.toNat_of_mem_utf8EncodeChar (List.mem_of_getLast? ends) (by decide)
      obtain rfl : last = '\r' := Char.toNat_inj.mp number
      exact other (List.getLast?_concat)

/-- A line of text is a job unless it is blank. -/
theorem ofLine?_encode (text : List Char) :
    ofLine? (Text.encode text) =
      if text.all Text.isBlank then none else some (expression (String.ofList text)) := by
  rw [ofLine?, Text.fromUTF8?_encode]
  simp only [String.toList_ofList]

/-- A blank line is no job with or without a carriage return at its end. -/
theorem ofLine?_dropReturn_encode {text : List Char}
    (proper : text.all Text.isBlank = true ∨ text.getLast? ≠ some '\r') :
    ofLine? (dropReturn (Text.encode text)) = ofLine? (Text.encode text) := by
  rcases proper with blank | other
  · by_cases ends : text.getLast? = some '\r'
    · obtain ⟨front, rfl⟩ := List.getLast?_eq_some_iff.mp ends
      have front_blank : front.all Text.isBlank = true := by
        rw [List.all_append, Bool.and_eq_true] at blank
        exact blank.1
      rw [dropReturn_encode_concat, ofLine?_encode, ofLine?_encode, if_pos blank,
        if_pos front_blank]
    · rw [dropReturn_encode ends]
  · rw [dropReturn_encode other]

/-! ## Inputs that hold lines of text -/

/-- A text with a character that is not blank. -/
def isExpression (text : String) : Bool :=
  !text.toList.all Text.isBlank

/-- What can end a line. -/
inductive LineEnd where
  | feed
  | returnAndFeed

def LineEnd.bytes : LineEnd → List UInt8
  | feed => [lineFeed]
  | returnAndFeed => [carriageReturn, lineFeed]

/-- An input holds texts as its lines, each with some end of its own, the last perhaps with none. -/
inductive Written : List String → List UInt8 → Prop where
  | none : Written [] []
  | last (text : String) : Written [text] (Text.encode text.toList)
  | ended {text : String} {texts : List String} {rest : List UInt8} (ending : LineEnd)
      (others : Written texts rest) :
      Written (text :: texts) (Text.encode text.toList ++ ending.bytes ++ rest)

/-- A line of text with its end becomes the job that it holds, if any. -/
theorem filterMap_lines_ended {text : List Char} (whole : '\n' ∉ text)
    (proper : text.all Text.isBlank = true ∨ text.getLast? ≠ some '\r') (ending : LineEnd)
    (rest : List UInt8) :
    (lines (Text.encode text ++ ending.bytes ++ rest)).filterMap ofLine? =
      (ofLine? (Text.encode text)).toList ++ (lines rest).filterMap ofLine? := by
  cases ending with
  | feed =>
      rw [LineEnd.bytes, List.append_assoc, List.singleton_append,
        lines_ended (lineFeed_notMem_encode whole), List.filterMap_cons,
        ofLine?_dropReturn_encode proper]
      cases ofLine? (Text.encode text) <;> rfl
  | returnAndFeed =>
      have bytes : Text.encode text ++ [carriageReturn, lineFeed] ++ rest =
          Text.encode (text ++ ['\r']) ++ lineFeed :: rest := by
        rw [Text.encode_append, List.append_assoc, List.append_assoc]
        rfl
      have noFeed : '\n' ∉ text ++ ['\r'] := by simpa using whole
      rw [LineEnd.bytes, bytes, lines_ended (lineFeed_notMem_encode noFeed),
        dropReturn_encode_concat, List.filterMap_cons]
      cases ofLine? (Text.encode text) <;> rfl

theorem toList_ofLine?_encode (text : String) :
    (ofLine? (Text.encode text.toList)).toList = ([text].filter isExpression).map expression := by
  rw [ofLine?_encode, String.ofList_toList, List.filter_singleton]
  cases blank : text.toList.all Text.isBlank <;> simp [isExpression, blank]

/-- The jobs of an input are the expressions among the lines of text that it holds. -/
theorem Written.filterMap_lines {texts : List String} {input : List UInt8}
    (written : Written texts input) (whole : ∀ text ∈ texts, '\n' ∉ text.toList)
    (noReturn : ∀ text ∈ texts.filter isExpression, text.toList.getLast? ≠ some '\r') :
    (lines input).filterMap ofLine? = (texts.filter isExpression).map expression := by
  induction written with
  | none => rw [lines]; rfl
  | last text =>
      have wholeLine : lineFeed ∉ Text.encode text.toList :=
        lineFeed_notMem_encode (whole text List.mem_cons_self)
      rw [← toList_ofLine?_encode]
      by_cases empty : Text.encode text.toList = []
      · rw [empty, lines]
        rfl
      · rw [lines_last empty wholeLine, List.filterMap_cons, List.filterMap_nil]
        cases ofLine? (Text.encode text.toList) <;> rfl
  | @ended text texts rest ending others ih =>
      rw [List.forall_mem_cons] at whole
      have split : (text :: texts).filter isExpression =
          [text].filter isExpression ++ texts.filter isExpression :=
        List.filter_append [text] texts
      rw [split, List.forall_mem_append] at noReturn
      have proper : text.toList.all Text.isBlank = true ∨ text.toList.getLast? ≠ some '\r' := by
        by_cases blank : text.toList.all Text.isBlank = true
        · exact .inl blank
        · exact .inr (noReturn.1 text (by simpa [isExpression] using blank))
      rw [filterMap_lines_ended whole.1 proper, ih whole.2 noReturn.2, toList_ofLine?_encode, split,
        List.map_append]

end Job

namespace Report

/--
Expressions can be arguments or lines of the input. Take a run with some expressions among its
arguments, none with a line feed in it or a carriage return at its end, and a run with no expression
but the same settings and the same kind of results. If the input of the second holds these
expressions as its lines, with blank lines anywhere among them and with any line ends, the reports
are the same, if the two runs write the same of their logs, such as nothing.
-/
theorem ofCommand_interchange {given bare : List String} {options bareOptions : Options}
    (asked : request given = .ok (.run options))
    (askedBare : request bare = .ok (.run bareOptions))
    (nonempty : options.expressions ≠ []) (empty : bareOptions.expressions = [])
    (sameResults : options.json = bareOptions.json) {file bareFile : String → Settings.File}
    (sameSettings : Settings.ofFileOrStandard (file options.path) =
      Settings.ofFileOrStandard (bareFile bareOptions.path))
    {texts : List String} {input : List UInt8} (whole : ∀ text ∈ texts, '\n' ∉ text.toList)
    (noReturn : ∀ text ∈ options.expressions, text.toList.getLast? ≠ some '\r')
    (inserted : texts.filter Job.isExpression = options.expressions)
    (written : Job.Written texts input) (unread : List UInt8) {log bareLog : String}
    (sameLog : options.written log = bareOptions.written bareLog) :
    ofCommand given file unread log = ofCommand bare bareFile input bareLog := by
  have jobs : Job.all options.expressions unread = Job.all bareOptions.expressions input := by
    rw [← inserted] at noReturn
    rw [Job.all_of_ne_nil nonempty, empty, Job.all_nil, written.filterMap_lines whole noReturn,
      inserted]
  rw [ofCommand, ofCommand, asked, askedBare]
  simp only [ofRun, jobs, sameResults, sameSettings, sameLog]

theorem ofCommand_interchange_blanks :
    let options : Options := ⟨["(+ 1", "2"], none, true, false⟩
    let bareOptions : Options := ⟨[], some "limits.json", true, false⟩
    let bare := ["--json", "-climits.json"]
    let texts := ["", "(+ 1", "\u2003\r", "2"]
    let input : List UInt8 := [10, 40, 43, 32, 49, 13, 10, 226, 128, 131, 13, 10, 50]
    request ["--json", "--", "(+ 1", "2"] = .ok (.run options) ∧
      request bare = .ok (.run bareOptions) ∧
      Settings.ofFileOrStandard .absent = Settings.ofFileOrStandard (.content [91, 93] none) ∧
      (∀ text ∈ texts, '\n' ∉ text.toList) ∧
      (∀ text ∈ options.expressions, text.toList.getLast? ≠ some '\r') ∧
      texts.filter Job.isExpression = options.expressions ∧ Job.Written texts input ∧
      options.written "" = bareOptions.written "" ∧
      ofCommand ["--json", "--", "(+ 1", "2"] (fun _ => .absent) [] "" =
        ofCommand bare (fun _ => .content [91, 93] none) input "" := by
  intro options bareOptions bare texts input
  have asked : request ["--json", "--", "(+ 1", "2"] = .ok (.run options) := rfl
  have askedBare : request bare = .ok (.run bareOptions) := rfl
  have settings : Settings.ofFileOrStandard .absent =
      Settings.ofFileOrStandard (.content [91, 93] none) := by
    have brackets : Text.encode ['[', ']'] = [91, 93] := by decide
    rw [← brackets, Settings.ofFileOrStandard, Settings.ofFileOrStandard, Settings.ofFile_encode]
    · rfl
    · intro absent
      cases absent
  have whole : ∀ text ∈ texts, '\n' ∉ text.toList := by decide
  have noReturn : ∀ text ∈ options.expressions, text.toList.getLast? ≠ some '\r' := by decide
  have inserted : texts.filter Job.isExpression = options.expressions := by decide
  have written : Job.Written texts input :=
    .ended .feed (.ended .returnAndFeed (.ended .feed (.last "2")))
  exact ⟨asked, askedBare, settings, whole, noReturn, inserted, written, rfl,
    ofCommand_interchange asked askedBare (List.cons_ne_nil _ _) rfl rfl settings whole noReturn
      inserted written [] rfl⟩

end Report

end CommandLine

end PrefixArith
