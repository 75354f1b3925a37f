import PrefixArith.Proofs.CommandLine.Run
import PrefixArith.Proofs.Expr.Message
import PrefixArith.Proofs.Token.Partition

/-!
# Blank lines

A line is passed over if it holds nothing but blanks, and it holds no token if it holds nothing but
separators. Each of the two classes has one character that the other lacks, so there are lines that
are passed over though they hold a token, and lines that end a run for want of one.
-/

namespace PrefixArith

namespace Text

theorem isSeparator_iff {character : Char} :
    isSeparator character = true ↔ isSpace character = true ∨ character = '\uFEFF' := by
  rw [isSeparator, Bool.or_eq_true, beq_iff_eq, ← Char.toNat_inj]
  exact Iff.rfl

theorem isBlank_iff {character : Char} :
    isBlank character = true ↔ isSpace character = true ∨ character = '\u0085' := by
  rw [isBlank, Bool.or_eq_true, beq_iff_eq, ← Char.toNat_inj]
  exact Iff.rfl

/-- Nothing but blanks, among them the one that is no separator. -/
structure IsLost (text : List Char) : Prop where
  blank : ∀ character ∈ text, isBlank character = true
  nextLine : '\u0085' ∈ text

/-- Nothing but separators, among them the one that is no blank. -/
structure IsHollow (text : List Char) : Prop where
  separates : ∀ character ∈ text, isSeparator character = true
  byteOrderMark : '\uFEFF' ∈ text

/-- A text in one class is outside another exactly if it has the one character this lacks. -/
theorem not_all_iff {inside other : Char → Bool} {odd : Char}
    (lacks : ∀ character, inside character = true → other character = true ∨ character = odd)
    (isOdd : other odd = false) {text : List Char}
    (all : ∀ character ∈ text, inside character = true) :
    (¬ ∀ character ∈ text, other character = true) ↔ odd ∈ text := by
  constructor
  · intro outside
    by_contra absent
    refine outside fun character member => ?_
    rcases lacks character (all character member) with isOther | rfl
    · exact isOther
    · exact absurd member absent
  · intro member isOther
    rw [isOther odd member] at isOdd
    cases isOdd

theorem isLost_iff {text : List Char} :
    IsLost text ↔ (∀ character ∈ text, isBlank character = true) ∧
      ¬ ∀ character ∈ text, isSeparator character = true := by
  have lacks (character : Char) (blank : isBlank character = true) :
      isSeparator character = true ∨ character = '\u0085' :=
    (isBlank_iff.mp blank).imp_left fun space => isSeparator_iff.mpr (.inl space)
  constructor
  · rintro ⟨blank, nextLine⟩
    exact ⟨blank, (not_all_iff lacks rfl blank).mpr nextLine⟩
  · rintro ⟨blank, outside⟩
    exact ⟨blank, (not_all_iff lacks rfl blank).mp outside⟩

theorem isHollow_iff {text : List Char} :
    IsHollow text ↔ (∀ character ∈ text, isSeparator character = true) ∧
      ¬ ∀ character ∈ text, isBlank character = true := by
  have lacks (character : Char) (separates : isSeparator character = true) :
      isBlank character = true ∨ character = '\uFEFF' :=
    (isSeparator_iff.mp separates).imp_left fun space => isBlank_iff.mpr (.inl space)
  constructor
  · rintro ⟨separates, byteOrderMark⟩
    exact ⟨separates, (not_all_iff lacks rfl separates).mpr byteOrderMark⟩
  · rintro ⟨separates, outside⟩
    exact ⟨separates, (not_all_iff lacks rfl separates).mp outside⟩

end Text

/-- A text holds no token exactly if it holds nothing but separators. -/
theorem Lexeme.read_eq_noToken_iff {text : String} :
    Lexeme.read text = .error .noToken ↔
      ∀ character ∈ text.toList, Text.isSeparator character = true := by
  obtain ⟨lexemes, division⟩ := Lexeme.exists_division 0 text.toList
  rw [Lexeme.read_eq division]
  constructor
  · intro unread
    split at unread
    · next empty => exact Lexeme.Division.nil_iff.mp (empty ▸ division)
    · cases unread
  · intro separates
    have none := (@Lexeme.Division.nil_iff 0 _).mpr separates
    have same := none.readFrom_eq
    rw [division.readFrom_eq] at same
    cases same
    rfl

/-- A text is without a value for want of a token exactly if it holds nothing but separators. -/
theorem Calculator.evaluate_eq_noToken_iff {calculator : Calculator} {text : String} :
    calculator.evaluate text = .error (.reading .noToken) ↔
      ∀ character ∈ text.toList, Text.isSeparator character = true := by
  obtain ⟨lexemes, division⟩ := Lexeme.exists_division 0 text.toList
  constructor
  · intro failed
    rcases Expr.single_of_read_error division (Calculator.read_of_evaluate failed) with
      ⟨rfl, -⟩ | ⟨-, single⟩
    · exact Lexeme.Division.nil_iff.mp division
    · obtain ⟨lexeme, -, blames⟩ := Expr.blames_of_single single nofun
      cases blames
  · intro separates
    have unread : calculator.read text = .error .noToken := by
      rw [Calculator.read, Expr.read_eq (Lexeme.Division.nil_iff.mpr separates), if_pos rfl]
    rw [Calculator.evaluate, unread]

/-! ## First letters of messages -/

theorem Text.append_cancel {front middle rest whole : String}
    (same : front ++ middle ++ rest = front ++ whole) : middle ++ rest = whole := by
  rwa [String.append_assoc, String.append_right_inj] at same

theorem Text.first_eq {front rest whole : String} {first other : Char}
    (same : front ++ rest = whole) (starts : front.toList[0]? = some first)
    (wholeStarts : whole.toList[0]? = some other) : first = other := by
  rw [← same, Text.getElem?_append starts] at wholeStarts
  exact Option.some.inj wholeStarts

/-- The first letter of a message tells the phase in which the failure arose. -/
theorem Failure.first_letter (failure : Failure) :
    failure.message.toList[0]? =
      some (match failure with
        | reading _ => 'P'
        | evaluation _ => 'E'
        | settings _ => 'C'
        | input => 'I') := by
  cases failure with
  | reading fault => exact @Text.getElem?_append "Parsing failed: " _ 0 'P' (by decide)
  | evaluation fault => exact @Text.getElem?_append "Eval failed: " _ 0 'E' (by decide)
  | settings fault => exact @Text.getElem?_append "Config error: " _ 0 'C' (by decide)
  | input => decide

namespace CommandLine

namespace Job

/-! ## Lines -/

variable {line : List UInt8} {text : String}

theorem ofLine?_eq_none_iff (decoded : String.fromUTF8? ⟨line.toArray⟩ = some text) :
    ofLine? line = none ↔ ∀ character ∈ text.toList, Text.isBlank character = true := by
  rw [ofLine?, decoded]
  simp

theorem fromUTF8?_of_ofLine? (job : ofLine? line = some (expression text)) :
    String.fromUTF8? ⟨line.toArray⟩ = some text := by
  unfold ofLine? at job
  split at job
  · cases job
  · next held decoded =>
      split at job
      · cases job
      · cases job
        exact decoded

/-- A line that is passed over holds a token exactly if it is lost. -/
theorem isLost_iff (decoded : String.fromUTF8? ⟨line.toArray⟩ = some text) :
    ofLine? line = none ∧ Lexeme.read text ≠ .error .noToken ↔ Text.IsLost text.toList := by
  rw [ofLine?_eq_none_iff decoded, Ne, Lexeme.read_eq_noToken_iff, Text.isLost_iff]

/-- A line that is not passed over holds no token exactly if it is hollow. -/
theorem isHollow_iff (decoded : String.fromUTF8? ⟨line.toArray⟩ = some text) :
    ofLine? line ≠ none ∧ Lexeme.read text = .error .noToken ↔ Text.IsHollow text.toList := by
  rw [Ne, ofLine?_eq_none_iff decoded, Lexeme.read_eq_noToken_iff, Text.isHollow_iff, and_comm]

/-- The hollow lines are those whose jobs fail for want of a token. -/
theorem isHollow_of_mem {found : List (List UInt8)} {calculator : Calculator} {job : Job}
    (member : job ∈ found.filterMap ofLine?)
    (failed : job.outcome calculator = .error (.reading .noToken)) :
    ∃ text, job = expression text ∧ Text.IsHollow text.toList := by
  obtain ⟨line, -, read⟩ := List.mem_filterMap.mp member
  cases job with
  | unreadable => cases failed
  | expression text =>
      refine ⟨text, rfl, (isHollow_iff (fromUTF8?_of_ofLine? read)).mp ⟨?_, ?_⟩⟩
      · rw [read]
        exact nofun
      · rw [Lexeme.read_eq_noToken_iff, ← Calculator.evaluate_eq_noToken_iff]
        exact failed

/-! ## Complaints for want of a token -/

/-- No other failure is complained about in the same words. -/
theorem noToken_of_errors {failure : Failure} {rest : String}
    (same : "Error: " ++ failure.message ++ "\n" ++ rest =
      "Error: Parsing failed: Non-empty string expected\n") : failure = .reading .noToken := by
  have parts : "Error: Parsing failed: Non-empty string expected\n" =
      "Error: " ++ ("Parsing failed: " ++ "Non-empty string expected\n") := by
    decide
  have phaseLetter :
      ("Parsing failed: " ++ "Non-empty string expected\n").toList[0]? = some 'P' :=
    Text.getElem?_append (by decide)
  have faultLetter : "Non-empty string expected\n".toList[0]? = some 'N' := by decide
  have told := Text.append_cancel (String.append_assoc.symm.trans (same.trans parts))
  have phase := Text.first_eq told failure.first_letter phaseLetter
  cases failure with
  | reading fault =>
      have letter := Text.first_eq (Text.append_cancel told) fault.first_letter faultLetter
      cases fault with
      | noToken => rfl
      | _ => cases letter
  | evaluation fault => cases phase
  | settings fault => cases phase
  | input => cases phase

theorem Complaint.noToken_iff {job : Job} {failure : Failure} {errors : String}
    (complaint : Complaint job failure errors) :
    errors = "Error: Parsing failed: Non-empty string expected\n" ↔
      failure = .reading .noToken := by
  cases complaint with
  | placed cut position =>
      constructor
      · exact noToken_of_errors
      · intro none
        cases none
        cases position
  | unplaced nowhere =>
      constructor
      · intro same
        exact noToken_of_errors ((String.append_empty).trans same)
      · rintro rfl
        rfl

end Job

namespace Report

/-- A run ends for want of a token exactly if the first job that fails is a hollow line. -/
theorem On.noToken_iff {calculator : Calculator} {json : Bool} {found : List (List UInt8)}
    {report : Report} (on : On calculator json (found.filterMap Job.ofLine?) report) :
    report.errors = "Error: Parsing failed: Non-empty string expected\n" ↔
      ∃ before text later values,
        found.filterMap Job.ofLine? = before ++ .expression text :: later ∧
          List.Forall₂ (Job.Gives calculator) before values ∧ Text.IsHollow text.toList := by
  constructor
  · intro same
    generalize cut : found.filterMap Job.ofLine? = jobs at on
    cases on with
    | finished done printed => simp at same
    | @stopped before job failure values output errors done printed failed complaint later =>
        obtain rfl := complaint.noToken_iff.mp same
        have member : job ∈ found.filterMap Job.ofLine? := by
          rw [cut]
          exact List.mem_append_right before List.mem_cons_self
        obtain ⟨text, rfl, hollow⟩ := Job.isHollow_of_mem member failed
        exact ⟨before, text, later, values, rfl, done, hollow⟩
  · rintro ⟨before, text, later, values, cut, done, hollow⟩
    have failed : (Job.expression text).outcome calculator = .error (.reading .noToken) :=
      Calculator.evaluate_eq_noToken_iff.mpr hollow.separates
    obtain ⟨output, printed⟩ := exists_prints json values
    have ran := on_iff.mp on
    rw [cut, ofJobs_stopped done printed failed] at ran
    rw [← ran]
    rfl

/--
The lines that are passed over are not those without a token. A line that is passed over holds one
exactly if it consists of blanks with U+0085 among them; a line that is not passed over holds none
exactly if it consists of separators with U+FEFF among them, and a run ends for want of a token
exactly if the first of its lines that fails is such a one.
-/
theorem ofCommand_blank_lines {arguments : List String} {options : Options}
    (asked : request arguments = .ok (.run options)) (bare : options.expressions = [])
    {file : String → Settings.File} {settings : Settings}
    (inForce : Settings.InForce (file options.path) settings) {input : List UInt8}
    {found : List (List UInt8)} (lined : Job.Lined input found) (log : String) :
    (∀ line ∈ found, ∀ text, String.fromUTF8? ⟨line.toArray⟩ = some text →
      (Job.ofLine? line = none ∧ Lexeme.read text ≠ .error .noToken ↔ Text.IsLost text.toList) ∧
      (Job.ofLine? line ≠ none ∧ Lexeme.read text = .error .noToken ↔
        Text.IsHollow text.toList)) ∧
    ((ofCommand arguments file input log).errors =
        options.written log ++ "Error: Parsing failed: Non-empty string expected\n" ↔
      ∃ before text later values,
        found.filterMap Job.ofLine? = before ++ .expression text :: later ∧
          List.Forall₂ (Job.Gives ⟨settings⟩) before values ∧ Text.IsHollow text.toList) := by
  constructor
  · intro line _ text decoded
    exact ⟨Job.isLost_iff decoded, Job.isHollow_iff decoded⟩
  · have due : Job.Due options.expressions input (found.filterMap Job.ofLine?) :=
      bare ▸ .read lined
    have ran : On ⟨settings⟩ options.json (found.filterMap Job.ofLine?)
        (ofJobs ⟨settings⟩ options.json (found.filterMap Job.ofLine?)) := on_iff.mpr rfl
    rw [ofCommand_eq asked inForce due, ← ran.noToken_iff]
    exact String.append_right_inj (options.written log)

/-- A line of U+0085 is passed over, and the line of U+FEFF behind it ends the run. -/
theorem ofCommand_blank_lines_of_marks :
    let input : List UInt8 := [0xC2, 0x85, 10, 0xEF, 0xBB, 0xBF, 10]
    (Job.ofLine? [0xC2, 0x85] = none ∧ Lexeme.read "\u0085" ≠ .error .noToken) ∧
      (ofCommand [] (fun _ => .absent) input "").errors =
        "Error: Parsing failed: Non-empty string expected\n" := by
  intro input
  have asked : request [] = .ok (.run ⟨[], none, false, false⟩) := rfl
  have divided : Job.lines input = [[0xC2, 0x85], [0xEF, 0xBB, 0xBF]] := by decide +kernel
  have lined := Job.lined_lines input
  rw [divided] at lined
  obtain ⟨lines, ended⟩ :=
    @ofCommand_blank_lines [] _ asked rfl (fun _ => .absent) _ .standard _ _ lined ""
  have nextLine : "\u0085".toList = ['\u0085'] := by decide
  have byteOrderMark : "\uFEFF".toList = ['\uFEFF'] := by decide
  have lost : Text.IsLost "\u0085".toList := by
    rw [nextLine]
    exact ⟨List.forall_mem_singleton.mpr rfl, List.mem_singleton_self _⟩
  have hollow : Text.IsHollow "\uFEFF".toList := by
    rw [byteOrderMark]
    exact ⟨List.forall_mem_singleton.mpr rfl, List.mem_singleton_self _⟩
  constructor
  · exact (lines [0xC2, 0x85] List.mem_cons_self "\u0085" (by decide)).1.mpr lost
  · exact ended.mpr ⟨[], "\uFEFF", [], [], by decide, .nil, hollow⟩

end Report

end CommandLine

end PrefixArith
