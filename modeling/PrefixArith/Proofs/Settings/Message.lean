import PrefixArith.Failure
import PrefixArith.Proofs.Text.Encoding
import PrefixArith.Proofs.Text.Line

/-!
# Messages about settings

A text that holds no settings is refused as malformed, for a value of another kind than a count or
the settings themselves, for a negative count, or for a second limit. Whatever the text is, the
message about it is one line.
-/

namespace PrefixArith

open Text (IsLine)

namespace Json

theorem Fault.isLine_message (fault : Fault) : IsLine fault.message.toList := by
  cases fault <;> decide +kernel

theorem Place.isLine_phrase (place : Option Place) : IsLine (phrase place).toList := by
  cases place with
  | none => decide
  | some place =>
      have start : IsLine " at line ".toList := by decide
      have middle : IsLine " column ".toList := by decide
      exact ((start.toList_append (Text.isLine_natText place.line)).toList_append
        middle).toList_append (Text.isLine_natText place.column)

/-- What stands in place of the value that is due is described in one line. -/
theorem Found.isLine_describe (found : Found) : IsLine found.describe.toList := by
  have tick : IsLine "`".toList := by decide
  cases found with
  | null => decide
  | bool value => cases value <;> decide
  | integer value =>
      have start : IsLine "integer `".toList := by decide
      exact (start.toList_append (Text.isLine_intText value)).toList_append tick
  | real value =>
      have start : IsLine "floating point `".toList := by decide
      have word : IsLine (String.ofList (numberLayout.text value)).toList := by
        rw [String.toList_ofList]
        exact numberLayout_isLine.text value
      exact (start.toList_append word).toList_append tick
  | string content =>
      have start : IsLine "string ".toList := by decide
      have quotation : IsLine (String.ofList (Text.quote content)).toList := by
        rw [String.toList_ofList]
        exact Text.isLine_quote content
      exact start.toList_append quotation
  | list => decide
  | object => decide

end Json

namespace Settings

/-- The rejections of texts that hold no settings. -/
inductive Rejects : Json.Rejection → Prop where
  | malformed (fault : Json.Fault) : Rejects (.malformed fault)
  | noCount (found : Json.Found) : Rejects (.unexpected found "usize")
  | noSettings (found : Json.Found) : Rejects (.unexpected found "struct EvalConfig")
  | negative {value : Int} (negative : value < 0) : Rejects (.negativeCount value)
  | repeated : Rejects (.repeatedMember maxDepthKey)

theorem Rejects.isLine_message {rejection : Json.Rejection} (rejects : Rejects rejection) :
    IsLine rejection.message.toList := by
  have kind (found : Json.Found) {expected : String} (isLine : IsLine expected.toList) :
      IsLine (Json.Rejection.unexpected found expected).message.toList := by
    have start : IsLine "invalid type: ".toList := by decide
    have middle : IsLine ", expected ".toList := by decide
    exact ((start.toList_append found.isLine_describe).toList_append middle).toList_append isLine
  cases rejects with
  | malformed fault => exact fault.isLine_message
  | noCount found => exact kind found (by decide)
  | noSettings found => exact kind found (by decide)
  | @negative value _ =>
      have start : IsLine "invalid value: integer `".toList := by decide
      have finish : IsLine "`, expected usize".toList := by decide
      exact (start.toList_append (Text.isLine_intText value)).toList_append finish
  | repeated => decide

/-! ## Rejections of the readers -/

variable {foreign : List Nat} {text : List Char} {rejection : Json.Rejection}

theorem rejects_refuse {expected : String}
    (known : ∀ found, Rejects (.unexpected found expected)) (first : Char)
    (rest : Remainder text) : Rejects (Json.refuse foreign expected first rest) := by
  unfold Json.refuse
  split
  · exact .malformed _
  · exact known _

theorem rejects_of_count (failed : count foreign text = .error rejection) : Rejects rejection := by
  unfold count at failed
  split at failed
  · cases failed
    exact .malformed _
  · split at failed
    · split at failed
      · cases failed
        exact .malformed _
      · cases failed
        exact .noCount _
      · split at failed
        · next below =>
            cases failed
            exact .negative below
        · cases failed
    · cases failed
      exact rejects_refuse .noCount _ _

theorem rejects_of_closeList (failed : closeList text = .error rejection) : Rejects rejection := by
  unfold closeList at failed
  split at failed
  · cases failed
    exact .malformed _
  · split at failed
    · cases failed
    · split at failed <;> cases failed <;> exact .malformed _

theorem rejects_of_listLimit (failed : listLimit foreign text = .error rejection) :
    Rejects rejection := by
  unfold listLimit at failed
  split at failed
  · cases failed
    exact .malformed _
  · split at failed
    · cases failed
    · split at failed
      · next uncounted =>
          cases failed
          exact rejects_of_count uncounted
      · next limit after counted =>
          cases closed : closeList after.val with
          | error reason =>
              rw [closed] at failed
              cases failed
              exact rejects_of_closeList closed
          | ok rest =>
              rw [closed] at failed
              cases failed

theorem rejects_of_memberLimit {limit : Option Nat} {isFirst : Bool}
    (failed : memberLimit foreign limit isFirst text = .error rejection) : Rejects rejection := by
  -- Of the members only the limit is refused for what it is; all others are for their form.
  fun_induction memberLimit foreign limit isFirst text <;> grind [Rejects, rejects_of_count]

theorem rejects_of_limit (failed : limit foreign text = .error rejection) : Rejects rejection := by
  unfold limit at failed
  split at failed
  · cases failed
    exact .malformed _
  · split at failed
    · exact rejects_of_listLimit failed
    · split at failed
      · exact rejects_of_memberLimit failed
      · cases failed
        exact rejects_refuse .noSettings _ _

theorem rejects_of_read (failed : read foreign text = .error rejection) : Rejects rejection := by
  unfold read at failed
  split at failed
  · next unread =>
      cases failed
      exact rejects_of_limit unread
  · unfold Json.finish at failed
    split at failed
    · cases failed
    · cases failed
      exact .malformed _

/-! ## Files -/

/-- A file that holds the bytes of a text is read as the text is. -/
theorem ofFile_encode (text : List Char) (place : Option Json.Place) :
    ofFile (.content (Text.encode text) place) =
      (read [] text).mapError fun rejection => .inFile rejection place := by
  rw [ofFile, Text.decode_encode]

/-- The message about a file that holds no settings is one line. -/
theorem Fault.isLine_message_of_file {file : File} {fault : Fault}
    (failed : ofFileOrStandard file = .error fault) : IsLine fault.message.toList := by
  cases file with
  | absent => cases failed
  | locked =>
      cases failed
      decide
  | directory =>
      cases failed
      decide
  | content bytes place =>
      cases unread : read (Text.decode bytes).foreign (Text.decode bytes).characters with
      | error rejection =>
          simp only [ofFileOrStandard, ofFile, unread] at failed
          cases failed
          have start : IsLine "Failed to parse config file: ".toList := by decide
          exact (start.toList_append (rejects_of_read unread).isLine_message).toList_append
            (Json.Place.isLine_phrase place)
      | ok settings =>
          simp only [ofFileOrStandard, ofFile, unread] at failed
          cases failed

end Settings

end PrefixArith
