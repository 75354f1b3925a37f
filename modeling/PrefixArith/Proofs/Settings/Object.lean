import PrefixArith.Proofs.Json.Skip
import PrefixArith.Settings.File

/-!
# Settings in an object

Of an object only the members whose key means the nesting limit count, in their order: the others
are passed over, wherever they stand and whatever they hold. Without such a member the settings are
the standard ones, with one they are what its value counts, and a second one is refused. So settings
are read back from their JSON text.
-/

namespace PrefixArith

open Json (Found IsGap IsValue Rejection isGap_nil left next? next?_append plain separator
  startsNumber)

open Json.Number (EndsNumber)

namespace Json

variable {text gap : List Char} {first : Char} {rest : Remainder text}

theorem atEnd_of_isGap (isGap : IsGap gap) : atEnd gap = true := by
  induction gap with
  | nil => rfl
  | cons blank gap ih =>
      have rest := ih fun character member => isGap character (.tail _ member)
      rw [atEnd, Option.isNone_iff_eq_none] at rest ⊢
      rw [next?, if_pos (isGap blank (.head _)), rest]
      rfl

/-! ## Keys -/

theorem plain_map {α β : Type} {part : List Char} (convert : α → β)
    (place : Remainder part → Remainder text) (same : ∀ rest, (place rest).val = rest.val)
    (result : Except Fault (α × Remainder part)) :
    plain (result.map fun found => (convert found.1, place found.2)) =
      (plain result).map fun found => (convert found.1, found.2) := by
  cases result with
  | error fault => rfl
  | ok found => exact congrArg Except.ok (Prod.ext rfl (same found.2))

/-- The key of a member is read behind its separator, with all its escapes resolved. -/
theorem plain_nextKey_append {before written content : List Char} (isFirst : Bool)
    (isGap : IsGap gap) (isBefore : IsGap before) (spells : Quoted.Spells written content)
    (rest : List Char) :
    plain (nextKey [] isFirst
        (gap ++ (separator isFirst ++ (before ++ '"' :: (written ++ '"' :: rest))))) =
      .ok (some content, rest) := by
  have read := spells.read_append rest
  cases isFirst with
  | true =>
      obtain ⟨_, found⟩ := next?_append (isGap.append isBefore) '"' rfl (written ++ '"' :: rest)
      rw [separator, if_pos rfl, List.nil_append, ← List.append_assoc, nextKey, found]
      refine (plain_map some id (fun _ => rfl) _).trans ?_
      rw [plain_quoted, read]
      rfl
  | false =>
      obtain ⟨shorter, comma⟩ :=
        next?_append isGap ',' rfl (before ++ '"' :: (written ++ '"' :: rest))
      obtain ⟨_, found⟩ := next?_append isBefore '"' rfl (written ++ '"' :: rest)
      rw [separator, if_neg Bool.false_ne_true, List.singleton_append, nextKey, comma]
      dsimp only
      rw [if_neg (by decide), if_neg Bool.false_ne_true, if_pos rfl, found]
      dsimp only
      rw [if_pos rfl]
      refine (plain_map some (Remainder.of ⟨_, shorter⟩) (fun _ => rfl) _).trans ?_
      rw [plain_quoted, read]
      rfl

theorem plain_nextKey_close (isFirst : Bool) (isGap : IsGap gap) (rest : List Char) :
    plain (nextKey [] isFirst (gap ++ '\x7d' :: rest)) = .ok (none, rest) := by
  obtain ⟨_, found⟩ := next?_append isGap '\x7d' rfl rest
  rw [nextKey, found]
  rfl

/-! ## Values of the wrong kind -/

/-- The kind of a value that is no number depends on its text only. -/
theorem found_eq (noNumber : startsNumber first = false) (rest : Remainder text) :
    found [] first rest =
      if first = 'n' then (word ['u', 'l', 'l'] rest.val).map fun _ => .null
      else if first = 't' then (word ['r', 'u', 'e'] rest.val).map fun _ => .bool true
      else if first = 'f' then (word ['a', 'l', 's', 'e'] rest.val).map fun _ => .bool false
      else if first = '"' then (Quoted.read rest.val).map fun content => .string content.1
      else if first = '[' then .ok .list
      else if first = '\x7b' then .ok .object
      else .error .noValue := by
  have constants (letters : List Char) (kind : Found) :
      ((constant letters rest).map fun _ => kind) = (word letters rest.val).map fun _ => kind := by
    rw [← left_constant]
    cases constant letters rest <;> rfl
  have strings : ((quoted [] rest).map fun content => Found.string content.1) =
      (Quoted.read rest.val).map fun content => .string content.1 := by
    rw [← plain_quoted]
    cases quoted [] rest <;> rfl
  rw [found, constants, constants, constants, strings, noNumber, if_neg Bool.false_ne_true]

/-! ## Natural numbers -/

/-- The digits of a natural number are a number of JSON. -/
theorem isProper_digits (size : Nat) :
    (Decimal.Written.mk (Decimal.digits size) none none).IsProper where
  word := Decimal.isWord_digits size
  nonempty := Decimal.Scientific.digits_ne_nil size
  leading zero := by
    rcases Nat.eq_zero_or_pos size with rfl | positive
    · rfl
    · exact absurd zero (Decimal.head?_digits_ne positive)
  fraction := nofun

theorem isWritten_digits (size : Nat) : Number.IsWritten (Decimal.digits size) := by
  have proper := isProper_digits size
  have isWritten : Number.IsWritten (Number.minusText false ++
      (Decimal.digits size ++ (Decimal.Written.fractionText none ++ []))) :=
    .of false proper.word proper.nonempty proper.leading proper.fraction .none
  rwa [Decimal.Written.fractionText, List.append_nil, List.append_nil] at isWritten

theorem isValue_digits (size : Nat) : IsValue (Decimal.digits size) :=
  .number (isWritten_digits size)

/-- A natural number of 64 bits is read exactly. -/
theorem Number.read_digits {size : Nat} (fits : size < UInt64.size) :
    Number.read (Decimal.digits size) = .ok (.integer size, []) := by
  have whole : minusText false ++
      ((Decimal.Written.mk (Decimal.digits size) none none).text ++ []) = Decimal.digits size := by
    simp [minusText, Decimal.Written.text, Decimal.Written.fractionText,
      Decimal.Written.exponentText]
  have taken : takeParts .endInValue (Decimal.digits size) =
      .ok (⟨false, Decimal.digits size, none, none⟩, []) := by
    have ends : EndsNumber [] := by simp [EndsNumber]
    exact (congrArg (takeParts .endInValue) whole.symm).trans
      (takeParts_append (isProper_digits size) false ends)
  have gathered : gather 0 (Decimal.digits size) = (size, 0) := by
    have all := gather_append [] (Decimal.digits size)
    rw [List.nil_append, Decimal.ofDigits_digits] at all
    exact all fits
  rw [Number.read, taken]
  simp [ofParts, gathered, integer?, Except.map]

end Json

namespace Settings

variable {gap value : List Char}

/-! ## Counts -/

/-- The count that a number is. -/
def natural : Json.Number → Except Rejection Nat
  | .real value => .error (.unexpected (.real value) "usize")
  | .integer value => if value < 0 then .error (.negativeCount value) else .ok value.toNat

theorem plain_count {text : List Char} {first : Char} {rest : Remainder text}
    (found : next? text = some (first, rest)) :
    plain (count [] text) =
      if startsNumber first then
        match Json.Number.read (first :: rest.val) with
        | .error fault => .error (.malformed fault)
        | .ok (number, after) => (natural number).map fun size => (size, after)
      else .error (Json.refuse [] "usize" first rest) := by
  rw [count, found]
  dsimp only
  split
  · rw [← Json.plain_numeral]
    cases Json.numeral first rest with
    | error fault => rfl
    | ok both =>
        obtain ⟨number, after⟩ := both
        cases number with
        | real value => rfl
        | integer value =>
            change plain (if value < 0 then .error (.negativeCount value) else
              .ok (value.toNat, after)) =
                (natural (.integer value)).map fun size => (size, after.val)
            rw [natural]
            by_cases negative : value < 0
            · rw [if_pos negative, if_pos negative]
              rfl
            · rw [if_neg negative, if_neg negative]
              rfl
  · rfl

/-- Whatever stands around a value, the same is counted of it, or it is refused alike. -/
def Counts (value : List Char) (result : Except Rejection Nat) : Prop :=
  ∀ {gap rest : List Char}, IsGap gap → EndsNumber rest →
    plain (count [] (gap ++ (value ++ rest))) = result.map fun size => (size, rest)

/-- A value of the wrong kind is refused by its own text. -/
theorem Counts.of_refuse {first : Char} {others : List Char}
    (visible : Json.isBlank first = false) (noNumber : startsNumber first = false)
    (rejection : Rejection)
    (each : ∀ {text rest : List Char} (after : Remainder text), after.val = others ++ rest →
      Json.refuse [] "usize" first after = rejection) :
    Counts (first :: others) (.error rejection) := by
  intro gap rest isGap _
  obtain ⟨_, found⟩ := next?_append isGap first visible (others ++ rest)
  refine (plain_count found).trans ?_
  rw [noNumber, if_neg Bool.false_ne_true, each _ rfl]
  rfl

theorem exists_counts (isValue : IsValue value) : ∃ result, Counts value result := by
  cases isValue with
  | nullWord =>
      refine ⟨_, Counts.of_refuse rfl rfl (.unexpected .null "usize") fun after spelled => ?_⟩
      rw [Json.refuse, Json.found_eq rfl, spelled]
      rfl
  | trueWord =>
      refine ⟨_, Counts.of_refuse rfl rfl (.unexpected (.bool true) "usize") fun after spelled => ?_⟩
      rw [Json.refuse, Json.found_eq rfl, spelled]
      rfl
  | falseWord =>
      refine ⟨_, Counts.of_refuse rfl rfl (.unexpected (.bool false) "usize") fun after spelled => ?_⟩
      rw [Json.refuse, Json.found_eq rfl, spelled]
      rfl
  | @string text isWritten =>
      obtain ⟨result, each⟩ := isWritten.settles.1
      refine ⟨_, Counts.of_refuse rfl rfl
        (match result with
        | .error fault => .malformed fault
        | .ok content => .unexpected (.string content) "usize") fun after spelled => ?_⟩
      rw [List.append_assoc] at spelled
      rw [Json.refuse, Json.found_eq rfl, spelled, List.singleton_append, each]
      cases result <;> rfl
  | number isWritten =>
      obtain ⟨parts, taken⟩ := isWritten.exists_takeParts
      obtain ⟨first, others, rfl, starts⟩ := isWritten.exists_cons
      refine ⟨match Json.Number.ofParts parts with
        | .error fault => .error (.malformed fault)
        | .ok number => natural number, fun {gap rest} isGap ends => ?_⟩
      obtain ⟨_, found⟩ := next?_append isGap first (Json.startsNumber_ne starts).1 (others ++ rest)
      refine (plain_count found).trans ?_
      have read : Json.Number.read (first :: (others ++ rest)) =
          (Json.Number.ofParts parts).map fun number => (number, rest) := by
        rw [Json.Number.read, ← List.cons_append, taken _ ends]
      rw [if_pos starts, read]
      cases Json.Number.ofParts parts <;> rfl
  | emptyList => exact ⟨_, Counts.of_refuse rfl rfl (.unexpected .list "usize") fun _ _ => rfl⟩
  | list => exact ⟨_, Counts.of_refuse rfl rfl (.unexpected .list "usize") fun _ _ => rfl⟩
  | emptyObject => exact ⟨_, Counts.of_refuse rfl rfl (.unexpected .object "usize") fun _ _ => rfl⟩
  | object => exact ⟨_, Counts.of_refuse rfl rfl (.unexpected .object "usize") fun _ _ => rfl⟩

/-- What is counted of a value by itself. -/
def counted (value : List Char) : Except Rejection Nat :=
  (plain (count [] value)).map Prod.fst

/-- Between blanks and a rest, what is counted of a value is the same as by itself. -/
theorem plain_count_append (isValue : IsValue value) {rest : List Char} (isGap : IsGap gap)
    (ends : EndsNumber rest) :
    plain (count [] (gap ++ (value ++ rest))) = (counted value).map fun size => (size, rest) := by
  obtain ⟨result, each⟩ := exists_counts isValue
  have alone : counted value = result := by
    have found := @each [] [] nofun nofun
    rw [List.nil_append, List.append_nil] at found
    rw [counted, found]
    cases result <;> rfl
  rw [alone]
  exact each isGap ends

theorem counted_digits {size : Nat} (fits : size < UInt64.size) :
    counted (Decimal.digits size) = .ok size := by
  have read := Json.Number.read_digits fits
  obtain ⟨digit, others, digits, starts⟩ := (Json.isWritten_digits size).exists_cons
  rw [digits] at read ⊢
  have found := Json.next?_cons (Json.startsNumber_ne starts).1 others
  rw [counted, plain_count found, if_pos starts, read]
  have whole : natural (.integer size) = .ok size := by
    rw [natural, if_neg (Int.not_lt.mpr (Int.natCast_nonneg size)), Int.toNat_natCast]
  dsimp only
  rw [whole]
  rfl

/-! ## Members -/

/-- A member of an object: the key that is meant, and the text of the value. -/
structure Member where
  key : List Char
  value : List Char

/-- A member as it is written, with blanks around the key and the value. -/
inductive Member.Spells : Member → List Char → Prop where
  | of {before written content after inner value last : List Char} (isBefore : IsGap before)
      (spells : Json.Quoted.Spells written content) (isAfter : IsGap after) (isInner : IsGap inner)
      (isValue : IsValue value) (isLast : IsGap last) :
      Member.Spells ⟨content, value⟩
        (before ++ '"' :: (written ++ '"' :: (after ++ ':' :: (inner ++ (value ++ last)))))

/-- Members as they are written, with commas between them. -/
inductive Lists : List Member → List Char → Prop where
  | one {member : Member} {text : List Char} (spells : member.Spells text) : Lists [member] text
  | cons {member : Member} {members : List Member} {text others : List Char}
      (spells : member.Spells text) (lists : Lists members others) :
      Lists (member :: members) (text ++ ',' :: others)

/-- The text of an object with its members, and with blanks around it. -/
inductive IsObject : List Member → List Char → Prop where
  | empty {before inner after : List Char} (isBefore : IsGap before) (isInner : IsGap inner)
      (isAfter : IsGap after) : IsObject [] (before ++ '\x7b' :: (inner ++ '\x7d' :: after))
  | of {members : List Member} {before text after : List Char} (isBefore : IsGap before)
      (lists : Lists members text) (isAfter : IsGap after) :
      IsObject members (before ++ '\x7b' :: (text ++ '\x7d' :: after))

/-- The values of the members whose key means the nesting limit. -/
def limits (members : List Member) : List (List Char) :=
  (members.filter fun member => String.ofList member.key = maxDepthKey).map Member.value

theorem limits_cons (member : Member) (members : List Member) :
    limits (member :: members) =
      if String.ofList member.key = maxDepthKey then member.value :: limits members
      else limits members := by
  rw [limits, List.filter_cons]
  split <;> simp_all [limits]

/-- The limit after more values of it, given the one that has been read. -/
def settle (limit : Option Nat) : List (List Char) → Except Rejection (Option Nat)
  | [] => .ok limit
  | value :: others =>
      if limit.isSome then .error (.repeatedMember maxDepthKey)
      else (counted value).bind fun size => settle (some size) others

/-- The settings that an object holds, by the values of its limit. -/
def outcome (values : List (List Char)) (place : Option Json.Place) : Except Fault Settings :=
  ((settle none values).map fun limit => ⟨limit.getD standard.maxDepth⟩).mapError
    fun rejection => .inText rejection place

theorem memberLimit_close (limit : Option Nat) (isFirst : Bool) (isGap : IsGap gap)
    (rest : List Char) : memberLimit [] limit isFirst (gap ++ '\x7d' :: rest) = .ok (limit, rest) := by
  obtain ⟨after, closes, left⟩ :=
    Json.exists_of_plain_eq_ok (Json.plain_nextKey_close isFirst isGap rest)
  rw [memberLimit, closes]
  dsimp only
  rw [left]

theorem memberLimit_of_key {limit : Option Nat} {isFirst : Bool}
    {text content afterKey value : List Char}
    (named : plain (Json.nextKey [] isFirst text) = .ok (some content, afterKey))
    (colon : left (Json.colon afterKey) = .ok value) :
    memberLimit [] limit isFirst text =
      if String.ofList content = maxDepthKey then
        if limit.isSome then .error (.repeatedMember maxDepthKey)
        else (plain (count [] value)).bind fun found => memberLimit [] (some found.1) false found.2
      else
        match left (Json.skip value) with
        | .error fault => .error (.malformed fault)
        | .ok after => memberLimit [] limit false after := by
  obtain ⟨rest, key, rfl⟩ := Json.exists_of_plain_eq_ok named
  cases point : Json.colon rest.val with
  | error fault =>
      rw [point] at colon
      cases colon
  | ok afterColon =>
      rw [point] at colon
      cases colon
      rw [memberLimit, key]
      dsimp only
      rw [point]
      dsimp only
      congr 2
      · cases count [] afterColon.val <;> rfl
      · cases Json.skip afterColon.val <;> rfl

/--
A member is read in front of others: its value counts if the key means the nesting limit, and it is
passed over otherwise.
-/
theorem memberLimit_member {member : Member} {members : List Member} {text rest after : List Char}
    (spells : member.Spells text) (ends : EndsNumber rest)
    (others : ∀ limit {gap}, IsGap gap → memberLimit [] limit false (gap ++ rest) =
      (settle limit (limits members)).map fun limit => (limit, after))
    (limit : Option Nat) (isFirst : Bool) (isGap : IsGap gap) :
    memberLimit [] limit isFirst (gap ++ (separator isFirst ++ (text ++ rest))) =
      (settle limit (limits (member :: members))).map fun limit => (limit, after) := by
  obtain @⟨before, written, content, middle, inner, value, last, isBefore, spelled, isMiddle,
    isInner, isValue, isLast⟩ := spells
  have split : before ++ '"' :: (written ++ '"' :: (middle ++ ':' :: (inner ++ (value ++ last)))) ++
      rest = before ++ '"' ::
        (written ++ '"' :: (middle ++ ':' :: (inner ++ (value ++ (last ++ rest))))) := by
    simp
  have endsValue := Json.endsNumber_append isLast ends
  have named := Json.plain_nextKey_append isFirst isGap isBefore spelled
    (middle ++ ':' :: (inner ++ (value ++ (last ++ rest))))
  have colon : left (Json.colon (middle ++ ':' :: (inner ++ (value ++ (last ++ rest))))) =
      .ok (inner ++ (value ++ (last ++ rest))) := by
    obtain ⟨_, point⟩ := next?_append isMiddle ':' rfl (inner ++ (value ++ (last ++ rest)))
    rw [Json.left_colon point, if_pos rfl]
  rw [split, memberLimit_of_key named colon, limits_cons]
  by_cases means : String.ofList content = maxDepthKey
  · rw [if_pos means, if_pos means, settle]
    by_cases given : limit.isSome = true
    · rw [if_pos given, if_pos given]
      rfl
    · rw [if_neg given, if_neg given, plain_count_append isValue isInner endsValue]
      cases counted value with
      | error rejection => rfl
      | ok size => exact others (some size) isLast
  · rw [if_neg means, if_neg means, isValue.left_skip isInner endsValue]
    exact others limit isLast

/-- The members of an object are read up to the brace that closes it. -/
theorem memberLimit_lists {members : List Member} {text : List Char} (lists : Lists members text)
    (limit : Option Nat) (isFirst : Bool) (isGap : IsGap gap) (rest : List Char) :
    memberLimit [] limit isFirst (gap ++ (separator isFirst ++ (text ++ '\x7d' :: rest))) =
      (settle limit (limits members)).map fun limit => (limit, rest) := by
  -- The blanks behind a member are the gap in front of what follows it.
  induction lists generalizing limit isFirst gap with
  | one spells =>
      have ends : EndsNumber ('\x7d' :: rest) := Json.Number.endsNumber_cons (by decide) rest
      refine memberLimit_member spells ends (fun limit {gap} isGap => ?_) limit isFirst isGap
      exact memberLimit_close limit false isGap rest
  | @cons member members text others spells lists ih =>
      have ends : EndsNumber (',' :: (others ++ '\x7d' :: rest)) :=
        Json.Number.endsNumber_cons (by decide) _
      rw [List.append_assoc, List.cons_append]
      refine memberLimit_member spells ends (fun limit {gap} isGap => ?_) limit isFirst isGap
      exact ih limit false isGap

/-! ## Objects -/

variable {members : List Member} {text : List Char} {place : Option Json.Place}

/-- The settings in an object are what the values of its limit make them. -/
theorem ofText_eq (object : IsObject members text) :
    ofText text place = outcome (limits members) place := by
  have opened {before rest after : List Char} (isBefore : IsGap before) (isAfter : IsGap after)
      (found : memberLimit [] none true rest =
        (settle none (limits members)).map fun limit => (limit, after)) :
      ofText (before ++ '\x7b' :: rest) place = outcome (limits members) place := by
    obtain ⟨_, brace⟩ := next?_append isBefore '\x7b' rfl rest
    have reached : limit [] (before ++ '\x7b' :: rest) = memberLimit [] none true rest := by
      rw [limit, brace]
      rfl
    rw [ofText, outcome, read, reached, found]
    cases settle none (limits members) with
    | error rejection => rfl
    | ok limit =>
        dsimp only [Except.map]
        rw [Json.finish, if_pos (Json.atEnd_of_isGap isAfter)]
  cases object with
  | empty isBefore isInner isAfter =>
      exact opened isBefore isAfter (memberLimit_close none true isInner _)
  | of isBefore lists isAfter =>
      exact opened isBefore isAfter (memberLimit_lists lists none true isGap_nil _)

theorem spells_maxDepthKey : Json.Quoted.Spells maxDepthKey.toList maxDepthKey.toList :=
  Json.Quoted.spells_of_plain (by decide)

/-- The JSON text of settings is an object with the limit as its only member. -/
theorem isObject_json (settings : Settings) :
    IsObject [⟨maxDepthKey.toList, Decimal.digits settings.maxDepth⟩] settings.json.toList := by
  have spells := Member.Spells.of isGap_nil spells_maxDepthKey isGap_nil isGap_nil
    (Json.isValue_digits settings.maxDepth) isGap_nil
  have text : settings.json.toList = [] ++ '\x7b' ::
      (([] ++ '"' :: (maxDepthKey.toList ++ '"' ::
        ([] ++ ':' :: ([] ++ (Decimal.digits settings.maxDepth ++ []))))) ++ '\x7d' :: []) := by
    simp [json, Decimal.digits]
  rw [text]
  exact .of isGap_nil (.one spells) isGap_nil

/--
The values of the limit decide the result: without one it is 256, one that is a natural number of 64
bits is taken, and another one behind it is refused, at the place where the text is.
-/
structure IsOutcome (values : List (List Char)) (place : Option Json.Place)
    (result : Except Fault Settings) : Prop where
  absent : values = [] → result = .ok ⟨256⟩
  single : ∀ size < UInt64.size, values = [Decimal.digits size] → result = .ok ⟨size⟩
  repeated : ∀ size < UInt64.size, ∀ second others,
    values = Decimal.digits size :: second :: others →
      result = .error (.inText (.repeatedMember maxDepthKey) place)

theorem isOutcome_outcome (values : List (List Char)) :
    IsOutcome values place (outcome values place) where
  absent := by
    rintro rfl
    rfl
  single size fits := by
    rintro rfl
    rw [outcome, settle, counted_digits fits]
    rfl
  repeated size fits second others := by
    rintro rfl
    rw [outcome, settle, counted_digits fits]
    rfl

/--
Settings depend only on the values of the members of an object whose keys mean the nesting limit. So
other members may be put anywhere between them, and settings are read back from their JSON text.
-/
theorem ofText_object (place : Option Json.Place) :
    (∀ {members text}, IsObject members text →
      IsOutcome (limits members) place (ofText text place)) ∧
      (∀ {members others text other}, IsObject members text → IsObject others other →
        limits members = limits others → ofText text place = ofText other place) ∧
      ∀ settings : Settings, settings.maxDepth < UInt64.size →
        ofText settings.json.toList place = .ok settings := by
  refine ⟨fun object => ?_, fun first second same => ?_, fun settings fits => ?_⟩
  · rw [ofText_eq object]
    exact isOutcome_outcome _
  · rw [ofText_eq first, ofText_eq second, same]
  · have object := isObject_json settings
    have values : limits [⟨maxDepthKey.toList, Decimal.digits settings.maxDepth⟩] =
        [Decimal.digits settings.maxDepth] := by
      simp [limits]
    rw [ofText_eq object, values]
    exact (isOutcome_outcome _).single settings.maxDepth fits rfl

/-- The key of the limit inside another value is passed over, and one with an escape counts. -/
theorem ofText_object_nested :
    ofText " \x7b\"a\":[\x7b\"max_depth\":1\x7d,\"]\\\"\"],\"\\u006dax_depth\" : 7\x7d".toList none =
      .ok ⟨7⟩ := by
  have space : IsGap [' '] := by simp [IsGap, Json.isBlank]
  have inner := IsValue.object (.one (.of isGap_nil spells_maxDepthKey.isWritten isGap_nil
    (.of isGap_nil (Json.isValue_digits 1) isGap_nil)))
  have bracket : Json.Quoted.IsWritten "]\\\"".toList := .plain rfl (.escape .quote .nil)
  have list := IsValue.list (.cons (.of isGap_nil inner isGap_nil)
    (.one (.of isGap_nil (.string bracket) isGap_nil)))
  have first : Json.Quoted.Spells "a".toList "a".toList := .cons (.plain rfl) .nil
  have digit {character : Char} {value : Nat} (below : value < 16)
      (spelled : character = value.digitChar) : Text.IsDigit 16 character value :=
    ⟨below, .inl spelled⟩
  have unit : Json.Quoted.CodeUnit ['0', '0', '6', 'd'] (Text.ofDigits 16 [0, 0, 6, 13]) :=
    .of (digit (by decide) rfl) (digit (by decide) rfl) (digit (by decide) rfl)
      (digit (by decide) rfl)
  have others : Json.Quoted.Spells "ax_depth".toList "ax_depth".toList :=
    Json.Quoted.spells_of_plain (by decide)
  have second : Json.Quoted.Spells _ maxDepthKey.toList := .cons (.unit unit) others
  have object := IsObject.of space (.cons (.of isGap_nil first isGap_nil isGap_nil list isGap_nil)
    (.one (.of isGap_nil second space space (Json.isValue_digits 7) isGap_nil))) isGap_nil
  exact ((ofText_object none).1 object).single 7 (by decide) rfl

end Settings

end PrefixArith
