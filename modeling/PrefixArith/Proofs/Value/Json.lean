import PrefixArith.Calculator
import PrefixArith.Proofs.Json.Tree

/-!
# Values that were written as JSON

The JSON text of a value is read as a tree of the same shape, as far as the nesting allows. The tree
holds a value unless one of its numbers is not finite, which has become null. The numbers of that
value are the ones that their texts are read as, so they need not be the same to the last bit.
-/

namespace PrefixArith

open Json (plain separator numberLayout)

open Json.Number (EndsNumber)

namespace Value

/-! ## Nesting and finiteness -/

mutual

/-- The number of lists that lie around one another in a value, itself included. -/
def depth : Value → Nat
  | number _ => 0
  | list items => depths items + 1

/-- The greatest depth of several values. -/
def depths : List Value → Nat
  | [] => 0
  | first :: rest => max (depth first) (depths rest)

end

mutual

/-- Whether all numbers of a value are finite. -/
def isFinite : Value → Bool
  | number value => value.isFinite
  | list items => areFinite items

/-- Whether all numbers of several values are finite. -/
def areFinite : List Value → Bool
  | [] => true
  | first :: rest => isFinite first && areFinite rest

end

/-! ## Values that are read back -/

/-- A value is read back as another one: of the same structure, each number as its text allows. -/
inductive IsReread : Value → Value → Prop where
  | number {value reread : Binary64} (each : Json.Number.IsReread value reread) :
      IsReread (.number value) (.number reread)
  | list {items rereads : List Value} (each : List.Forall₂ IsReread items rereads) :
      IsReread (.list items) (.list rereads)

/-- A tree holds what a value is read back as, unless a number of the value is not finite. -/
structure IsTree (value : Value) (tree : Json) : Prop where
  finite : value.isFinite = true → ∃ reread, ofJson? tree = some reread ∧ value.IsReread reread
  infinite : value.isFinite = false → ofJson? tree = none

/-- Trees hold what values are read back as, unless a number of them is not finite. -/
structure AreTrees (values : List Value) (trees : List Json) : Prop where
  finite : areFinite values = true →
    ∃ rereads, ofJsons? trees = some rereads ∧ List.Forall₂ IsReread values rereads
  infinite : areFinite values = false → ofJsons? trees = none

theorem AreTrees.nil : AreTrees [] [] where
  finite _ := ⟨[], rfl, .nil⟩
  infinite := nofun

theorem AreTrees.cons {value : Value} {values : List Value} {tree : Json} {trees : List Json}
    (first : IsTree value tree) (rest : AreTrees values trees) :
    AreTrees (value :: values) (tree :: trees) where
  finite finite := by
    rw [areFinite, Bool.and_eq_true] at finite
    obtain ⟨reread, read, same⟩ := first.finite finite.1
    obtain ⟨rereads, reads, each⟩ := rest.finite finite.2
    exact ⟨reread :: rereads, by rw [ofJsons?, read, reads]; rfl, .cons same each⟩
  infinite infinite := by
    rw [areFinite, Bool.and_eq_false_iff] at infinite
    cases finite : value.isFinite with
    | false => rw [ofJsons?, first.infinite finite]
    | true =>
        obtain ⟨reread, read, -⟩ := first.finite finite
        rw [finite] at infinite
        have none := rest.infinite (infinite.resolve_left nofun)
        rw [ofJsons?, read, none]
        rfl

theorem AreTrees.list {values : List Value} {trees : List Json} (areTrees : AreTrees values trees) :
    IsTree (.list values) (.list trees) where
  finite finite := by
    obtain ⟨rereads, reads, each⟩ := areTrees.finite finite
    exact ⟨.list rereads, by rw [ofJson?, reads]; rfl, .list each⟩
  infinite infinite := by
    rw [ofJson?, areTrees.infinite infinite]
    rfl

/-! ## Texts of values -/

/-- The text of a double that is not finite is null. -/
theorem text_of_infinite {number : Binary64} (infinite : number.isFinite = false) :
    numberLayout.text number = "null".toList := by
  cases number with
  | nan => rfl
  | signed negative magnitude =>
      have notFinite : ¬ magnitude.isFinite = true := Bool.eq_false_iff.mp infinite
      rw [Decimal.Layout.text, if_neg notFinite]
      cases negative <;> rfl

theorem exists_json_cons (value : Value) :
    ∃ first rest, value.json = first :: rest ∧ Json.isBlank first = false ∧ first ≠ ']' := by
  cases value with
  | list items => exact ⟨'[', _, rfl, rfl, by decide⟩
  | number value =>
      cases finite : value.isFinite with
      | true =>
          obtain ⟨first, rest, text, starts⟩ := Json.exists_text_cons finite
          obtain ⟨visible, other, -⟩ := Json.startsNumber_ne starts
          exact ⟨first, rest, text, visible, other⟩
      | false => exact ⟨'n', _, text_of_infinite finite, rfl, by decide⟩

/-- The texts of items, each behind its separator. -/
def itemsText : Bool → List Value → List Char
  | _, [] => []
  | isFirst, first :: rest => separator isFirst ++ first.json ++ itemsText false rest

theorem intercalate_layoutTexts (items : List Value) :
    [','].intercalate (layoutTexts numberLayout [','] items) = itemsText true items := by
  cases items with
  | nil => rfl
  | cons first rest =>
      induction rest generalizing first with
      | nil => simp [layoutTexts, itemsText, separator, json]
      | cons second rest ih =>
          have others := ih second
          rw [layoutTexts, layoutTexts, List.intercalate_cons_cons, ← layoutTexts, others]
          simp [itemsText, separator, json]

theorem endsNumber_itemsText (items : List Value) (rest : List Char) :
    EndsNumber (itemsText false items ++ ']' :: rest) := by
  cases items with
  | nil => exact Json.Number.endsNumber_cons (by decide) rest
  | cons first others => exact Json.Number.endsNumber_cons (by decide) _

/-! ## Reading the texts -/

/-- The text of a value is read as a tree exactly if there is room for its lists. -/
def ReadsAs (value : Value) (tree : Json) : Prop :=
  ∀ (room : Nat) {rest : List Char}, EndsNumber rest →
    plain (Json.value room (value.json ++ rest)) =
      if value.depth ≤ room then .ok (tree, rest) else .error .tooDeep

/-- The texts of items are read as trees exactly if there is room for the lists in each of them. -/
def ItemsReadAs (values : List Value) (trees : List Json) : Prop :=
  ∀ (room : Nat) (isFirst : Bool) (rest : List Char),
    plain (Json.items room isFirst (itemsText isFirst values ++ ']' :: rest)) =
      if depths values ≤ room then .ok (trees, rest) else .error .tooDeep

theorem ReadsAs.infinite {number : Binary64} (infinite : number.isFinite = false) :
    ReadsAs (.number number) .null := by
  intro room rest ends
  rw [json, layoutText, text_of_infinite infinite, depth, if_pos (Nat.zero_le room)]
  exact Json.plain_value_null rest

theorem exists_readsAs_number {number : Binary64} (finite : number.isFinite = true) :
    ∃ reread, Json.Number.IsReread number reread ∧
      ReadsAs (.number number) (.number (.real reread)) := by
  obtain ⟨reread, same, read⟩ := Json.Number.exists_read_text finite
  obtain ⟨first, behind, text, starts⟩ := Json.exists_text_cons finite
  refine ⟨reread, same, ?_⟩
  intro room rest ends
  have found := read ends
  rw [text, List.cons_append] at found
  rw [json, layoutText, text, List.cons_append, Json.plain_value_number starts, found, depth,
    if_pos (Nat.zero_le room)]
  rfl

theorem ItemsReadAs.nil : ItemsReadAs [] [] := by
  intro room isFirst rest
  rw [itemsText, List.nil_append, depths, if_pos (Nat.zero_le room)]
  exact Json.plain_items_close isFirst rest

theorem ItemsReadAs.cons {value : Value} {values : List Value} {tree : Json} {trees : List Json}
    (first : ReadsAs value tree) (others : ItemsReadAs values trees) :
    ItemsReadAs (value :: values) (tree :: trees) := by
  intro room isFirst rest
  obtain ⟨character, behind, text, visible, other⟩ := value.exists_json_cons
  have item := first room (endsNumber_itemsText values rest)
  rw [itemsText, List.append_assoc, List.append_assoc, text, List.cons_append,
    Json.plain_items_cons visible other, ← List.cons_append, ← text, item, depths]
  by_cases enough : value.depth ≤ room
  · rw [if_pos enough]
    dsimp only
    rw [others]
    by_cases rest_enough : depths values ≤ room
    · rw [if_pos rest_enough, if_pos (Nat.max_le.mpr ⟨enough, rest_enough⟩)]
      rfl
    · rw [if_neg rest_enough, if_neg fun all => rest_enough (Nat.max_le.mp all).2]
      rfl
  · rw [if_neg enough, if_neg fun all => enough (Nat.max_le.mp all).1]

theorem ItemsReadAs.list {values : List Value} {trees : List Json}
    (items : ItemsReadAs values trees) : ReadsAs (.list values) (.list trees) := by
  intro room rest ends
  rw [json, layoutText, intercalate_layoutTexts, List.cons_append, List.cons_append,
    List.append_assoc, List.singleton_append, Json.plain_value_list, items, depth]
  cases room with
  | zero => rfl
  | succ room =>
      rw [if_neg (Nat.succ_ne_zero room), Nat.add_sub_cancel]
      by_cases enough : depths values ≤ room
      · rw [if_pos enough, if_pos (Nat.succ_le_succ enough)]
        rfl
      · rw [if_neg enough, if_neg fun all => enough (Nat.le_of_succ_le_succ all)]
        rfl

mutual

/-- The text of every value is read as a tree of the same shape, if there is room. -/
theorem exists_tree (value : Value) : ∃ tree, ReadsAs value tree ∧ IsTree value tree := by
  cases value with
  | number number =>
      cases finite : number.isFinite with
      | true =>
          obtain ⟨reread, same, reads⟩ := exists_readsAs_number finite
          refine ⟨_, reads, fun _ => ⟨.number reread, rfl, .number same⟩, fun infinite => ?_⟩
          exact absurd (finite.symm.trans infinite) (by decide)
      | false =>
          refine ⟨_, .infinite finite, fun all => ?_, fun _ => rfl⟩
          exact absurd (finite.symm.trans all) (by decide)
  | list items =>
      obtain ⟨trees, reads, areTrees⟩ := exists_trees items
      exact ⟨.list trees, reads.list, areTrees.list⟩

theorem exists_trees (values : List Value) :
    ∃ trees, ItemsReadAs values trees ∧ AreTrees values trees := by
  cases values with
  | nil => exact ⟨[], .nil, .nil⟩
  | cons value values =>
      obtain ⟨tree, reads, isTree⟩ := exists_tree value
      obtain ⟨trees, others, areTrees⟩ := exists_trees values
      exact ⟨tree :: trees, .cons reads others, .cons isTree areTrees⟩

end

end Value

namespace Calculator

/-- A text that is a tree as a whole is a value if the tree is one of numbers and lists. -/
theorem readValue_of_plain {text : List Char} {tree : Json} (place : Option Json.Place)
    (taken : plain (Json.value Json.maxNesting text) = .ok (tree, [])) :
    readValue text place =
      match Value.ofJson? tree with
      | none => .error (.settings (.inText .noNumbers place))
      | some value => .ok value := by
  obtain ⟨after, found, last⟩ := Json.exists_of_plain_eq_ok taken
  rw [readValue, Value.read, found]
  dsimp only
  cases Value.ofJson? tree with
  | none => rfl
  | some value =>
      rw [last]
      rfl

/--
The JSON text of a value with more than 127 lists around one another is refused for its nesting, and
otherwise one with a number that is not finite for its nulls. Any other is read as a value of the same
structure, with each number as its text allows.
-/
theorem readValue_json (value : Value) (place : Option Json.Place) :
    if 127 < value.depth then
      readValue value.json place = .error (.settings (.inText (.malformed .tooDeep) place))
    else if value.isFinite then
      ∃ reread, readValue value.json place = .ok reread ∧ value.IsReread reread
    else readValue value.json place = .error (.settings (.inText .noNumbers place)) := by
  obtain ⟨tree, reads, isTree⟩ := value.exists_tree
  have taken := @reads Json.maxNesting [] nofun
  rw [List.append_nil, Json.maxNesting] at taken
  split
  · next deep =>
      rw [if_neg (Nat.not_le.mpr deep)] at taken
      rw [readValue, Value.read, Json.maxNesting, Json.plain_eq_error taken]
      rfl
  · next enough =>
      rw [if_pos (Nat.not_lt.mp enough)] at taken
      have read := readValue_of_plain place taken
      split
      · next finite =>
          obtain ⟨reread, found, same⟩ := isTree.finite finite
          rw [found] at read
          exact ⟨reread, read, same⟩
      · next infinite =>
          rw [isTree.infinite (Bool.eq_false_iff.mpr infinite)] at read
          exact read

/-- The double before `2 ^ 53` is read back as the one before it. -/
theorem readValue_json_not_same :
    let value : Value := .number (.signed false (.ofNat 9007199254740991))
    value.depth ≤ 127 ∧ value.isFinite = true ∧
      readValue value.json none = .ok (.number (.signed false (.ofNat 9007199254740990))) ∧
      readValue value.json none ≠ .ok value := by
  intro value
  have text : value.json = "9007199254740991.0".toList := by decide +kernel
  have scaled : Json.Number.scale 90071992547409910 (-1) = .ok (.ofNat 9007199254740990) := by
    have quotient : (Magnitude.ofNat 90071992547409910).div (Json.Number.powerOfTen 1) =
        .ofNat 9007199254740990 := by
      decide +kernel
    rw [← quotient, ← Json.Number.scaleDown_once _ (by decide)]
    rfl
  have read : readValue value.json none =
      .ok (.number (.signed false (.ofNat 9007199254740990))) := by
    let written : Decimal.Written := ⟨"9007199254740991".toList, some ['0'], none⟩
    have proper : written.IsProper := by
      refine ⟨List.all_eq_true.mp (by decide), List.cons_ne_nil _ _, by decide, ?_⟩
      rintro _ ⟨⟩
      exact ⟨Decimal.isWord_zeros 1, List.cons_ne_nil _ _⟩
    have number := @Json.Number.read_written [] written proper false (by decide) (.inl rfl) nofun
    have digits : written.significand = 90071992547409910 := by decide
    have places : written.scale = -1 := by decide
    rw [digits, places, scaled] at number
    rw [text]
    refine @readValue_of_plain _ (.number (.real (.signed false (.ofNat 9007199254740990)))) none ?_
    exact (Json.plain_value_number rfl _).trans (congrArg _ number)
  refine ⟨Nat.zero_le _, by decide +kernel, read, ?_⟩
  rw [read]
  intro same
  have different : Magnitude.ofNat 9007199254740990 ≠ .ofNat 9007199254740991 := by
    decide +kernel
  exact different (Binary64.signed.inj (Value.number.inj (Except.ok.inj same))).2

end Calculator

end PrefixArith
