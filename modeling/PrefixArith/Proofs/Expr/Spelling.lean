import Mathlib.Data.List.Basic
import PrefixArith.Expr.Reading
import PrefixArith.Proofs.Token.Partition

/-!
# The grammar of expressions

Tokens spell an expression: an atom spells the leaf it stands for, and a group is spelled by its
members in order between two parentheses. Reading lexemes as one expression succeeds exactly on
those whose tokens spell one that nests no deeper than the limit, and it reads that expression.
-/

namespace PrefixArith

namespace Expr

mutual

/-- How deep the groups of an expression nest; a leaf has depth 0. -/
def depth : Expr → Nat
  | number _ => 0
  | operator _ => 0
  | group members => greatestDepth members + 1

/-- The greatest depth among several expressions. -/
def greatestDepth : List Expr → Nat
  | [] => 0
  | first :: rest => max (depth first) (greatestDepth rest)

end

mutual

/-- Tokens that spell an expression. -/
inductive Spelling : Expr → List Token → Prop where
  | leaf {text : String} {leaf : Expr} (stands : ∀ position, ofAtom text position = .ok leaf) :
      Spelling leaf [.atom text]
  | group {members : List Expr} {tokens : List Token} (inner : Spellings members tokens) :
      Spelling (.group members) (.opening :: (tokens ++ [.closing]))

/-- Tokens that spell several expressions, one after the other. -/
inductive Spellings : List Expr → List Token → Prop where
  | nil : Spellings [] []
  | cons {first : Expr} {rest : List Expr} {tokens others : List Token}
      (head : Spelling first tokens) (tail : Spellings rest others) :
      Spellings (first :: rest) (tokens ++ others)

end

/-- An atom stands for a leaf, wherever it is. -/
theorem ofAtom_eq_ok {text : String} {position : Nat} {leaf : Expr}
    (stands : ofAtom text position = .ok leaf) :
    leaf.depth = 0 ∧ ∀ other, ofAtom text other = .ok leaf := by
  unfold ofAtom at stands ⊢
  cases number : Numeral.read? text.toList with
  | some value =>
      rw [number] at stands
      cases stands
      exact ⟨by rw [depth], fun _ => rfl⟩
  | none =>
      rw [number] at stands
      cases named : Operator.ofSymbol? text with
      | some op =>
          rw [named] at stands
          cases stands
          exact ⟨by rw [depth], fun _ => rfl⟩
      | none =>
          rw [named] at stands
          cases stands

theorem Spelling.leaf_of_ofAtom {text : String} {position : Nat} {leaf : Expr}
    (stands : ofAtom text position = .ok leaf) : Spelling leaf [.atom text] :=
  .leaf (ofAtom_eq_ok stands).2

/-- A spelling starts with an atom or an opening parenthesis. -/
theorem Spelling.head {expr : Expr} {tokens : List Token} (spelling : Spelling expr tokens) :
    ∃ first rest, tokens = first :: rest ∧ first ≠ .closing := by
  cases spelling with
  | leaf stands => exact ⟨_, _, rfl, nofun⟩
  | group inner => exact ⟨_, _, rfl, nofun⟩

/-! ## What is read is spelled -/

mutual

/-- An element takes a spelling from the front, with groups no deeper than the limit leaves room. -/
theorem element_sound {limit level : Nat} {first : Lexeme} {rest : List Lexeme} {expr : Expr}
    {after : Remainder (first :: rest)}
    (found : element limit level first rest = .ok (expr, after)) :
    ∃ taken, first :: rest = taken ++ after.val ∧ Spelling expr (taken.map Lexeme.token) ∧
      expr.depth ≤ limit - level := by
  rw [element] at found
  split at found
  · next opening =>
      split at found
      · cases found
      · next room =>
          split at found
          · cases found
          · next children after shorter inner =>
              obtain ⟨taken, close, whole, closing, spelled, shallow⟩ := members_sound inner
              cases found
              refine ⟨first :: (taken ++ [close]), by simp [whole], ?_, ?_⟩
              · simpa [opening, closing] using Spelling.group spelled
              · rw [depth]
                omega
  · cases found
  · next text atom =>
      split at found
      · cases found
      · next leaf stands =>
          cases found
          refine ⟨[first], rfl, ?_, ?_⟩
          · simpa [atom] using Spelling.leaf_of_ofAtom stands
          · rw [(ofAtom_eq_ok stands).1]
            exact Nat.zero_le _
  termination_by (rest.length + 1, 0)

/-- The members of a group take their spellings and the parenthesis that closes the group. -/
theorem members_sound {limit level opened : Nat} {lexemes : List Lexeme} {exprs : List Expr}
    {after : Remainder lexemes}
    (found : members limit level opened lexemes = .ok (exprs, after)) :
    ∃ taken close, lexemes = taken ++ close :: after.val ∧ close.token = .closing ∧
      Spellings exprs (taken.map Lexeme.token) ∧ greatestDepth exprs ≤ limit - level := by
  match lexemes with
  | [] =>
      rw [members] at found
      cases found
  | first :: rest =>
      rw [members] at found
      split at found
      · next closing =>
          cases found
          exact ⟨[], first, rfl, closing, .nil, Nat.zero_le _⟩
      · split at found
        · cases found
        · next child middle shorter head =>
            split at found
            · cases found
            · next children after shorterStill tail =>
                cases found
                obtain ⟨taken, whole, spelled, shallow⟩ := element_sound head
                obtain ⟨others, close, remaining, closing, spellings, allShallow⟩ :=
                  members_sound tail
                simp only at whole remaining
                refine ⟨taken ++ others, close, ?_, closing, ?_, ?_⟩
                · calc
                    first :: rest = taken ++ middle := whole
                    _ = taken ++ (others ++ close :: after) := by rw [remaining]
                    _ = taken ++ others ++ close :: after := (List.append_assoc ..).symm
                · rw [List.map_append]
                  exact .cons spelled spellings
                · rw [greatestDepth]
                  exact Nat.max_le.mpr ⟨shallow, allShallow⟩
  termination_by (lexemes.length, 1)

end

/-! ## What is spelled is read -/

theorem element_atom {first : Lexeme} {text : String} {leaf : Expr}
    (atom : first.token = .atom text) (stands : ofAtom text first.start = .ok leaf)
    (limit level : Nat) (rest : List Lexeme) :
    element limit level first rest = .ok (leaf, ⟨rest, Nat.lt_succ_self _⟩) := by
  rw [element]
  simp [atom, stands]

theorem element_opening {limit level : Nat} {first : Lexeme} (opening : first.token = .opening)
    (room : level < limit) {rest : List Lexeme} {children : List Expr} {after : Remainder rest}
    (inner : members limit (level + 1) first.start rest = .ok (children, after)) :
    element limit level first rest =
      .ok (.group children, ⟨after.val, Nat.lt_succ_of_lt after.property⟩) := by
  rw [element]
  simp [opening, Nat.not_le.mpr room, inner]

theorem members_closing {first : Lexeme} (closing : first.token = .closing)
    (limit level opened : Nat) (rest : List Lexeme) :
    members limit level opened (first :: rest) = .ok ([], ⟨rest, Nat.lt_succ_self _⟩) := by
  rw [members, if_pos closing]

theorem members_cons {limit level opened : Nat} {first : Lexeme} (other : first.token ≠ .closing)
    {rest : List Lexeme} {child : Expr} {middle : Remainder (first :: rest)}
    (head : element limit level first rest = .ok (child, middle))
    {children : List Expr} {after : Remainder middle.val}
    (tail : members limit level opened middle.val = .ok (children, after)) :
    members limit level opened (first :: rest) = .ok (child :: children, middle.of after) := by
  rw [members, if_neg other]
  simp [head, tail, Remainder.of]

mutual

/-- A spelling at the front is read as its expression, if its groups find room. -/
theorem Spelling.element_eq {expr : Expr} {tokens : List Token} (spelling : Spelling expr tokens)
    {limit level : Nat} (shallow : expr.depth ≤ limit - level)
    {first : Lexeme} {rest taken after : List Lexeme}
    (whole : first :: rest = taken ++ after) (spelled : taken.map Lexeme.token = tokens) :
    ∃ shorter, element limit level first rest = .ok (expr, ⟨after, shorter⟩) := by
  match spelling with
  | .leaf stands =>
      obtain ⟨lexeme, rfl, atom⟩ := List.map_eq_singleton_iff.mp spelled
      obtain ⟨rfl, rfl⟩ := List.cons.inj whole
      exact ⟨_, element_atom atom (stands _) limit level _⟩
  | @Spelling.group children _ inner =>
      obtain ⟨opening, others, rfl, opens, remaining⟩ := List.map_eq_cons_iff.mp spelled
      obtain ⟨middle, last, rfl, spelledInside, spelledLast⟩ := List.map_eq_append_iff.mp remaining
      obtain ⟨close, rfl, closes⟩ := List.map_eq_singleton_iff.mp spelledLast
      rw [depth] at shallow
      obtain ⟨rfl, rfl⟩ : first = opening ∧ rest = middle ++ close :: after := by
        simpa using whole
      have innerShallow : greatestDepth children ≤ limit - (level + 1) := by omega
      obtain ⟨shorter, found⟩ := inner.members_eq innerShallow first.start spelledInside closes after
      exact ⟨_, element_opening opens (by omega) found⟩

/-- Spellings up to a closing parenthesis are read as the members of a group. -/
theorem Spellings.members_eq {exprs : List Expr} {tokens : List Token}
    (spellings : Spellings exprs tokens) {limit level : Nat}
    (shallow : greatestDepth exprs ≤ limit - level) (opened : Nat)
    {taken : List Lexeme} {close : Lexeme} (spelled : taken.map Lexeme.token = tokens)
    (closing : close.token = .closing) (after : List Lexeme) :
    ∃ shorter, members limit level opened (taken ++ close :: after) =
      .ok (exprs, ⟨after, shorter⟩) := by
  match spellings with
  | .nil =>
      rw [List.map_eq_nil_iff] at spelled
      subst spelled
      exact ⟨_, members_closing closing limit level opened after⟩
  | .cons head tail =>
      rw [greatestDepth] at shallow
      obtain ⟨headShallow, tailShallow⟩ := Nat.max_le.mp shallow
      obtain ⟨front, back, rfl, spelledFront, spelledBack⟩ := List.map_eq_append_iff.mp spelled
      obtain ⟨start, others, starts, notClosing⟩ := head.head
      rw [starts] at spelledFront
      obtain ⟨first, rest, rfl, isStart, _⟩ := List.map_eq_cons_iff.mp spelledFront
      have whole : first :: (rest ++ (back ++ close :: after)) =
          (first :: rest) ++ (back ++ close :: after) := rfl
      obtain ⟨_, foundHead⟩ := head.element_eq headShallow whole (by rw [spelledFront, starts])
      obtain ⟨_, foundTail⟩ := tail.members_eq tailShallow opened spelledBack closing after
      rw [List.append_assoc]
      exact ⟨_, members_cons (isStart ▸ notClosing) foundHead foundTail⟩

end

/-! ## The whole of the lexemes -/

/-- Every element of a sequence has a spelling, and together they are all the lexemes. -/
theorem sequence_sound {limit index stop : Nat} {lexemes : List Lexeme}
    {found : List (Nat × Expr)} (read : sequence limit index lexemes = .ok (stop, found)) :
    stop = index + lexemes.length ∧
      Spellings (found.map Prod.snd) (lexemes.map Lexeme.token) ∧
        greatestDepth (found.map Prod.snd) ≤ limit := by
  fun_induction sequence limit index lexemes generalizing stop found with
  | case1 index =>
      cases read
      exact ⟨rfl, .nil, Nat.zero_le _⟩
  | case2 index first rest fault head => cases read
  | case3 index first rest expr after shorter head fault tail ih => cases read
  | case4 index first rest expr after shorter head stop others tail ih =>
      cases read
      obtain ⟨taken, whole, spelled, shallow⟩ := element_sound head
      obtain ⟨stops, spellings, allShallow⟩ := ih tail
      simp only at whole
      refine ⟨?_, ?_, ?_⟩
      · have lengths := congrArg List.length whole
        rw [List.length_append] at lengths
        omega
      · rw [whole, List.map_append, List.map_cons]
        exact .cons spelled spellings
      · rw [List.map_cons, greatestDepth]
        exact Nat.max_le.mpr ⟨shallow, allShallow⟩

/-- Lexemes that spell one expression are a sequence of one element. -/
theorem Spelling.sequence_eq {expr : Expr} {first : Lexeme} {rest : List Lexeme}
    (spelling : Spelling expr ((first :: rest).map Lexeme.token)) {limit : Nat}
    (shallow : expr.depth ≤ limit) (index : Nat) :
    sequence limit index (first :: rest) =
      .ok (index + (first :: rest).length, [(first.start, expr)]) := by
  have whole : first :: rest = (first :: rest) ++ [] := (List.append_nil _).symm
  obtain ⟨shorter, found⟩ : ∃ shorter, element limit 0 first rest = .ok (expr, ⟨[], shorter⟩) :=
    spelling.element_eq shallow whole rfl
  rw [sequence, found]
  simp [sequence]

theorem Spellings.singleton_iff {expr : Expr} {tokens : List Token} :
    Spellings [expr] tokens ↔ Spelling expr tokens := by
  constructor
  · intro spellings
    cases spellings with
    | cons head tail =>
        cases tail with
        | nil =>
            rw [List.append_nil]
            exact head
  · intro spelling
    simpa using Spellings.cons spelling .nil

/-- What is read as a single expression from an index on is spelled by all lexemes from there on. -/
theorem single_sound {limit index stop : Nat} {lexemes : List Lexeme} {expr : Expr}
    (found : single limit lexemes index = .ok (stop, expr)) :
    index < lexemes.length ∧ stop = lexemes.length ∧ expr.depth ≤ limit ∧
      Spelling expr ((lexemes.drop index).map Lexeme.token) := by
  unfold single at found
  split at found
  · cases found
  · next start read =>
      cases found
      obtain ⟨stops, spellings, shallow⟩ := sequence_sound read
      have spelling := Spellings.singleton_iff.mp spellings
      obtain ⟨token, tokens, starts, _⟩ := spelling.head
      have inside : index < lexemes.length := by
        have lengths := congrArg List.length starts
        rw [List.length_map, List.length_drop, List.length_cons] at lengths
        omega
      rw [List.length_drop] at stops
      exact ⟨inside, by omega, by simpa [greatestDepth] using shallow, spelling⟩
  · cases found
  · cases found

/-- What the lexemes from an index on spell is read as a single expression. -/
theorem Spelling.single_eq {expr : Expr} {lexemes : List Lexeme} {index : Nat}
    (spelling : Spelling expr ((lexemes.drop index).map Lexeme.token))
    (inside : index < lexemes.length) {limit : Nat} (shallow : expr.depth ≤ limit) :
    single limit lexemes index = .ok (lexemes.length, expr) := by
  have length := List.length_drop (i := index) (l := lexemes)
  cases remaining : lexemes.drop index with
  | nil =>
      rw [remaining, List.length_nil] at length
      omega
  | cons first rest =>
      rw [remaining] at spelling length
      have read := spelling.sequence_eq shallow index
      have stops : index + (first :: rest).length = lexemes.length := by omega
      rw [single, remaining, read, stops]

/--
Lexemes from an index on are read as a single expression, up to an index, exactly when there are
lexemes from there on, the reading stops behind the last one, the expression nests no deeper than
the limit, and the tokens of all those lexemes spell it.
-/
theorem single_eq_ok_iff (limit index stop : Nat) (lexemes : List Lexeme) (expr : Expr) :
    single limit lexemes index = .ok (stop, expr) ↔
      index < lexemes.length ∧ stop = lexemes.length ∧ expr.depth ≤ limit ∧
        Spelling expr ((lexemes.drop index).map Lexeme.token) := by
  constructor
  · exact single_sound
  · rintro ⟨inside, rfl, shallow, spelling⟩
    exact spelling.single_eq inside shallow

/-! ## The whole of a text -/

theorem ofLexemes_eq_ok_iff {limit index : Nat} {lexemes : List Lexeme} {expr : Expr} :
    ofLexemes limit lexemes index = .ok expr ↔
      ∃ stop, single limit lexemes index = .ok (stop, expr) := by
  unfold ofLexemes
  cases single limit lexemes index with
  | error fault => simp [Except.map]
  | ok found => simp [Except.map, Prod.ext_iff]

theorem ofLexemes_eq_error_iff {limit index : Nat} {lexemes : List Lexeme} {fault : Malformed} :
    ofLexemes limit lexemes index = .error fault ↔
      single limit lexemes index = .error fault := by
  unfold ofLexemes
  cases single limit lexemes index <;> simp [Except.map]

section Text

variable {text : String} {lexemes : List Lexeme} {limit : Nat}
  (division : Lexeme.Division 0 text.toList lexemes)

include division

/-- Reading a text, given its division into lexemes. -/
theorem read_eq (limit : Nat) :
    read limit text =
      if lexemes = [] then .error .noToken else ofLexemes limit lexemes 0 := by
  unfold read
  rw [Lexeme.read_eq division]
  cases lexemes with
  | nil => rfl
  | cons first rest => rfl

/-- A text whose lexemes spell an expression is read as that expression. -/
theorem Spelling.read_eq {expr : Expr} (spelling : Spelling expr (lexemes.map Lexeme.token))
    (shallow : expr.depth ≤ limit) : read limit text = .ok expr := by
  obtain ⟨token, tokens, starts, -⟩ := spelling.head
  obtain ⟨first, rest, rfl, -, -⟩ := List.map_eq_cons_iff.mp starts
  rw [Expr.read_eq division, if_neg (List.cons_ne_nil first rest), ofLexemes_eq_ok_iff]
  exact ⟨_, spelling.single_eq (Nat.succ_pos _) shallow⟩

/-- What is read from a text is spelled by the lexemes of the text. -/
theorem spelling_of_read {expr : Expr} (found : read limit text = .ok expr) :
    expr.depth ≤ limit ∧ Spelling expr (lexemes.map Lexeme.token) := by
  rw [read_eq division] at found
  split at found
  · cases found
  · obtain ⟨stop, single⟩ := ofLexemes_eq_ok_iff.mp found
    exact (single_sound single).2.2

/-- A text with lexemes is at fault where its lexemes are not a single expression. -/
theorem single_of_read_error {fault : Malformed} (failed : read limit text = .error fault) :
    lexemes = [] ∧ fault = .noToken ∨
      lexemes ≠ [] ∧ single limit lexemes 0 = .error fault := by
  rw [read_eq division] at failed
  split at failed
  · next empty =>
      cases failed
      exact .inl ⟨empty, rfl⟩
  · next nonempty => exact .inr ⟨nonempty, ofLexemes_eq_error_iff.mp failed⟩

end Text

end Expr

end PrefixArith
