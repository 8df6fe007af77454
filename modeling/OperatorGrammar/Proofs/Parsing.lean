/-
# Proofs.Parsing -- builders and parses

What a builder makes of a sequence of items, in terms of its parses:

* `exists_isParse_of_finish`: a term that is built is the value of a parse;
* `finish_exact`: once all items and the stop mark are accepted, there is a term exactly
  if there is one parse and no other; a clash says that there is none, an ambiguity that
  there is not just one;
* `refusals_final`: an item or a stop mark is refused only if there is no parse, however
  the sequence goes on, except where two neighbours can be read in two ways
  (`Part.TwoWays`).
-/
import OperatorGrammar.Proofs.Builder.Conclusion

namespace OperatorGrammar

set_option autoImplicit false

namespace Part

variable {table : Table} {items before : List Item}

/-- Behind the items `before`, the name `first` can be the infix operator `i` and then
`second` the prefix operator `x`, or `first` the postfix operator `p` and then `second`
the infix operator `y`: each time an operator accepts the one that heads its argument
there, a postfix operator in front of `first` included. -/
structure TwoWays (table : Table) (before : List Item) (first second : String)
    (i x p y : Operator) : Prop where
  asInfix : (Part.operator .infixOp i).IsDefined table ∧ i.name = first
  thenPrefix : (Part.operator .prefixOp x).IsDefined table ∧ x.name = second
  asPostfix : (Part.operator .postfixOp p).IsDefined table ∧ p.name = first
  thenInfix : (Part.operator .infixOp y).IsDefined table ∧ y.name = second
  rightAccepts : i.rightAccepts x = true
  leftAccepts : y.leftAccepts p = true
  behind : ∃ ps, Reads table before ps ∧ ∀ inner, ps.head? = some (.operator .postfixOp inner) →
    i.leftAccepts inner = true ∧ p.leftAccepts inner = true

theorem OpenPair.exists_twoWays (pair : OpenPair table items) :
    ∃ before first second i x p y, items = before ++ [.operator first, .operator second] ∧
      TwoWays table before first second i x p y := by
  obtain ⟨i, x, p, y, ps, asInfix, asPostfix⟩ := pair
  have prefixed := asInfix.viable.2.2.1
  have infixed := asPostfix.viable.2.2.1
  obtain ⟨⟨rest, definedInfix, behindInfix⟩, definedPrefix, -⟩ := asInfix.viable
  obtain ⟨⟨-, definedPostfix, behindPostfix⟩, definedInfix', -⟩ := asPostfix.viable
  have items_eq := asInfix.items_eq
  have same := asPostfix.items_eq.trans items_eq.symm
  simp only [List.map_cons, List.reverse_cons, List.append_assoc, List.singleton_append,
    List.append_cancel_left_eq, List.cons.injEq, Part.item, Item.operator.injEq, and_true] at same
  refine ⟨(ps.map Part.item).reverse, i.name, x.name, i, x, p, y, ?_, ⟨definedInfix, rfl⟩,
    ⟨definedPrefix, rfl⟩, ⟨definedPostfix, same.1⟩, ⟨definedInfix', same.2⟩, prefixed.accords,
    infixed.accords, ps, ⟨rest, rfl⟩, ?_⟩
  · rw [← items_eq]
    simp [Part.item]
  · intro inner first
    cases ps with
    | nil => cases first
    | cons q ps =>
        cases first
        exact ⟨behindInfix.1.accords, behindPostfix.1.accords⟩

end Part

namespace Builder

open OperatorGrammar.Part

variable {table : Table} {items : List Item} {b : Builder}

/-- What a builder makes of a sequence is the value of one of its parses. -/
theorem exists_isParse_of_finish {term : Term} (reachable : table.Reachable)
    (added : addItems table .empty items = .ok b) (finished : b.finish = .ok term) :
    ∃ t : Tree, t.IsParse table items ∧ t.eval = term := by
  have wf := reachable.wellFormed
  have keeps : Keeps table items b := keeps_of_added wf added
  rcases keeps.finish wf with ⟨t, built, parse⟩ | ⟨cause, refused⟩
  · rw [built] at finished
    cases finished
    exact ⟨t, parse, rfl⟩
  · rw [refused] at finished
    cases finished

theorem exists_isParse_of_minus :
    ∃ t : Tree, t.IsParse .standard
        [.operator "-", .operand (.atom "a"), .operator "-", .operand (.atom "b")] ∧
      t.eval = .compound "-" [.compound "-" [.atom "a"], .atom "b"] :=
  exists_isParse_of_finish .standard rfl rfl

/-- A sequence that is accepted to its end has a term exactly if it has one parse. -/
theorem finish_exact {r : Token × Builder} (reachable : table.Reachable)
    (added : addItems table .empty items = .ok b) (accepted : b.receive .stop = .ok r) :
    ((∃ term, b.finish = .ok term) ↔ ∃! t : Tree, t.IsParse table items) ∧
      ∀ e, b.finish = .error e →
        ((∃ left right, e = .rejected (.clash left right)) ∧
          ∀ t : Tree, ¬ t.IsParse table items) ∨
        (∃ left right, e = .rejected (.ambiguous left right)) ∧
          ¬ ∃! t : Tree, t.IsParse table items := by
  have wf := reachable.wellFormed
  have keeps : Keeps table items b := keeps_of_added wf added
  rcases keeps.stop wf with ⟨token, b', ps, received, decided⟩ | ⟨cause, refused, -⟩
  · rw [finish_eq_of_receive received]
    cases ran : Shunting.runParts {} ps with
    | ok s =>
        obtain ⟨t, result, parse, only⟩ := decided.exists_tree wf ran
        rw [result]
        refine ⟨⟨fun _ => ⟨t, parse, only⟩, fun _ => ⟨_, rfl⟩⟩, ?_⟩
        rintro e ⟨⟩
    | error stuck =>
        obtain ⟨result, why⟩ := decided.of_stuck wf ran
        rw [result]
        refine ⟨⟨?_, fun unique => ?_⟩, ?_⟩
        · rintro ⟨term, ⟨⟩⟩
        · rcases why with ⟨-, none⟩ | ⟨-, several⟩
          · exact absurd unique.exists.choose_spec (none _)
          · exact absurd unique several
        · rintro e ⟨⟩
          rcases why with ⟨⟨left, right, clash⟩, none⟩ | ⟨⟨left, right, ambiguous⟩, several⟩
          · exact Or.inl ⟨⟨left, right, by rw [clash]⟩, none⟩
          · exact Or.inr ⟨⟨left, right, by rw [ambiguous]⟩, several⟩
  · rw [refused] at accepted
    cases accepted

theorem existsUnique_isParse_minus :
    ∃! t : Tree, t.IsParse .standard
      [.operand (.atom "a"), .operator "-", .operand (.atom "b"), .operator "-",
        .operand (.atom "c")] :=
  (finish_exact .standard rfl rfl).1.1 ⟨_, rfl⟩

/-- Only a sequence without parses is refused, or one with two neighbours that may be read
in two ways; in that case the later one of them is refused, as ambiguous. -/
theorem refusals_final (reachable : table.Reachable) (items : List Item) :
    ((∃ t : Tree, t.IsParse table items) →
      (∃ b r, addItems table .empty items = .ok b ∧ b.receive .stop = .ok r) ∨
      ∃ before first second after b left right i x p y,
        items = before ++ .operator first :: .operator second :: after ∧
        addItems table .empty (before ++ [.operator first]) = .ok b ∧
        addItem table b (.operator second) = .error (.rejected (.ambiguous left right)) ∧
        TwoWays table before first second i x p y) ∧
    (∀ before item after b e, items = before ++ item :: after →
      addItems table .empty before = .ok b → addItem table b item = .error e →
      (∀ left right, e ≠ .rejected (.ambiguous left right)) →
      ∀ t : Tree, ¬ t.IsParse table items) ∧
    ∀ b e, addItems table .empty items = .ok b → b.receive .stop = .error e →
      ∀ t : Tree, ¬ t.IsParse table items := by
  have wf := reachable.wellFormed
  refine ⟨?_, ?_, ?_⟩
  · rintro ⟨t, parse⟩
    rcases addItems_or_refused wf items with
      ⟨b, added, keeps⟩ | ⟨before, item, after, b, cause, rfl, added, refused, why⟩
    · rcases keeps.stop wf with ⟨token, b', ps, received, -⟩ | ⟨cause, -, none⟩
      · exact Or.inl ⟨b, _, added, received⟩
      · exact absurd parse (none t)
    · rcases why.final_or_pair with none | ⟨⟨left, right, rfl⟩, pair⟩
      · exact absurd parse (none after t)
      · obtain ⟨front, first, second, i, x, p, y, split, ways⟩ := pair.exists_twoWays
        have split : before ++ [item] = (front ++ [.operator first]) ++ [.operator second] := by
          rw [split]
          simp
        obtain ⟨rfl, last⟩ := List.append_inj' split rfl
        cases last
        exact Or.inr ⟨front, first, second, after, b, left, right, i, x, p, y, by simp, added,
          refused, ways⟩
  · rintro before item after b e rfl added refused plain t
    have keeps : Keeps table before b := keeps_of_added wf added
    rcases keeps.addItem wf item with ⟨b', added', -⟩ | ⟨cause, refused', why⟩
    · rw [refused] at added'
      cases added'
    · rw [refused] at refused'
      cases refused'
      rcases why.final_or_pair with none | ⟨⟨left, right, same⟩, -⟩
      · exact none after t
      · exact absurd (by rw [same]) (plain left right)
  · intro b e added refused
    have keeps : Keeps table items b := keeps_of_added wf added
    rcases keeps.stop wf with ⟨token, b', ps, received, -⟩ | ⟨cause, -, none⟩
    · rw [refused] at received
      cases received
    · exact none

theorem not_exists_isParse_neighbours :
    ¬ ∃ t : Tree, t.IsParse .standard
      [.operand (.atom "a"), .operand (.atom "b"), .operator "-", .operand (.atom "c")] := by
  rintro ⟨t, parse⟩
  have final := (refusals_final .standard _).2.1 [.operand (.atom "a")] (.operand (.atom "b"))
    [.operator "-", .operand (.atom "c")] _ _ rfl rfl rfl
  exact final (by simp) t parse

end Builder

end OperatorGrammar
