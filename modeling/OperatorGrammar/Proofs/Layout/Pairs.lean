/-
# Proofs.Layout.Pairs -- which layouts are built

A sequence with a tight parse is built unless some of its first items end in a pair that
can be read in two ways (`Part.OpenPair`): a builder that took these items would know
just one reading of them (`not_openPair_of_addItems`), and it refuses a sequence with a
parse for no other reason (`RefusesPair.exists_openPair`).

The items of a term have a tight parse, so they are built exactly if there is no such pair
among them (`build_items_iff`).  Edges between an operator and its argument are all that a
layout looks at, and a pair is made by two operators of which neither needs to be an
argument of the other: laid out as `a @ - b`, the difference between the postfix `a @` and
`b` is refused if `@` is also infix and `-` also prefix (`pairTable`).
-/
import OperatorGrammar.Proofs.Builder.Alike
import OperatorGrammar.Proofs.Layout.Rebuilding

namespace OperatorGrammar

set_option autoImplicit false

namespace Builder

open OperatorGrammar.Part

variable {table : Table} {items : List Item} {b : Builder} {t : Tree}

/-- A builder does not take both items of a pair. -/
theorem not_openPair_of_addItems (wf : table.WellFormed)
    (added : addItems table .empty items = .ok b) : ¬ OpenPair table items := by
  rintro ⟨i, x, p, y, ps, asInfix, asPostfix⟩
  have keeps : Keeps table items b := keeps_of_added wf added
  cases keeps with
  | settled settled =>
      have same := (settled.only _ asInfix).trans (settled.only _ asPostfix).symm
      cases same
  | opened items_eq waits =>
      rw [items_eq] at asInfix asPostfix
      have same := (waits.only _ _ asInfix).trans (waits.only _ _ asPostfix).symm
      cases same
  | lone _ _ _ _ _ hopeless => exact hopeless _ asInfix

/-- Behind a refused pair of a sequence with a parse there are two readings. -/
theorem RefusesPair.exists_openPair {e : Failure} (wf : table.WellFormed)
    (refuses : RefusesPair table items e) (parse : t.IsParse table items) :
    ∃ front behind, items = front ++ behind ∧ OpenPair table front := by
  obtain ⟨before, first, second, after, b, left, right, -, -, -, -, items_eq, added, refused, -⟩ :=
    refuses
  have split : items = (before ++ [.operator first]) ++ .operator second :: after := by
    rw [items_eq]
    simp
  have keeps : Keeps table (before ++ [.operator first]) b := keeps_of_added wf added
  rcases keeps.addItem wf (.operator second) with ⟨b', taken, -⟩ | ⟨cause, -, why⟩
  · rw [refused] at taken
    cases taken
  · rcases why.final_or_pair with none | ⟨-, pair⟩
    · rw [split] at parse
      exact absurd parse (none after t)
    · exact ⟨_, after, by rw [split, List.append_cons], pair⟩

/-- A sequence with a tight parse is built unless it has a pair. -/
theorem build_iff_no_pair (wf : table.WellFormed) (parse : t.IsParse table items)
    (tight : ¬ t.Loose) :
    (∃ u, Item.build table items = .ok u) ↔
      ∀ front behind, items = front ++ behind → ¬ OpenPair table front := by
  constructor
  · rintro ⟨u, built⟩ front behind rfl
    obtain ⟨b, -, -, -, -, added, -⟩ := exists_run_of_build wf built
    rw [addItems_append] at added
    obtain ⟨b', taken, -⟩ := exists_of_bind added
    exact not_openPair_of_addItems wf taken
  · intro none
    rcases build_of_tight wf parse tight with built | ⟨e, -, refused⟩
    · exact ⟨_, built⟩
    · obtain ⟨front, behind, items_eq, pair⟩ := refused.exists_openPair wf parse
      exact absurd pair (none front behind items_eq)

end Builder

namespace Layout

open Builder

/-- The items of a term are built exactly if no first items among them end in a pair that can
be read in two ways. -/
theorem build_items_iff {table : Table} (reachable : table.Reachable) (t : Term) :
    (∃ u, Item.build table (items table t) = .ok u) ↔
      ∀ front behind, items table t = front ++ behind → ¬ Part.OpenPair table front := by
  have wf := reachable.wellFormed
  obtain ⟨T, parse, tight, -, -⟩ := exists_tight wf t
  exact build_iff_no_pair wf parse tight

/-- The standard table with an operator that is infix and postfix. -/
def pairTable : Table :=
  (Table.standard.insert ⟨"@", .yfx, 400, none, false⟩).insert ⟨"@", .yf, 100, none, false⟩

/-- The difference between a postfix term and an atom. -/
def pairTerm : Term := .compound "-" [.compound "@" [.atom "a"], .atom "b"]

theorem reachable_pairTable : pairTable.Reachable :=
  .define ⟨"@", .yf, 100, none, false⟩ (.define ⟨"@", .yfx, 400, none, false⟩ .standard rfl) rfl

/-- Neither argument of the difference is put in parentheses, and its items are refused. -/
theorem refused_pairTerm :
    pairTable.Reachable ∧
      items pairTable pairTerm =
        [.operand (.atom "a"), .operator "@", .operator "-", .operand (.atom "b")] ∧
      Item.build pairTable (items pairTable pairTerm) =
        .error (.rejected (.ambiguous "operator '@'" "operator '-'")) :=
  ⟨reachable_pairTable, rfl, rfl⟩

theorem exists_openPair_pairTerm :
    ∃ front behind, items pairTable pairTerm = front ++ behind ∧
      Part.OpenPair pairTable front := by
  by_contra none
  have built : ∃ u, Item.build pairTable (items pairTable pairTerm) = .ok u := by
    apply (build_items_iff reachable_pairTable pairTerm).2
    intro front behind items_eq pair
    exact none ⟨front, behind, items_eq, pair⟩
  obtain ⟨u, built⟩ := built
  cases built

end Layout

end OperatorGrammar
