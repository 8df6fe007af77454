/-
# Proofs.Layout.Rebuilding -- laying out and building undo each other

The tree of a layout is a tight parse of the items, so a builder makes of them the term
with its operators under their functors, or refuses an item of a pair that can be read in
two ways (`build_layout`).  In the other direction, what is built from items whose operands
cannot be mistaken for operators is laid out as these items (`layout_of_build`).
-/
import OperatorGrammar.Proofs.Builder.Tightness
import OperatorGrammar.Proofs.Layout.Tree

namespace OperatorGrammar.Layout

set_option autoImplicit false

open Builder

variable {table : Table} {t : Term} {T : Tree} {sequence : List Item}

/-! ## The parse of a layout -/

theorem Lays.isParse {items : List Item} (lays : Lays table items t T) : T.IsParse table items where
  items_eq := lays.items_eq
  isDefined := by
    intro p member
    have laid := lays.isLaid p member
    cases p with
    | operand term => trivial
    | atom name => exact laid.elim
    | operator fixity op => exact laid.1
  atomsAllowed := Part.atomsAllowed_of_absent fun _ member => lays.isLaid _ member
  accepted := lays.accepted

theorem Lays.eval_eq {items : List Item} (lays : Lays table items t T) :
    T.eval = T.termUnder Operator.functor :=
  T.eval_eq_termUnder fun _ _ member => (lays.isLaid _ member).2

theorem items_eq_flatten (other : isOperatorAtom table t = false) :
    items table t = flatten table t := by
  cases t with
  | atom name =>
      have absent : (table.find? name).isSome = false := other
      simp [items, absent, flatten]
  | _ => rfl

theorem isParse_atom {name : String} (known : (table.find? name).isSome = true) :
    (Tree.atom name).IsParse table [.operator name] where
  items_eq := rfl
  isDefined := by simpa [Tree.parts, Part.IsDefined] using known
  atomsAllowed := trivial
  accepted := trivial

/-- The items of a term have a tight parse, which is the term under the names of its
operators. -/
theorem exists_tight (wf : table.WellFormed) (t : Term) :
    ∃ T : Tree, T.IsParse table (items table t) ∧ ¬ T.Loose ∧
      T.termUnder Operator.name = t ∧ T.eval = T.termUnder Operator.functor := by
  cases lone : isOperatorAtom table t with
  | false =>
      obtain ⟨T, layout⟩ := exists_isLayout wf t
      rw [items_eq_flatten lone]
      exact ⟨T, layout.isParse, layout.tight, layout.term_eq, layout.eval_eq⟩
  | true =>
      cases t with
      | atom name =>
          have known : (table.find? name).isSome = true := lone
          refine ⟨.atom name, ?_, not_false, rfl, rfl⟩
          simpa [items, known] using isParse_atom known
      | _ => cases lone

theorem build_or_refusesPair (wf : table.WellFormed) (t : Term) :
    ∃ T : Tree, T.IsParse table (items table t) ∧ T.termUnder Operator.name = t ∧
      (Item.build table (items table t) = .ok (T.termUnder Operator.functor) ∨
        ∃ e, Item.build table (items table t) = .error e ∧
          RefusesPair table (items table t) e) := by
  obtain ⟨T, parse, tight, term_eq, eval_eq⟩ := exists_tight wf t
  refine ⟨T, parse, term_eq, ?_⟩
  rw [← eval_eq]
  exact build_of_tight wf parse tight

/-- If no operator is renamed, a parse is the same term under names and under functors. -/
theorem termUnder_functor (parse : T.IsParse table sequence)
    (unchanged : ∀ op ∈ table.operators, op.rename = none) :
    T.termUnder Operator.functor = T.termUnder Operator.name := by
  refine T.termUnder_congr fun fixity op member => ?_
  rw [Operator.functor, unchanged op (Table.mem_operators_of_isDefined (parse.isDefined _ member))]
  rfl

/-- If no operator renames or embeds anything and no pair is refused, the items of a term build
the term. -/
theorem build_items_of_plain (wf : table.WellFormed) (plain : table.Plain) (t : Term)
    (free : ∀ e, ¬ RefusesPair table (items table t) e) :
    Item.build table (items table t) = .ok t := by
  obtain ⟨T, parse, term_eq, built | ⟨e, -, refused⟩⟩ := build_or_refusesPair wf t
  · rw [built, termUnder_functor parse fun op listed => (plain op listed).1, term_eq]
  · exact absurd refused (free e)

/-- What is built from the items of a term is that term with the functors of its operators
in the place of their names, for the operators that are among the items and no others.  An
item is refused only if it makes a pair that can be read in two ways. -/
theorem build_layout (reachable : table.Reachable) (t : Term) :
    (∀ u, Item.build table (items table t) = .ok u →
      (∃ T : Tree, T.IsParse table (items table t) ∧ T.termUnder Operator.name = t ∧
        T.termUnder Operator.functor = u) ∧
      ((∀ op ∈ table.operators, op.rename = none) → u = t)) ∧
    ∀ e, Item.build table (items table t) = .error e → RefusesPair table (items table t) e := by
  obtain ⟨T, parse, term_eq, built | ⟨e, fails, refused⟩⟩ :=
    build_or_refusesPair reachable.wellFormed t
  · rw [built]
    refine ⟨?_, by simp⟩
    rintro u ⟨⟩
    refine ⟨⟨T, parse, term_eq, rfl⟩, fun unchanged => ?_⟩
    rw [termUnder_functor parse unchanged, term_eq]
  · rw [fails]
    refine ⟨by simp, ?_⟩
    rintro e' ⟨⟩
    exact refused

/-- The standard table with a renamed operator. -/
def ampersandTable : Table := Table.standard.insert ⟨"&", .xfy, 950, some "and", false⟩

theorem build_layout_ampersand :
    ∃ T : Tree, T.IsParse ampersandTable [.operand (.var "X"), .operator "&", .operator "-",
        .operand (.compound "&" [.var "Y"])] ∧
      T.termUnder Operator.name =
        .compound "&" [.var "X", .compound "-" [.compound "&" [.var "Y"]]] ∧
      T.termUnder Operator.functor =
        .compound "and" [.var "X", .compound "-" [.compound "&" [.var "Y"]]] := by
  have reachable : ampersandTable.Reachable :=
    .define ⟨"&", .xfy, 950, some "and", false⟩ .standard rfl
  have built : Item.build ampersandTable (items ampersandTable
        (.compound "&" [.var "X", .compound "-" [.compound "&" [.var "Y"]]])) =
      .ok (.compound "and" [.var "X", .compound "-" [.compound "&" [.var "Y"]]]) := rfl
  exact ((build_layout reachable _).1 _ built).1

/-! ## The layout of what is built -/

/-- The term is an atom that names an operator, or a compound whose functor names an
operator of as many arguments. -/
def IsOperatorTerm (table : Table) : Term → Prop
  | .atom name => (table.find? name).isSome = true
  | .compound functor args => Names table functor args
  | _ => False

theorem head?_of_not_isOperatorTerm (free : ¬ IsOperatorTerm table t) : head? table t = none := by
  cases t with
  | compound functor args =>
      cases form : form? table functor args with
      | none => exact form
      | some op => exact absurd (names_of_form? form) free
  | _ => rfl

/-- A term that is built from operands which are no operator terms, without taking an
operator for an atom, is laid out as the items it was built from. -/
theorem layout_of_build (reachable : table.Reachable) (plain : table.Plain)
    (operands : ∀ term, .operand term ∈ sequence → ¬ IsOperatorTerm table term)
    (working : ReadsNoAtom table sequence) (built : Item.build table sequence = .ok t) :
    items table t = sequence := by
  have wf := reachable.wellFormed
  obtain ⟨T, parse, eval_eq, tight, atom_not_mem⟩ := exists_tight_of_build wf built
  have free : ∀ term, .operand term ∈ T.parts → ¬ IsOperatorTerm table term := by
    intro term member
    refine operands term ?_
    rw [← parse.items_eq]
    exact List.mem_map_of_mem member
  have isLaid : ∀ p ∈ T.parts, IsLaid table p := by
    intro p member
    have isDefined := parse.isDefined p member
    cases p with
    | operand term => trivial
    | atom name => exact atom_not_mem working name member
    | operator fixity op =>
        exact ⟨isDefined, (plain op (Table.mem_operators_of_isDefined isDefined)).2⟩
  have layout : IsLayout table (T.termUnder Operator.name) T :=
    isLayout_termUnder wf plain parse.accepted tight isLaid
      fun term member => head?_of_not_isOperatorTerm (free term member)
  obtain rfl : T.termUnder Operator.name = t := by
    rw [← eval_eq, layout.eval_eq, termUnder_functor parse fun op member => (plain op member).1]
  have lone : isOperatorAtom table (T.termUnder Operator.name) = false := by
    cases T with
    | operand term =>
        have free := free term (by simp [Tree.parts])
        cases term with
        | atom name =>
            change (table.find? name).isSome = false
            simpa [IsOperatorTerm] using free
        | _ => rfl
    | atom name => exact absurd (by simp [Tree.parts]) (atom_not_mem working name)
    | _ => rfl
  rw [items_eq_flatten lone, ← layout.items_eq]
  exact parse.items_eq

theorem layout_of_build_difference :
    items .standard (.compound "-" [.compound "-" [.var "X", .compound "*" [.var "Y", .var "Z"]],
        .compound "-" [.compound "f" [.var "X"]]]) =
      [.operand (.var "X"), .operator "-", .operand (.var "Y"), .operator "*",
        .operand (.var "Z"), .operator "-", .operator "-",
        .operand (.compound "f" [.var "X"])] := by
  refine layout_of_build .standard Table.plain_standard ?_ ?_ rfl
  · intro term member
    simp only [List.mem_cons, Item.operand.injEq, reduceCtorEq, false_or, or_false,
      List.not_mem_nil] at member
    rcases member with rfl | rfl | rfl | rfl
    · exact id
    · exact id
    · exact id
    · rintro ⟨e, found, -⟩
      cases found
  · intro b token b' added received
    cases added
    cases received
    decide

end OperatorGrammar.Layout
