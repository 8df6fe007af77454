/-
# Proofs.Layout.Tree -- the tree of a layout

The items of a term are those of a tree whose operators are the operator items
(`exists_isLayout`): under the names of its operators (`Tree.termUnder`), the tree is the
term again.  An argument stands in place exactly if its parent accepts it and the two are
not interchangeable (`fits_left_iff`, `fits_right_iff`), so the tree is accepted and tight.

Conversely, in a table without renaming and embedding, every such tree whose operands have
no form is the layout of its term (`isLayout_termUnder`).
-/
import OperatorGrammar.Proofs.Layout.Form
import OperatorGrammar.Proofs.Sequence.Standing
import OperatorGrammar.Proofs.Tree.Regrouping

namespace OperatorGrammar

set_option autoImplicit false

/-- The functor of the terms that an operator builds. -/
def Operator.functor (op : Operator) : String := op.rename.getD op.name

namespace Tree

/-- The term that a tree stands for if its operators have the given functors. -/
def termUnder (functor : Operator → String) : Tree → Term
  | .operand term => term
  | .atom name => .atom name
  | .prefixOp op arg | .postfixOp op arg => .compound (functor op) [arg.termUnder functor]
  | .infixOp op left right =>
      .compound (functor op) [left.termUnder functor, right.termUnder functor]

theorem termUnder_congr {f g : Operator → String} (t : Tree)
    (same : ∀ fixity op, .operator fixity op ∈ t.parts → f op = g op) :
    t.termUnder f = t.termUnder g := by
  induction t with
  | operand term => rfl
  | atom name => rfl
  | prefixOp op arg ih =>
      have inner := ih fun fixity op member => same fixity op (by simp [parts, member])
      simp [termUnder, inner, same .prefixOp op (by simp [parts])]
  | postfixOp op arg ih =>
      have inner := ih fun fixity op member => same fixity op (by simp [parts, member])
      simp [termUnder, inner, same .postfixOp op (by simp [parts])]
  | infixOp op left right ihLeft ihRight =>
      have before := ihLeft fun fixity op member => same fixity op (by simp [parts, member])
      have behind := ihRight fun fixity op member => same fixity op (by simp [parts, member])
      simp [termUnder, before, behind, same .infixOp op (by simp [parts])]

/-- Operators that do not embed their fixity build terms under their functors. -/
theorem eval_eq_termUnder (t : Tree)
    (unembedded : ∀ fixity op, .operator fixity op ∈ t.parts → op.embed = false) :
    t.eval = t.termUnder Operator.functor := by
  induction t with
  | operand term => rfl
  | atom name => rfl
  | prefixOp op arg ih =>
      have inner := ih fun fixity op member => unembedded fixity op (by simp [parts, member])
      simp [eval, termUnder, Operator.apply, Operator.functor, Term.application, inner,
        unembedded .prefixOp op (by simp [parts])]
  | postfixOp op arg ih =>
      have inner := ih fun fixity op member => unembedded fixity op (by simp [parts, member])
      simp [eval, termUnder, Operator.apply, Operator.functor, Term.application, inner,
        unembedded .postfixOp op (by simp [parts])]
  | infixOp op left right ihLeft ihRight =>
      have before := ihLeft fun fixity op member => unembedded fixity op (by simp [parts, member])
      have behind := ihRight fun fixity op member => unembedded fixity op (by simp [parts, member])
      simp [eval, termUnder, Operator.apply, Operator.functor, Term.application, before, behind,
        unembedded .infixOp op (by simp [parts])]

end Tree

namespace Layout

open Operator

variable {table : Table} {parent child op : Operator} {side : Side} {t arg : Term} {T : Tree}
  {items items' : List Item}

/-- A left argument stands in place if it is accepted there and could not take the parent
in instead. -/
theorem fits_left_iff :
    fits parent .left child = true ↔
      parent.leftAccepts child = true ∧ ¬ Interchangeable child parent := by
  simp only [fits, Bool.and_eq_true, Bool.or_eq_true, decide_eq_true_eq]
  refine and_congr_right fun accepts => ?_
  constructor
  · rintro ((less | postfixed) | nested) both
    · exact absurd both.samePrec (Nat.ne_of_lt less)
    · exact associativity_ne_right_of_postfixOp postfixed both.takesRight
    · simp [tie, both.takesLeft, both.takesRight] at nested
  · intro apart
    rcases (leftAccepts_iff parent child).1 accepts with less | ⟨same, left⟩
    · exact Or.inl (Or.inl less)
    · by_cases right : child.spec.associativity = .right
      · exact absurd ⟨same, right, left⟩ apart
      · exact Or.inr (by simp [tie, left, right])

/-- A right argument stands in place if it is accepted there and could not take the parent
in instead. -/
theorem fits_right_iff :
    fits parent .right child = true ↔
      parent.rightAccepts child = true ∧ ¬ Interchangeable parent child := by
  simp only [fits, Bool.and_eq_true, Bool.or_eq_true, decide_eq_true_eq]
  refine and_congr_right fun accepts => ?_
  constructor
  · rintro ((less | prefixed) | nested) both
    · exact absurd both.samePrec.symm (Nat.ne_of_lt less)
    · exact associativity_ne_left_of_prefixOp prefixed both.takesLeft
    · simp [tie, both.takesLeft, both.takesRight] at nested
  · intro apart
    rcases (rightAccepts_iff parent child).1 accepts with less | ⟨same, right⟩
    · exact Or.inl (Or.inl less)
    · by_cases left : child.spec.associativity = .left
      · exact absurd ⟨same.symm, right, left⟩ apart
      · exact Or.inr (by simp [tie, left, right])

/-! ## From a term to its tree -/

/-- A part of a layout: no atom, and an operator of the table that does not embed its
fixity. -/
def IsLaid (table : Table) : Part → Prop
  | .operand _ => True
  | .atom _ => False
  | .operator fixity op => (Part.operator fixity op).IsDefined table ∧ op.embed = false

/-- The tree lists the items, and it is the only one of its parts that is accepted. -/
structure Lays (table : Table) (items : List Item) (t : Term) (T : Tree) : Prop where
  items_eq : T.items = items
  term_eq : T.termUnder Operator.name = t
  accepted : T.Accepted
  tight : ¬ T.Loose
  isLaid : ∀ p ∈ T.parts, IsLaid table p

theorem lays_operand (table : Table) (t : Term) : Lays table [.operand t] t (.operand t) where
  items_eq := rfl
  term_eq := rfl
  accepted := trivial
  tight := not_false
  isLaid := by simp [Tree.parts, IsLaid]

theorem Lays.prefixOp (lays : Lays table items arg T)
    (laid : IsLaid table (.operator .prefixOp op))
    (fitting : ∀ d ∈ T.head?, fits op .right d = true) :
    Lays table (.operator op.name :: items) (.compound op.name [arg]) (.prefixOp op T) where
  items_eq := by rw [← lays.items_eq]; rfl
  term_eq := by rw [Tree.termUnder, lays.term_eq]
  accepted := ⟨lays.accepted, fun d heads => (fits_right_iff.1 (fitting d heads)).1⟩
  tight := by
    rintro (inner | ⟨d, heads, both⟩)
    · exact lays.tight inner
    · exact (fits_right_iff.1 (fitting d heads)).2 both
  isLaid := List.forall_mem_cons.2 ⟨laid, lays.isLaid⟩

theorem Lays.postfixOp (lays : Lays table items arg T)
    (laid : IsLaid table (.operator .postfixOp op))
    (fitting : ∀ d ∈ T.head?, fits op .left d = true) :
    Lays table (items ++ [.operator op.name]) (.compound op.name [arg]) (.postfixOp op T) where
  items_eq := by
    rw [← lays.items_eq, Tree.items, Tree.parts, List.map_append]
    rfl
  term_eq := by rw [Tree.termUnder, lays.term_eq]
  accepted := ⟨lays.accepted, fun d heads => (fits_left_iff.1 (fitting d heads)).1⟩
  tight := by
    rintro (inner | ⟨d, heads, both⟩)
    · exact lays.tight inner
    · exact (fits_left_iff.1 (fitting d heads)).2 both
  isLaid := List.forall_mem_append.2 ⟨lays.isLaid, by simpa using laid⟩

theorem Lays.infixOp {left right : Term} {L R : Tree} (before : Lays table items left L)
    (behind : Lays table items' right R) (laid : IsLaid table (.operator .infixOp op))
    (fittingLeft : ∀ d ∈ L.head?, fits op .left d = true)
    (fittingRight : ∀ d ∈ R.head?, fits op .right d = true) :
    Lays table (items ++ .operator op.name :: items') (.compound op.name [left, right])
      (.infixOp op L R) where
  items_eq := by
    rw [← before.items_eq, ← behind.items_eq, Tree.items, Tree.parts, List.map_append]
    rfl
  term_eq := by rw [Tree.termUnder, before.term_eq, behind.term_eq]
  accepted := ⟨before.accepted, behind.accepted,
    fun d heads => (fits_left_iff.1 (fittingLeft d heads)).1,
    fun d heads => (fits_right_iff.1 (fittingRight d heads)).1⟩
  tight := by
    rintro (inner | inner | ⟨d, heads, both⟩ | ⟨d, heads, both⟩)
    · exact before.tight inner
    · exact behind.tight inner
    · exact (fits_left_iff.1 (fittingLeft d heads)).2 both
    · exact (fits_right_iff.1 (fittingRight d heads)).2 both
  isLaid := List.forall_mem_append.2
    ⟨before.isLaid, List.forall_mem_cons.2 ⟨laid, behind.isLaid⟩⟩

/-- The tree of a term, headed by the operator that lays the term out. -/
structure IsLayout (table : Table) (t : Term) (T : Tree) : Prop
    extends Lays table (flatten table t) t T where
  head_eq : T.head? = head? table t

theorem isLayout_operand (noForm : head? table t = none) : IsLayout table t (.operand t) where
  toLays := by
    rw [flatten_of_head? noForm]
    exact lays_operand table t
  head_eq := noForm.symm

/-- An argument stands in place and fits there, or it is an operand. -/
theorem IsLayout.exists_argument (layout : IsLayout table arg T) (parent : Operator) (side : Side) :
    ∃ U, Lays table (argumentItems table parent side arg (flatten table arg)) arg U ∧
      ∀ d ∈ U.head?, fits parent side d = true := by
  unfold argumentItems
  split
  · rename_i child headed
    split
    · rename_i inPlace
      refine ⟨T, layout.toLays, ?_⟩
      rw [layout.head_eq, headed]
      rintro d ⟨⟩
      exact inPlace
    · exact ⟨_, lays_operand table arg, by simp [Tree.head?]⟩
  · exact ⟨_, lays_operand table arg, by simp [Tree.head?]⟩

theorem exists_isLayout (wf : table.WellFormed) (t : Term) : ∃ T, IsLayout table t T := by
  induction t using Term.induct with
  | leaf t simple =>
      refine ⟨_, isLayout_operand ?_⟩
      cases t with
      | compound functor args => exact absurd rfl (simple functor args)
      | _ => rfl
  | compound functor args ih =>
      cases form : form? table functor args with
      | none => exact ⟨_, isLayout_operand form⟩
      | some op =>
          obtain ⟨rfl, unembedded, hasForm⟩ := hasForm_of_form? wf form
          cases hasForm with
          | @prefixOp arg fixity isDefined =>
              obtain ⟨T, layout⟩ := ih arg (by simp)
              obtain ⟨U, lays, fitting⟩ := layout.exists_argument op .right
              refine ⟨.prefixOp op U, ?_, form.symm⟩
              rw [flatten_prefixOp form fixity]
              exact lays.prefixOp ⟨isDefined, unembedded⟩ fitting
          | @postfixOp arg fixity isDefined =>
              obtain ⟨T, layout⟩ := ih arg (by simp)
              obtain ⟨U, lays, fitting⟩ := layout.exists_argument op .left
              refine ⟨.postfixOp op U, ?_, form.symm⟩
              rw [flatten_postfixOp form fixity]
              exact lays.postfixOp ⟨isDefined, unembedded⟩ fitting
          | @infixOp left right fixity isDefined =>
              obtain ⟨L, layoutLeft⟩ := ih left (by simp)
              obtain ⟨R, layoutRight⟩ := ih right (by simp)
              obtain ⟨U, before, fittingLeft⟩ := layoutLeft.exists_argument op .left
              obtain ⟨V, behind, fittingRight⟩ := layoutRight.exists_argument op .right
              refine ⟨.infixOp op U V, ?_, form.symm⟩
              rw [flatten_infixOp form]
              exact before.infixOp behind ⟨isDefined, unembedded⟩ fittingLeft fittingRight

/-! ## From a tree to its term -/

theorem argumentItems_of_fits (fitting : ∀ d ∈ head? table arg, fits parent side d = true) :
    argumentItems table parent side arg (flatten table arg) = flatten table arg := by
  unfold argumentItems
  cases headed : head? table arg with
  | none => rw [flatten_of_head? headed]
  | some child => simp [fitting child headed]

/-- A tight tree whose operands have no form is the layout of its term. -/
theorem isLayout_termUnder (wf : table.WellFormed) (plain : table.Plain) (accepted : T.Accepted)
    (tight : ¬ T.Loose) (isLaid : ∀ p ∈ T.parts, IsLaid table p)
    (operands : ∀ term, .operand term ∈ T.parts → head? table term = none) :
    IsLayout table (T.termUnder Operator.name) T := by
  suffices laid : T.items = flatten table (T.termUnder Operator.name) ∧
      T.head? = head? table (T.termUnder Operator.name) from
    { items_eq := laid.1, term_eq := rfl, accepted, tight, isLaid, head_eq := laid.2 }
  induction T with
  | operand term =>
      have noForm := operands term (by simp [Tree.parts])
      exact ⟨(flatten_of_head? noForm).symm, noForm.symm⟩
  | atom name => exact (isLaid (.atom name) (by simp [Tree.parts])).elim
  | prefixOp op arg ih =>
      obtain ⟨laid, isLaid⟩ := List.forall_mem_cons.1 isLaid
      obtain ⟨items_eq, head_eq⟩ := ih accepted.1 (fun loose => tight (Or.inl loose)) isLaid
        fun term member => operands term (by simp [Tree.parts, member])
      have form : form? table op.name [arg.termUnder Operator.name] = some op :=
        form?_of_isDefined wf plain laid.1 rfl
      have fitting : ∀ d ∈ head? table (arg.termUnder Operator.name), fits op .right d = true := by
        rw [← head_eq]
        exact fun d heads => fits_right_iff.2
          ⟨accepted.2 d heads, fun both => tight (Or.inr ⟨d, heads, both⟩)⟩
      refine ⟨?_, form.symm⟩
      rw [Tree.termUnder, flatten_prefixOp form (Token.placed_of_isDefined wf laid.1),
        argumentItems_of_fits fitting, ← items_eq]
      rfl
  | postfixOp op arg ih =>
      obtain ⟨isLaid, laid⟩ := List.forall_mem_append.1 isLaid
      have laid : IsLaid table (.operator .postfixOp op) := by simpa using laid
      obtain ⟨items_eq, head_eq⟩ := ih accepted.1 (fun loose => tight (Or.inl loose)) isLaid
        fun term member => operands term (by simp [Tree.parts, member])
      have form : form? table op.name [arg.termUnder Operator.name] = some op :=
        form?_of_isDefined wf plain laid.1 rfl
      have fitting : ∀ d ∈ head? table (arg.termUnder Operator.name), fits op .left d = true := by
        rw [← head_eq]
        exact fun d heads => fits_left_iff.2
          ⟨accepted.2 d heads, fun both => tight (Or.inr ⟨d, heads, both⟩)⟩
      refine ⟨?_, form.symm⟩
      rw [Tree.termUnder, flatten_postfixOp form (Token.placed_of_isDefined wf laid.1),
        argumentItems_of_fits fitting, ← items_eq, Tree.items, Tree.parts, List.map_append]
      rfl
  | infixOp op left right ihLeft ihRight =>
      obtain ⟨isLaidLeft, rest⟩ := List.forall_mem_append.1 isLaid
      obtain ⟨laid, isLaidRight⟩ := List.forall_mem_cons.1 rest
      obtain ⟨itemsLeft, headLeft⟩ := ihLeft accepted.1 (fun loose => tight (Or.inl loose))
        isLaidLeft fun term member => operands term (by simp [Tree.parts, member])
      obtain ⟨itemsRight, headRight⟩ := ihRight accepted.2.1
        (fun loose => tight (Or.inr (Or.inl loose))) isLaidRight
        fun term member => operands term (by simp [Tree.parts, member])
      have form : form? table op.name
          [left.termUnder Operator.name, right.termUnder Operator.name] = some op :=
        form?_of_isDefined wf plain laid.1 rfl
      have fittingLeft :
          ∀ d ∈ head? table (left.termUnder Operator.name), fits op .left d = true := by
        rw [← headLeft]
        exact fun d heads => fits_left_iff.2
          ⟨accepted.2.2.1 d heads, fun both => tight (Or.inr (Or.inr (Or.inl ⟨d, heads, both⟩)))⟩
      have fittingRight :
          ∀ d ∈ head? table (right.termUnder Operator.name), fits op .right d = true := by
        rw [← headRight]
        exact fun d heads => fits_right_iff.2
          ⟨accepted.2.2.2 d heads, fun both => tight (Or.inr (Or.inr (Or.inr ⟨d, heads, both⟩)))⟩
      refine ⟨?_, form.symm⟩
      rw [Tree.termUnder, flatten_infixOp form, argumentItems_of_fits fittingLeft,
        argumentItems_of_fits fittingRight, ← itemsLeft, ← itemsRight, Tree.items, Tree.parts,
        List.map_append]
      rfl

end Layout

end OperatorGrammar
