/-
# Proofs.Tree.Regrouping -- trees that can be grouped in another way

Between an operator that takes a right argument (`Leading`) and one to the right of
it that takes a left argument (`Trailing`) lies an operand that either may take first.
If the two are `Interchangeable`, both groupings are accepted when one of them is
(`accepted_regroup_right`, `accepted_regroup_left`).

A tree is `Loose` if an operator and the head of one of its arguments are such a pair.
A loose tree is not the only one of its parts: regrouping at that place gives a twin
(`exists_twin`).  The precedence of the head stays the same, and this is all that the
operators around a tree ask of it.
-/
import Mathlib.Tactic.Tauto
import OperatorGrammar.Proofs.Operator.Comparison
import OperatorGrammar.Tree.Basic

namespace OperatorGrammar

set_option autoImplicit false

/-- A part names the fixity that its operator has. -/
def Part.Placed : Part → Prop
  | .operator fixity op => op.fixity = fixity
  | _ => True

/-- Every operator of the tree has the fixity of its node. -/
def Tree.Placed : Tree → Prop
  | .operand _ | .atom _ => True
  | .prefixOp op arg => op.fixity = .prefixOp ∧ arg.Placed
  | .postfixOp op arg => op.fixity = .postfixOp ∧ arg.Placed
  | .infixOp op left right => op.fixity = .infixOp ∧ left.Placed ∧ right.Placed

theorem Tree.placed_iff (t : Tree) : t.Placed ↔ ∀ p ∈ t.parts, p.Placed := by
  induction t with
  | operand term => simp [Tree.Placed, parts, Part.Placed]
  | atom name => simp [Tree.Placed, parts, Part.Placed]
  | prefixOp op arg ih => rw [Tree.Placed, ih, parts, List.forall_mem_cons]; rfl
  | postfixOp op arg ih =>
      rw [Tree.Placed, ih, parts, List.forall_mem_append, List.forall_mem_singleton]
      exact and_comm
  | infixOp op left right ihLeft ihRight =>
      rw [Tree.Placed, ihLeft, ihRight, parts, List.forall_mem_append, List.forall_mem_cons]
      exact and_left_comm

/-- An operator without its left argument. -/
inductive Trailing where
  | infixOp (op : Operator) (right : Tree)
  | postfixOp (op : Operator)

namespace Trailing

def op : Trailing → Operator
  | .infixOp op _ | .postfixOp op => op

def parts : Trailing → List Part
  | .infixOp op right => .operator .infixOp op :: right.parts
  | .postfixOp op => [.operator .postfixOp op]

/-- The tree with its left argument. -/
def close : Trailing → Tree → Tree
  | .infixOp op right, left => .infixOp op left right
  | .postfixOp op, arg => .postfixOp op arg

/-- The operator accepts the right argument that it has. -/
def Accepted : Trailing → Prop
  | .infixOp op right => right.Accepted ∧ ∀ d ∈ right.head?, op.rightAccepts d = true
  | .postfixOp _ => True

@[simp] theorem head?_close (w : Trailing) (t : Tree) : (w.close t).head? = some w.op := by
  cases w <;> rfl

@[simp] theorem parts_close (w : Trailing) (t : Tree) : (w.close t).parts = t.parts ++ w.parts := by
  cases w <;> rfl

theorem accepted_close (w : Trailing) (t : Tree) :
    (w.close t).Accepted ↔
      t.Accepted ∧ w.Accepted ∧ ∀ d ∈ t.head?, w.op.leftAccepts d = true := by
  cases w <;> simp only [close, Tree.Accepted, Accepted, op] <;> tauto

end Trailing

/-- An operator without its right argument. -/
inductive Leading where
  | prefixOp (op : Operator)
  | infixOp (op : Operator) (left : Tree)

namespace Leading

def op : Leading → Operator
  | .prefixOp op | .infixOp op _ => op

def parts : Leading → List Part
  | .prefixOp op => [.operator .prefixOp op]
  | .infixOp op left => left.parts ++ [.operator .infixOp op]

/-- The tree with its right argument. -/
def close : Leading → Tree → Tree
  | .prefixOp op, arg => .prefixOp op arg
  | .infixOp op left, right => .infixOp op left right

/-- The operator accepts the left argument that it has. -/
def Accepted : Leading → Prop
  | .prefixOp _ => True
  | .infixOp op left => left.Accepted ∧ ∀ d ∈ left.head?, op.leftAccepts d = true

@[simp] theorem head?_close (l : Leading) (t : Tree) : (l.close t).head? = some l.op := by
  cases l <;> rfl

@[simp] theorem parts_close (l : Leading) (t : Tree) : (l.close t).parts = l.parts ++ t.parts := by
  cases l <;> simp [close, Tree.parts, parts]

theorem accepted_close (l : Leading) (t : Tree) :
    (l.close t).Accepted ↔
      t.Accepted ∧ l.Accepted ∧ ∀ d ∈ t.head?, l.op.rightAccepts d = true := by
  cases l <;> simp only [close, Tree.Accepted, Accepted, op] <;> tauto

end Leading

namespace Tree

open Operator

/-- A tree whose head is left-associative has a left argument. -/
theorem exists_trailing {t : Tree} {d : Operator} (placed : t.Placed)
    (heads : d ∈ t.head?) (takesLeft : d.spec.associativity = .left) :
    ∃ (w : Trailing) (arg : Tree), t = w.close arg ∧ w.op = d := by
  cases t with
  | operand term => cases heads
  | atom name => cases heads
  | prefixOp op arg =>
      cases heads
      exact absurd takesLeft (associativity_ne_left_of_prefixOp placed.1)
  | postfixOp op arg => cases heads; exact ⟨.postfixOp d, arg, rfl, rfl⟩
  | infixOp op left right => cases heads; exact ⟨.infixOp d right, left, rfl, rfl⟩

/-- A tree whose head is right-associative has a right argument. -/
theorem exists_leading {t : Tree} {d : Operator} (placed : t.Placed)
    (heads : d ∈ t.head?) (takesRight : d.spec.associativity = .right) :
    ∃ (l : Leading) (arg : Tree), t = l.close arg ∧ l.op = d := by
  cases t with
  | operand term => cases heads
  | atom name => cases heads
  | prefixOp op arg => cases heads; exact ⟨.prefixOp d, arg, rfl, rfl⟩
  | postfixOp op arg =>
      cases heads
      exact absurd takesRight (associativity_ne_right_of_postfixOp placed.1)
  | infixOp op left right => cases heads; exact ⟨.infixOp d left, right, rfl, rfl⟩

variable {l : Leading} {w : Trailing} {t : Tree}

/-- From the right argument of `l` to the left argument of `w`. -/
theorem accepted_regroup_left (accepted : (l.close (w.close t)).Accepted)
    (both : Interchangeable l.op w.op) : (w.close (l.close t)).Accepted := by
  rw [Leading.accepted_close, Trailing.accepted_close] at accepted
  obtain ⟨⟨inner, behind, accepts⟩, before, -⟩ := accepted
  rw [Trailing.accepted_close, Leading.accepted_close]
  refine ⟨⟨inner, before, fun d heads => ?_⟩, behind, fun d heads => ?_⟩
  · exact both.rightAccepts (prec_le_of_leftAccepts (accepts d heads))
  · rw [Leading.head?_close] at heads
    cases heads
    exact both.leftAccepts (Nat.le_refl _)

/-- From the left argument of `w` to the right argument of `l`. -/
theorem accepted_regroup_right (accepted : (w.close (l.close t)).Accepted)
    (both : Interchangeable l.op w.op) : (l.close (w.close t)).Accepted := by
  rw [Trailing.accepted_close, Leading.accepted_close] at accepted
  obtain ⟨⟨inner, before, accepts⟩, behind, -⟩ := accepted
  rw [Leading.accepted_close, Trailing.accepted_close]
  refine ⟨⟨inner, behind, fun d heads => ?_⟩, before, fun d heads => ?_⟩
  · exact both.leftAccepts (prec_le_of_rightAccepts (accepts d heads))
  · rw [Trailing.head?_close] at heads
    cases heads
    exact both.rightAccepts (Nat.le_refl _)

/-- An operator of the tree and the head of one of its arguments are interchangeable. -/
def Loose : Tree → Prop
  | .operand _ | .atom _ => False
  | .prefixOp op arg => arg.Loose ∨ ∃ d ∈ arg.head?, Interchangeable op d
  | .postfixOp op arg => arg.Loose ∨ ∃ d ∈ arg.head?, Interchangeable d op
  | .infixOp op left right =>
      left.Loose ∨ right.Loose ∨ (∃ d ∈ left.head?, Interchangeable d op) ∨
        ∃ d ∈ right.head?, Interchangeable op d

end Tree

/-- As `Tree.Loose`, for the right argument alone. -/
def Trailing.Loose : Trailing → Prop
  | .infixOp op right => right.Loose ∨ ∃ d ∈ right.head?, op.Interchangeable d
  | .postfixOp _ => False

theorem Trailing.loose_close (w : Trailing) (t : Tree) :
    (w.close t).Loose ↔ t.Loose ∨ w.Loose ∨ ∃ d ∈ t.head?, d.Interchangeable w.op := by
  cases w with
  | infixOp op right =>
      rw [close, Tree.Loose, Loose, or_assoc]
      exact or_congr_right (or_congr_right or_comm)
  | postfixOp op =>
      rw [close, Tree.Loose, Loose, false_or]
      rfl

/-- As `Tree.Loose`, for the left argument alone. -/
def Leading.Loose : Leading → Prop
  | .prefixOp _ => False
  | .infixOp op left => left.Loose ∨ ∃ d ∈ left.head?, d.Interchangeable op

theorem Leading.loose_close (l : Leading) (t : Tree) :
    (l.close t).Loose ↔ t.Loose ∨ l.Loose ∨ ∃ d ∈ t.head?, l.op.Interchangeable d := by
  cases l with
  | prefixOp op =>
      rw [close, Tree.Loose, Loose, false_or]
      rfl
  | infixOp op left =>
      rw [close, Tree.Loose, Loose, or_left_comm, or_assoc]
      rfl

namespace Tree

open Operator

variable {l : Leading} {w : Trailing} {t : Tree}

/-- Of all operators of an accepted tree the one at its head binds most loosely. -/
theorem exists_head_of_mem_parts {f : Fixity} {op : Operator} (accepted : t.Accepted)
    (member : .operator f op ∈ t.parts) : ∃ d ∈ t.head?, op.prec ≤ d.prec := by
  induction t with
  | operand term => simp [parts] at member
  | atom name => simp [parts] at member
  | prefixOp root arg ih =>
      refine ⟨root, rfl, ?_⟩
      rcases List.mem_cons.1 member with same | member
      · cases same; exact Nat.le_refl _
      · obtain ⟨d, heads, le⟩ := ih accepted.1 member
        exact Nat.le_trans le (prec_le_of_rightAccepts (accepted.2 d heads))
  | postfixOp root arg ih =>
      refine ⟨root, rfl, ?_⟩
      rcases List.mem_append.1 member with member | member
      · obtain ⟨d, heads, le⟩ := ih accepted.1 member
        exact Nat.le_trans le (prec_le_of_leftAccepts (accepted.2 d heads))
      · cases List.mem_singleton.1 member; exact Nat.le_refl _
  | infixOp root left right ihLeft ihRight =>
      refine ⟨root, rfl, ?_⟩
      obtain ⟨acceptedLeft, acceptedRight, acceptsLeft, acceptsRight⟩ := accepted
      rcases List.mem_append.1 member with member | member
      · obtain ⟨d, heads, le⟩ := ihLeft acceptedLeft member
        exact Nat.le_trans le (prec_le_of_leftAccepts (acceptsLeft d heads))
      · rcases List.mem_cons.1 member with same | member
        · cases same; exact Nat.le_refl _
        · obtain ⟨d, heads, le⟩ := ihRight acceptedRight member
          exact Nat.le_trans le (prec_le_of_rightAccepts (acceptsRight d heads))

/-- Another accepted tree of the same parts, whose head binds as tightly. -/
structure IsTwin (t u : Tree) : Prop where
  ne : u ≠ t
  parts_eq : u.parts = t.parts
  accepted : u.Accepted
  samePrec : ∀ d ∈ u.head?, ∃ e ∈ t.head?, d.prec = e.prec

theorem exists_twin_of_right {arg : Tree} {d : Operator} (accepted : (l.close arg).Accepted)
    (placed : arg.Placed) (heads : d ∈ arg.head?)
    (both : Interchangeable l.op d) : ∃ u, (l.close arg).IsTwin u := by
  obtain ⟨w, inner, rfl, rfl⟩ := exists_trailing placed heads both.takesLeft
  refine ⟨w.close (l.close inner), ?_, by simp, accepted_regroup_left accepted both, ?_⟩
  · intro same
    have heads := congrArg head? same
    simp only [Trailing.head?_close, Leading.head?_close, Option.some.injEq] at heads
    have right := both.takesRight
    rw [← heads, both.takesLeft] at right
    cases right
  · simpa using both.samePrec.symm

theorem exists_twin_of_left {arg : Tree} {d : Operator} (accepted : (w.close arg).Accepted)
    (placed : arg.Placed) (heads : d ∈ arg.head?)
    (both : Interchangeable d w.op) : ∃ u, (w.close arg).IsTwin u := by
  obtain ⟨l, inner, rfl, rfl⟩ := exists_leading placed heads both.takesRight
  refine ⟨l.close (w.close inner), ?_, by simp, accepted_regroup_right accepted both, ?_⟩
  · intro same
    have heads := congrArg head? same
    simp only [Trailing.head?_close, Leading.head?_close, Option.some.injEq] at heads
    have right := both.takesRight
    rw [heads, both.takesLeft] at right
    cases right
  · simpa using both.samePrec

/-- A twin of a right argument gives a twin of the whole. -/
theorem IsTwin.close_leading {arg u : Tree} (twin : arg.IsTwin u)
    (accepted : (l.close arg).Accepted) : (l.close arg).IsTwin (l.close u) := by
  rw [Leading.accepted_close] at accepted
  obtain ⟨-, before, accepts⟩ := accepted
  refine ⟨fun same => ?_, by simp [twin.parts_eq], ?_, by simp⟩
  · cases l <;> simp only [Leading.close, prefixOp.injEq, infixOp.injEq, true_and] at same <;>
      exact twin.ne same
  · refine (Leading.accepted_close l u).2 ⟨twin.accepted, before, fun d heads => ?_⟩
    obtain ⟨e, heads', samePrec⟩ := twin.samePrec d heads
    exact rightAccepts_of_le (accepts e heads') (Nat.le_of_eq samePrec)

/-- A twin of a left argument gives a twin of the whole. -/
theorem IsTwin.close_trailing {arg u : Tree} (twin : arg.IsTwin u)
    (accepted : (w.close arg).Accepted) : (w.close arg).IsTwin (w.close u) := by
  rw [Trailing.accepted_close] at accepted
  obtain ⟨-, behind, accepts⟩ := accepted
  refine ⟨fun same => ?_, by simp [twin.parts_eq], ?_, by simp⟩
  · cases w <;> simp only [Trailing.close, postfixOp.injEq, infixOp.injEq, true_and,
      and_true] at same <;> exact twin.ne same
  · refine (Trailing.accepted_close w u).2 ⟨twin.accepted, behind, fun d heads => ?_⟩
    obtain ⟨e, heads', samePrec⟩ := twin.samePrec d heads
    exact leftAccepts_of_le (accepts e heads') (Nat.le_of_eq samePrec)

theorem exists_twin {t : Tree} (accepted : t.Accepted) (placed : t.Placed)
    (loose : t.Loose) : ∃ u, t.IsTwin u := by
  induction t with
  | operand term => cases loose
  | atom name => cases loose
  | prefixOp op arg ih =>
      rcases loose with inner | ⟨d, heads, both⟩
      · obtain ⟨u, twin⟩ := ih accepted.1 placed.2 inner
        exact ⟨_, twin.close_leading (l := .prefixOp op) accepted⟩
      · exact exists_twin_of_right (l := .prefixOp op) accepted placed.2 heads both
  | postfixOp op arg ih =>
      rcases loose with inner | ⟨d, heads, both⟩
      · obtain ⟨u, twin⟩ := ih accepted.1 placed.2 inner
        exact ⟨_, twin.close_trailing (w := .postfixOp op) accepted⟩
      · exact exists_twin_of_left (w := .postfixOp op) accepted placed.2 heads both
  | infixOp op left right ihLeft ihRight =>
      rcases loose with inner | inner | ⟨d, heads, both⟩ | ⟨d, heads, both⟩
      · obtain ⟨u, twin⟩ := ihLeft accepted.1 placed.2.1 inner
        exact ⟨_, twin.close_trailing (w := .infixOp op right) accepted⟩
      · obtain ⟨u, twin⟩ := ihRight accepted.2.1 placed.2.2 inner
        exact ⟨_, twin.close_leading (l := .infixOp op left) accepted⟩
      · exact exists_twin_of_left (w := .infixOp op right) accepted placed.2.1 heads both
      · exact exists_twin_of_right (l := .infixOp op left) accepted placed.2.2 heads both

end Tree

end OperatorGrammar
