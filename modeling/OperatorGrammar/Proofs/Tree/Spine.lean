/-
# Proofs.Tree.Spine -- trees along their left edge

From its leftmost leaf, or from the prefix operator it starts with, a tree is built by
giving one operator after the other its left argument.  `lead` is where this starts and
`spine` lists the operators, each with its right argument: `closeAll_spine` puts the
tree together again.

The prefix order of a tree lists the operators of the spine backwards, then the lead,
then the right arguments (`prefixOrder_closeAll`).  Prefix order and parts together
determine a tree (`eq_of_prefixOrder`), and reading prefix order from its right end
evaluates it (`assemble_prefixOrder`).
-/
import OperatorGrammar.Builder.Assembly
import OperatorGrammar.Proofs.Tree.Regrouping

namespace OperatorGrammar

set_option autoImplicit false

/-- What a part is for the reduction. -/
def Part.symbol : Part → Symbol
  | .operand term => .leaf term
  | .atom name => .leaf (.atom name)
  | .operator _ op => .operator op

namespace Tree

/-- The symbols of a tree, every operator in front of its arguments. -/
def prefixOrder : Tree → List Symbol
  | .operand term => [.leaf term]
  | .atom name => [.leaf (.atom name)]
  | .prefixOp op arg | .postfixOp op arg => .operator op :: arg.prefixOrder
  | .infixOp op left right => .operator op :: (left.prefixOrder ++ right.prefixOrder)

/-- The leaf or prefix tree at the left end. -/
def lead : Tree → Tree
  | .postfixOp _ arg => arg.lead
  | .infixOp _ left _ => left.lead
  | t => t

/-- The operators whose left argument starts with the lead, from the inside out. -/
def spine : Tree → List Trailing
  | .postfixOp op arg => arg.spine ++ [.postfixOp op]
  | .infixOp op left right => left.spine ++ [.infixOp op right]
  | _ => []

end Tree

namespace Trailing

/-- The symbols of the right argument. -/
def argument : Trailing → List Symbol
  | .infixOp _ right => right.prefixOrder
  | .postfixOp _ => []

/-- Gives each operator in turn what is built so far as its left argument. -/
def closeAll (ws : List Trailing) (t : Tree) : Tree := ws.foldl (fun t w => w.close t) t

@[simp] theorem closeAll_nil (t : Tree) : closeAll [] t = t := rfl

@[simp] theorem closeAll_cons (w : Trailing) (ws : List Trailing) (t : Tree) :
    closeAll (w :: ws) t = closeAll ws (w.close t) := rfl

theorem prefixOrder_close (w : Trailing) (t : Tree) :
    (w.close t).prefixOrder = .operator w.op :: (t.prefixOrder ++ w.argument) := by
  cases w <;> simp [close, Tree.prefixOrder, op, argument]

theorem parts_closeAll (ws : List Trailing) (t : Tree) :
    (closeAll ws t).parts = t.parts ++ ws.flatMap parts := by
  induction ws generalizing t with
  | nil => simp
  | cons w ws ih => simp [ih]

theorem prefixOrder_closeAll (ws : List Trailing) (t : Tree) :
    (closeAll ws t).prefixOrder =
      (ws.map fun w => Symbol.operator w.op).reverse ++
        (t.prefixOrder ++ ws.flatMap argument) := by
  induction ws generalizing t with
  | nil => simp
  | cons w ws ih => simp [ih, prefixOrder_close]

theorem head?_closeAll_append (ws : List Trailing) (w : Trailing) (t : Tree) :
    (closeAll (ws ++ [w]) t).head? = some w.op := by
  simp [closeAll]

end Trailing

namespace Tree

open Trailing

theorem closeAll_spine (t : Tree) : closeAll t.spine t.lead = t := by
  induction t with
  | postfixOp op arg ih =>
      unfold closeAll at ih
      simp only [spine, lead, closeAll, List.foldl_append, ih]
      rfl
  | infixOp op left right ih _ =>
      unfold closeAll at ih
      simp only [spine, lead, closeAll, List.foldl_append, ih]
      rfl
  | _ => rfl

/-- The head of an accepted tree accepts every other operator of the spine. -/
theorem exists_head_of_mem_spine {t : Tree} {w : Trailing} (accepted : t.Accepted)
    (member : w ∈ t.spine) : ∃ d ∈ t.head?, w.op = d ∨ d.leftAccepts w.op = true := by
  have outer : ∀ {op : Operator} {arg : Tree}, (∀ d ∈ arg.head?, op.leftAccepts d = true) →
      (∃ d ∈ arg.head?, w.op = d ∨ d.leftAccepts w.op = true) → op.leftAccepts w.op = true := by
    rintro op arg accepts ⟨d, heads, rfl | inner⟩
    · exact accepts w.op heads
    · exact Operator.leftAccepts_of_le (accepts d heads) (Operator.prec_le_of_leftAccepts inner)
  induction t with
  | operand term => cases member
  | atom name => cases member
  | prefixOp op arg _ => cases member
  | postfixOp op arg ih =>
      refine ⟨op, rfl, ?_⟩
      rcases List.mem_append.1 member with inner | last
      · exact Or.inr (outer accepted.2 (ih accepted.1 inner))
      · rw [List.mem_singleton.1 last]
        exact Or.inl rfl
  | infixOp op left right ih _ =>
      refine ⟨op, rfl, ?_⟩
      rcases List.mem_append.1 member with inner | last
      · exact Or.inr (outer accepted.2.2.1 (ih accepted.1 inner))
      · rw [List.mem_singleton.1 last]
        exact Or.inl rfl

/-! ## Prefix order -/

theorem length_prefixOrder (t : Tree) : t.prefixOrder.length = t.parts.length := by
  induction t with
  | operand term => rfl
  | atom name => rfl
  | prefixOp op arg ih => simp [prefixOrder, parts, ih]
  | postfixOp op arg ih => simp [prefixOrder, parts, ih]
  | infixOp op left right ihLeft ihRight =>
      simp only [prefixOrder, parts, List.length_cons, List.length_append, ihLeft, ihRight]
      omega

/-- The fixity of the node at the root. -/
def fixity? : Tree → Option Fixity
  | .operand _ | .atom _ => none
  | .prefixOp _ _ => some .prefixOp
  | .postfixOp _ _ => some .postfixOp
  | .infixOp _ _ _ => some .infixOp

theorem fixity?_eq_of_prefixOrder {t u : Tree} {behind behind' : List Symbol}
    (placed : t.Placed) (placed' : u.Placed)
    (same : t.prefixOrder ++ behind = u.prefixOrder ++ behind') : t.fixity? = u.fixity? := by
  cases t <;> cases u <;> simp_all [prefixOrder, fixity?, Placed]

/-- No prefix order continues another one: how many arguments follow an operator is
said by its fixity. -/
theorem prefixOrder_append_inj {t u : Tree} {behind behind' : List Symbol}
    (placed : t.Placed) (placed' : u.Placed)
    (same : t.prefixOrder ++ behind = u.prefixOrder ++ behind') :
    t.prefixOrder = u.prefixOrder ∧ behind = behind' := by
  induction t generalizing u behind behind' with
  | operand term => cases u <;> simp_all [prefixOrder]
  | atom name => cases u <;> simp_all [prefixOrder]
  | prefixOp op arg ih =>
      cases u with
      | prefixOp op' arg' =>
          simp only [prefixOrder, List.cons_append, List.cons.injEq] at same ⊢
          obtain ⟨arguments, rest⟩ := ih placed.2 placed'.2 same.2
          exact ⟨⟨same.1, arguments⟩, rest⟩
      | _ => exact absurd (fixity?_eq_of_prefixOrder placed placed' same) (by simp [fixity?])
  | postfixOp op arg ih =>
      cases u with
      | postfixOp op' arg' =>
          simp only [prefixOrder, List.cons_append, List.cons.injEq] at same ⊢
          obtain ⟨arguments, rest⟩ := ih placed.2 placed'.2 same.2
          exact ⟨⟨same.1, arguments⟩, rest⟩
      | _ => exact absurd (fixity?_eq_of_prefixOrder placed placed' same) (by simp [fixity?])
  | infixOp op left right ihLeft ihRight =>
      cases u with
      | infixOp op' left' right' =>
          simp only [prefixOrder, List.cons_append, List.append_assoc, List.cons.injEq] at same ⊢
          obtain ⟨before, rest⟩ := ihLeft placed.2.1 placed'.2.1 same.2
          obtain ⟨behind, rest⟩ := ihRight placed.2.2 placed'.2.2 rest
          exact ⟨⟨same.1, by rw [before, behind]⟩, rest⟩
      | _ => exact absurd (fixity?_eq_of_prefixOrder placed placed' same) (by simp [fixity?])

/-- The parts tell leaves apart that have the same symbol. -/
theorem eq_of_prefixOrder {t u : Tree} (placed : t.Placed) (placed' : u.Placed)
    (order : t.prefixOrder = u.prefixOrder) (same : t.parts = u.parts) : t = u := by
  have roots : ∀ {t u : Tree}, t.Placed → u.Placed → t.prefixOrder = u.prefixOrder →
      t.fixity? = u.fixity? := fun placed placed' order =>
    fixity?_eq_of_prefixOrder placed placed' (congrArg (· ++ []) order)
  induction t generalizing u with
  | operand term => cases u <;> simp_all [prefixOrder, parts]
  | atom name => cases u <;> simp_all [prefixOrder, parts]
  | prefixOp op arg ih =>
      cases u with
      | prefixOp op' arg' =>
          simp only [prefixOrder, parts, List.cons.injEq, Symbol.operator.injEq] at order same
          rw [order.1, ih placed.2 placed'.2 order.2 same.2]
      | _ => exact absurd (roots placed placed' order) (by simp [fixity?])
  | postfixOp op arg ih =>
      cases u with
      | postfixOp op' arg' =>
          simp only [prefixOrder, parts, List.cons.injEq, Symbol.operator.injEq] at order same
          rw [order.1, ih placed.2 placed'.2 order.2 (List.append_inj_left' same rfl)]
      | _ => exact absurd (roots placed placed' order) (by simp [fixity?])
  | infixOp op left right ihLeft ihRight =>
      cases u with
      | infixOp op' left' right' =>
          simp only [prefixOrder, parts, List.cons.injEq, Symbol.operator.injEq] at order same
          obtain ⟨before, behind⟩ := prefixOrder_append_inj placed.2.1 placed'.2.1 order.2
          have sizes : left.parts.length = left'.parts.length := by
            rw [← length_prefixOrder, ← length_prefixOrder, before]
          obtain ⟨partsLeft, rest⟩ := List.append_inj same sizes
          have partsRight : right.parts = right'.parts := (List.cons.inj rest).2
          rw [order.1, ihLeft placed.2.1 placed'.2.1 before partsLeft,
            ihRight placed.2.2 placed'.2.2 behind partsRight]
      | _ => exact absurd (roots placed placed' order) (by simp [fixity?])

/-- Prefix order in front of other symbols adds the tree's term to theirs. -/
theorem buildAll_prefixOrder_append {t : Tree} (placed : t.Placed) {rest : List Symbol}
    {terms : List Term} (built : Symbol.buildAll rest = .ok terms) :
    Symbol.buildAll (t.prefixOrder ++ rest) = .ok (t.eval :: terms) := by
  induction t generalizing rest terms with
  | operand term =>
      simp [prefixOrder, Symbol.buildAll, built, bind, Except.bind, Symbol.build, eval]
  | atom name =>
      simp [prefixOrder, Symbol.buildAll, built, bind, Except.bind, Symbol.build, eval]
  | prefixOp op arg ih =>
      simp [prefixOrder, Symbol.buildAll, ih placed.2 built, bind, Except.bind, Symbol.build,
        placed.1, eval]
  | postfixOp op arg ih =>
      simp [prefixOrder, Symbol.buildAll, ih placed.2 built, bind, Except.bind, Symbol.build,
        placed.1, eval]
  | infixOp op left right ihLeft ihRight =>
      have arguments := ihLeft placed.2.1 (ihRight placed.2.2 built)
      simp [prefixOrder, Symbol.buildAll, arguments, bind, Except.bind, Symbol.build, placed.1,
        eval]

theorem assemble_prefixOrder {t : Tree} (placed : t.Placed) :
    Symbol.assemble t.prefixOrder = .ok t.eval := by
  have built : Symbol.buildAll (t.prefixOrder ++ []) = .ok [t.eval] :=
    buildAll_prefixOrder_append placed rfl
  rw [List.append_nil] at built
  simp [Symbol.assemble, built, bind, Except.bind]

end Tree

end OperatorGrammar
