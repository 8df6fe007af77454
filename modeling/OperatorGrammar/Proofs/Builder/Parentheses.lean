/-
# Proofs.Builder.Parentheses -- redundant parentheses

What stands around a subtree is its context (`Context`).  Of the operators of the subtree
the context sees the head alone, so an operand in its place is accepted, adds no loose pair,
and stands for the same term (`accepted_fill`, `not_loose_fill`, `eval_fill_operand`).

The parse of what was built is tight, and therefore so is the parse with the operand.  The
items are still built then, and the result is the same term (`build_parenthesized`).
-/
import OperatorGrammar.Proofs.Builder.Tightness

namespace OperatorGrammar

set_option autoImplicit false

/-- A tree with a hole for a subtree: the operators around it, from the root down. -/
inductive Context where
  | hole
  /-- The hole is in the right argument of an operator. -/
  | behind (l : Leading) (inner : Context)
  /-- The hole is in the left argument of an operator. -/
  | before (w : Trailing) (inner : Context)

namespace Context

/-- The tree with a subtree in the hole. -/
def fill : Context → Tree → Tree
  | .hole, s => s
  | .behind l inner, s => l.close (inner.fill s)
  | .before w inner, s => w.close (inner.fill s)

/-- The parts to the left of the hole. -/
def left : Context → List Part
  | .hole => []
  | .behind l inner => l.parts ++ inner.left
  | .before _ inner => inner.left

/-- The parts to the right of the hole. -/
def right : Context → List Part
  | .hole => []
  | .behind _ inner => inner.right
  | .before w inner => inner.right ++ w.parts

/-- The items to the left of the hole. -/
def leftItems (c : Context) : List Item := c.left.map Part.item

/-- The items to the right of the hole. -/
def rightItems (c : Context) : List Item := c.right.map Part.item

theorem parts_fill (c : Context) (s : Tree) : (c.fill s).parts = c.left ++ s.parts ++ c.right := by
  induction c with
  | hole => simp [fill, left, right]
  | behind l inner ih => simp [fill, left, right, ih]
  | before w inner ih => simp [fill, left, right, ih]

theorem items_fill (c : Context) (s : Tree) :
    (c.fill s).items = c.leftItems ++ s.items ++ c.rightItems := by
  rw [Tree.items, parts_fill, List.map_append, List.map_append]
  rfl

/-- A tree is as good as its value. -/
theorem eval_fill_operand (c : Context) (s : Tree) :
    (c.fill (.operand s.eval)).eval = (c.fill s).eval := by
  induction c with
  | hole => rfl
  | behind l inner ih =>
      cases l with
      | prefixOp op => rw [fill, fill, Leading.close, Leading.close, Tree.eval, Tree.eval, ih]
      | infixOp op left => rw [fill, fill, Leading.close, Leading.close, Tree.eval, Tree.eval, ih]
  | before w inner ih =>
      cases w with
      | infixOp op right =>
          rw [fill, fill, Trailing.close, Trailing.close, Tree.eval, Tree.eval, ih]
      | postfixOp op => rw [fill, fill, Trailing.close, Trailing.close, Tree.eval, Tree.eval, ih]

section Operand

variable {c : Context} {s : Tree} {term : Term}

/-- Around an operand the heads are those around the subtree, or there is none. -/
theorem head?_fill_operand {d : Operator} (heads : d ∈ (c.fill (.operand term)).head?) :
    d ∈ (c.fill s).head? := by
  cases c with
  | hole => cases heads
  | behind l inner => simpa [fill] using heads
  | before w inner => simpa [fill] using heads

theorem accepted_fill (accepted : (c.fill s).Accepted) : (c.fill (.operand term)).Accepted := by
  induction c with
  | hole => exact trivial
  | behind l inner ih =>
      rw [fill, Leading.accepted_close] at accepted ⊢
      obtain ⟨arg, others, accepts⟩ := accepted
      exact ⟨ih arg, others, fun d heads => accepts d (head?_fill_operand heads)⟩
  | before w inner ih =>
      rw [fill, Trailing.accepted_close] at accepted ⊢
      obtain ⟨arg, others, accepts⟩ := accepted
      exact ⟨ih arg, others, fun d heads => accepts d (head?_fill_operand heads)⟩

theorem not_loose_fill (tight : ¬ (c.fill s).Loose) : ¬ (c.fill (.operand term)).Loose := by
  induction c with
  | hole => exact not_false
  | behind l inner ih =>
      rw [fill, Leading.loose_close] at tight ⊢
      rintro (loose | others | ⟨d, heads, both⟩)
      · exact ih (fun loose => tight (Or.inl loose)) loose
      · exact tight (Or.inr (Or.inl others))
      · exact tight (Or.inr (Or.inr ⟨d, head?_fill_operand heads, both⟩))
  | before w inner ih =>
      rw [fill, Trailing.loose_close] at tight ⊢
      rintro (loose | others | ⟨d, heads, both⟩)
      · exact ih (fun loose => tight (Or.inl loose)) loose
      · exact tight (Or.inr (Or.inl others))
      · exact tight (Or.inr (Or.inr ⟨d, head?_fill_operand heads, both⟩))

/-- An operand in the place of some parts is no atom, and leaves the others where they were. -/
theorem atomsAllowed_operand {table : Table} {front inner behind : List Part}
    (nonempty : inner ≠ []) (allowed : Part.AtomsAllowed table (front ++ inner ++ behind)) :
    Part.AtomsAllowed table (front ++ .operand term :: behind) := by
  obtain ⟨p, ps, rfl⟩ := List.exists_cons_of_ne_nil nonempty
  cases front with
  | nil =>
      rw [List.nil_append, List.cons_append, Part.atomsAllowed_cons] at allowed
      refine Part.atomsAllowed_cons.2 (Or.inr ⟨by simp, fun name member => ?_⟩)
      rcases allowed with ⟨alone, single⟩ | ⟨-, absent⟩
      · obtain ⟨-, rfl⟩ : ps = [] ∧ behind = [] := by simpa using (List.cons.inj single).2
        cases member
      · exact absent name (List.mem_append_right _ member)
  | cons first front =>
      rw [List.cons_append, List.cons_append, Part.atomsAllowed_cons] at allowed
      refine Part.atomsAllowed_cons.2 (Or.inr ?_)
      rcases allowed with ⟨alone, single⟩ | ⟨postfixed, absent⟩
      · simp at single
      · refine ⟨postfixed, fun name member => absent name ?_⟩
        rw [List.append_assoc]
        rcases List.mem_append.1 member with member | member
        · exact List.mem_append_left _ member
        · refine List.mem_append_right _ (List.mem_append_right _ ?_)
          exact List.mem_of_ne_of_mem (by simp) member

theorem isParse_fill {table : Table} {items : List Item} (term : Term)
    (parse : (c.fill s).IsParse table items) :
    (c.fill (.operand term)).IsParse table (c.leftItems ++ .operand term :: c.rightItems) where
  items_eq := by
    rw [items_fill, List.append_assoc]
    rfl
  isDefined := by
    intro p member
    rw [parts_fill, List.append_assoc] at member
    have others : ∀ p ∈ c.left ++ c.right, p.IsDefined table := by
      intro p member
      refine parse.isDefined p ?_
      rw [parts_fill, List.append_assoc]
      rcases List.mem_append.1 member with member | member
      · exact List.mem_append_left _ member
      · exact List.mem_append_right _ (List.mem_append_right _ member)
    rcases List.mem_append.1 member with member | member
    · exact others p (List.mem_append_left _ member)
    · rcases List.mem_cons.1 member with rfl | member
      · exact trivial
      · exact others p (List.mem_append_right _ member)
  atomsAllowed := by
    have allowed := parse.atomsAllowed
    rw [parts_fill] at allowed ⊢
    rw [List.append_assoc]
    exact atomsAllowed_operand s.parts_ne_nil allowed
  accepted := accepted_fill parse.accepted

end Operand

end Context

namespace Builder

variable {table : Table} {items : List Item} {term : Term}

/-- What is built has one parse.  The items of any subtree of it may be put in parentheses, as
one operand, and the same term is built. -/
theorem build_parenthesized (reachable : table.Reachable) (apart : table.PostfixApart)
    (built : Item.build table items = .ok term) :
    (∃! t : Tree, t.IsParse table items) ∧
      ∀ (c : Context) (s : Tree), (c.fill s).IsParse table items →
        (c.fill s).eval = term ∧ items = c.leftItems ++ s.items ++ c.rightItems ∧
          s.items ≠ [] ∧
          Item.build table (c.leftItems ++ .operand s.eval :: c.rightItems) = .ok term := by
  have wf := reachable.wellFormed
  obtain ⟨t, parse, eval_eq, tight, -⟩ := exists_tight_of_build wf built
  have only : ∀ u : Tree, u.IsParse table items → u = t := fun u =>
    eq_of_isParse_of_build wf built parse
  refine ⟨⟨t, parse, only⟩, fun c s parse' => ?_⟩
  obtain rfl := only _ parse'
  have items_eq : items = c.leftItems ++ s.items ++ c.rightItems := by
    rw [← c.items_fill, parse.items_eq]
  have nonempty : s.items ≠ [] := by
    intro none
    exact s.parts_ne_nil (List.map_eq_nil_iff.1 none)
  refine ⟨eval_eq, items_eq, nonempty, ?_⟩
  rcases build_of_tight wf (Context.isParse_fill s.eval parse)
    (Context.not_loose_fill tight) with again | ⟨e, -, refused⟩
  · rw [again, Context.eval_fill_operand, eval_eq]
  · exact absurd refused (not_refusesPair apart _ e)

/-- Subtraction in the standard table. -/
def minus : Operator := ⟨"-", .yfx, 500, none, false⟩

/-- The tree of a subtraction between two atoms. -/
def difference : Tree := .infixOp minus (.operand (.atom "a")) (.operand (.atom "b"))

theorem build_parenthesized_difference :
    Item.build .standard
        [.operand (.compound "-" [.atom "a", .atom "b"]), .operator "-", .operand (.atom "c")] =
      .ok (.compound "-" [.compound "-" [.atom "a", .atom "b"], .atom "c"]) := by
  have isDefined : (Part.operator .infixOp minus).IsDefined .standard := ⟨_, rfl, rfl⟩
  have parse : (Context.fill (.before (.infixOp minus (.operand (.atom "c"))) .hole)
      difference).IsParse .standard
      [.operand (.atom "a"), .operator "-", .operand (.atom "b"), .operator "-",
        .operand (.atom "c")] := by
    refine ⟨rfl, ?_, ?_, ?_⟩
    · show ∀ p ∈ [Part.operand (.atom "a"), .operator .infixOp minus, .operand (.atom "b"),
        .operator .infixOp minus, .operand (.atom "c")], p.IsDefined .standard
      simp only [List.forall_mem_cons]
      exact ⟨trivial, isDefined, trivial, isDefined, trivial, by simp⟩
    · exact Part.atomsAllowed_cons.2 (Or.inr ⟨by simp, by simp [Tree.parts]⟩)
    · have accepts : minus.leftAccepts minus = true := rfl
      simp [difference, Context.fill, Trailing.close, Tree.Accepted, Tree.head?, accepts]
  exact ((build_parenthesized .standard (by decide) rfl).2 _ difference parse).2.2.2

end Builder

end OperatorGrammar
