/-
# Proofs.Shunting.Exact -- a reduction decides whether there is exactly one tree

The parts of an accepted tree lead the reduction through the tree, from the right: in
front stands the lead of what was read so far, and its spine waits (`reaches_parts`).
An operator in front of its argument finds the whole spine of the argument inside and
nothing else (`reaches_release`).

The only thing that can go wrong on the way is an ambiguity, and then two
interchangeable operators touch the same operand, so that the tree is loose or has a
loose place at its right edge.  A loose tree has a twin.  So a reduction that ends has
found the only accepted tree of its parts (`eq_of_runParts`), and one that fails leaves
none, or an ambiguity with more than one (`exists_other_of_stuck`).
-/
import OperatorGrammar.Proofs.Shunting.Sound

namespace OperatorGrammar

set_option autoImplicit false

namespace Shunting

open Operator Trailing

/-- The failure reports an ambiguity. -/
def Stuck.IsAmbiguous (stuck : Stuck) : Prop := ∃ l r, stuck.cause = .ambiguous l r

/-- A run comes to rest with `front` and `ws`, or ends in an ambiguity; then `tie` says
what there is to it. -/
def Reaches (front : Option Tree) (ws : List Trailing) (tie : Prop)
    (run : Except Stuck Shunting) : Prop :=
  (∃ s, run = .ok s ∧ s.Holds front ws) ∨ ∃ stuck, run = .error stuck ∧ stuck.IsAmbiguous ∧ tie

section Reaches

variable {front front' : Option Tree} {ws ws' : List Trailing} {tie tie' : Prop}
  {run : Except Stuck Shunting}

theorem Reaches.weaken (reaches : Reaches front ws tie run) (keeps : tie → tie') :
    Reaches front ws tie' run := by
  rcases reaches with done | ⟨stuck, fails, ambiguous, why⟩
  · exact Or.inl done
  · exact Or.inr ⟨stuck, fails, ambiguous, keeps why⟩

theorem Reaches.bind {next : Shunting → Except Stuck Shunting} (reaches : Reaches front ws tie run)
    (keeps : tie → tie') (goesOn : ∀ s, s.Holds front ws → Reaches front' ws' tie' (next s)) :
    Reaches front' ws' tie' (run >>= next) := by
  rcases reaches with ⟨s, rfl, holds⟩ | ⟨stuck, rfl, ambiguous, why⟩
  · exact goesOn s holds
  · exact Or.inr ⟨stuck, rfl, ambiguous, keeps why⟩

theorem Reaches.map {f : Shunting → Shunting} (reaches : Reaches front ws tie run)
    (keeps : tie → tie') (goesOn : ∀ s, s.Holds front ws → (f s).Holds front' ws') :
    Reaches front' ws' tie' (run.map f) := by
  rcases reaches with ⟨s, rfl, holds⟩ | ⟨stuck, rfl, ambiguous, why⟩
  · exact Or.inl ⟨_, rfl, goesOn s holds⟩
  · exact Or.inr ⟨stuck, rfl, ambiguous, keeps why⟩

end Reaches

variable {s : Shunting} {ws : List Trailing} {op : Operator} {arg t : Tree} {ps : List Part}

/-- An operator of the argument that ties with the operator in front has the precedence
of the argument's head, which then ties as well. -/
theorem interchangeable_head {d : Operator} {w : Trailing} (accepts : op.rightAccepts d = true)
    (inner : w.op = d ∨ d.leftAccepts w.op = true) (both : Interchangeable op w.op) :
    Interchangeable op d := by
  rcases inner with rfl | inner
  · exact both
  · have le := prec_le_of_rightAccepts accepts
    rcases (leftAccepts_iff d w.op).1 inner with less | ⟨same, left⟩
    · have := both.samePrec
      omega
    · exact ⟨both.samePrec.trans same, both.takesRight, left⟩

/-- What a tie with the head of a right argument says of the operator in front of it. -/
theorem interchangeable_of_argument {d r : Operator} (accepts : op.rightAccepts d = true)
    (outside : r.leftAccepts op = true) (both : Interchangeable d r) : Interchangeable op r := by
  have le := prec_le_of_leftAccepts outside
  have same := both.samePrec
  rcases (rightAccepts_iff op d).1 accepts with less | ⟨same', right⟩
  · omega
  · exact ⟨by omega, right, both.takesLeft⟩

theorem rightAccepts_of_mem_spine {w : Trailing} (accepted : arg.Accepted)
    (accepts : ∀ d ∈ arg.head?, op.rightAccepts d = true) (member : w ∈ arg.spine) :
    op.rightAccepts w.op = true := by
  obtain ⟨d, heads, rfl | inner⟩ := Tree.exists_head_of_mem_spine accepted member
  · exact accepts w.op heads
  · exact rightAccepts_of_le (accepts d heads) (prec_le_of_leftAccepts inner)

/-- A release for the operator in front of an argument puts the argument together. -/
theorem reaches_release (holds : s.Holds (some arg.lead) (arg.spine ++ ws))
    (accepted : arg.Accepted) (accepts : ∀ d ∈ arg.head?, op.rightAccepts d = true)
    (outside : ∀ w ∈ ws.head?, w.op.leftAccepts op = true) :
    Reaches (some arg) ws
      ((∃ d ∈ arg.head?, Interchangeable op d) ∨ ∃ w ∈ ws.head?, Interchangeable op w.op)
      (s.release op) := by
  obtain ⟨inside, rest, split, nested, stop⟩ := exists_split op arg.spine
  cases rest with
  | cons w rest =>
      -- only a tie can stop the release before the end of the spine
      have member : w ∈ arg.spine := by rw [split]; simp
      obtain ⟨d, heads, inner⟩ := Tree.exists_head_of_mem_spine accepted member
      rcases nests_of_rightAccepts (rightAccepts_of_mem_spine accepted accepts member) with
        nests | ⟨both, ambiguous⟩
      · exact absurd nests (stop w rfl)
      · rw [split, List.append_assoc] at holds
        obtain ⟨stuck, fails, cause⟩ := release_of_error holds nested ambiguous
        exact Or.inr ⟨stuck, fails, ⟨_, _, cause⟩,
          Or.inl ⟨d, heads, interchangeable_head (accepts d heads) inner both⟩⟩
  | nil =>
      rw [List.append_nil] at split
      subst split
      cases ws with
      | nil =>
          obtain ⟨s', released, holds'⟩ := release_of_nests holds nested (by simp)
          rw [Tree.closeAll_spine] at holds'
          exact Or.inl ⟨s', released, holds'⟩
      | cons w ws =>
          rcases nests_of_leftAccepts (outside w rfl) with apart | ⟨both, ambiguous⟩
          · have stops : ∀ x ∈ (w :: ws).head?, nestsIn op x = .ok false := by
              rintro x ⟨⟩
              exact apart
            obtain ⟨s', released, holds'⟩ := release_of_nests holds nested stops
            rw [Tree.closeAll_spine] at holds'
            exact Or.inl ⟨s', released, holds'⟩
          · obtain ⟨stuck, fails, cause⟩ := release_of_error holds nested ambiguous
            exact Or.inr ⟨stuck, fails, ⟨_, _, cause⟩, Or.inr ⟨w, rfl, both⟩⟩

/-- There is a loose place inside the tree or at its right edge. -/
def Touches (t : Tree) (ws : List Trailing) : Prop :=
  t.Loose ∨ ∃ d ∈ t.head?, ∃ w ∈ ws.head?, Interchangeable d w.op

/-- An argument and the release for the operator in front of it. -/
theorem reaches_argument (accepted : arg.Accepted)
    (accepts : ∀ d ∈ arg.head?, op.rightAccepts d = true)
    (outside : ∀ w ∈ ws.head?, w.op.leftAccepts op = true)
    (read : Reaches (some arg.lead) (arg.spine ++ ws) (Touches arg ws) (s.runParts arg.parts)) :
    Reaches (some arg) ws
      (arg.Loose ∨ (∃ d ∈ arg.head?, Interchangeable op d) ∨
        ∃ w ∈ ws.head?, Interchangeable op w.op)
      (s.runParts arg.parts >>= fun s => s.release op) := by
  refine read.bind ?_ fun s' holds => ?_
  · rintro (loose | ⟨d, heads, w, first, both⟩)
    · exact Or.inl loose
    · exact Or.inr (Or.inr ⟨w, first,
        interchangeable_of_argument (accepts d heads) (outside w first) both⟩)
  · exact (reaches_release holds accepted accepts outside).weaken Or.inr

/-- Reading the parts of an accepted tree leaves its lead in front of its spine. -/
theorem reaches_parts (accepted : t.Accepted) (placed : t.Placed) (holds : s.Holds none ws)
    (outside : ∀ w ∈ ws.head?, ∀ d ∈ t.head?, w.op.leftAccepts d = true) :
    Reaches (some t.lead) (t.spine ++ ws) (Touches t ws) (s.runParts t.parts) := by
  have inner : ∀ {op : Operator} {arg : Tree} {ws : List Trailing},
      (∀ d ∈ arg.head?, op.rightAccepts d = true) →
      (∀ w ∈ ws.head?, w.op.leftAccepts op = true) →
      ∀ w ∈ ws.head?, ∀ d ∈ arg.head?, w.op.leftAccepts d = true :=
    fun accepts outside w first d heads =>
      leftAccepts_of_le (outside w first) (prec_le_of_rightAccepts (accepts d heads))
  induction t generalizing s ws with
  | operand term => exact Or.inl ⟨_, rfl, holds.pending, by rw [holds.output]; rfl⟩
  | atom name => exact Or.inl ⟨_, rfl, holds.pending, by rw [holds.output]; rfl⟩
  | prefixOp op arg ih =>
      obtain ⟨accepted, accepts⟩ := accepted
      have outside : ∀ w ∈ ws.head?, w.op.leftAccepts op = true :=
        fun w first => outside w first op rfl
      have read := reaches_argument accepted accepts outside
        (ih accepted placed.2 holds (inner accepts outside))
      rw [Tree.parts, runParts_prefixOp s arg.parts placed.1]
      refine read.map ?_ fun s' rests => ⟨rests.pending, by simp [rests.output, Tree.lead,
        Tree.spine, Tree.prefixOrder]⟩
      rintro (loose | both | ⟨w, first, both⟩)
      · exact Or.inl (Or.inl loose)
      · exact Or.inl (Or.inr both)
      · exact Or.inr ⟨op, rfl, w, first, both⟩
  | postfixOp op arg ih =>
      obtain ⟨accepted, accepts⟩ := accepted
      have waits : s.runParts [.operator .postfixOp op] =
          .ok { s with pending := op :: s.pending } := by
        rw [runParts_cons]
        exact place_postfixOp s placed.1
      have holds' : Holds { s with pending := op :: s.pending } none (.postfixOp op :: ws) :=
        ⟨by rw [List.map_cons, ← holds.pending]; rfl, by rw [holds.output]; rfl⟩
      have read := ih accepted placed.2 holds' (by rintro w ⟨⟩; exact accepts)
      rw [Tree.parts, runParts_append, waits, Tree.spine, Tree.lead, List.append_assoc]
      refine read.weaken ?_
      rintro (loose | ⟨d, heads, w, first, both⟩)
      · exact Or.inl (Or.inl loose)
      · cases first
        exact Or.inl (Or.inr ⟨d, heads, both⟩)
  | infixOp op left right ihLeft ihRight =>
      obtain ⟨acceptedLeft, acceptedRight, acceptsLeft, acceptsRight⟩ := accepted
      have outside : ∀ w ∈ ws.head?, w.op.leftAccepts op = true :=
        fun w first => outside w first op rfl
      have readRight := reaches_argument acceptedRight acceptsRight outside
        (ihRight acceptedRight placed.2.2 holds (inner acceptsRight outside))
      rw [Tree.parts, runParts_append, runParts_infixOp s right.parts placed.1, Tree.spine,
        Tree.lead, List.append_assoc]
      have waits : Reaches none (.infixOp op right :: ws) _ _ :=
        readRight.map (f := fun s => { s with pending := op :: s.pending }) id
          fun s' rests => ⟨by rw [List.map_cons, ← rests.pending]; rfl,
            by simp [rests.output, argument]⟩
      refine waits.bind ?_ fun s' rests => ?_
      · rintro (loose | both | ⟨w, first, both⟩)
        · exact Or.inl (Or.inr (Or.inl loose))
        · exact Or.inl (Or.inr (Or.inr (Or.inr both)))
        · exact Or.inr ⟨op, rfl, w, first, both⟩
      · have readLeft := ihLeft acceptedLeft placed.2.1 rests (by rintro w ⟨⟩; exact acceptsLeft)
        refine readLeft.weaken ?_
        rintro (loose | ⟨d, heads, w, first, both⟩)
        · exact Or.inl (Or.inl loose)
        · cases first
          exact Or.inl (Or.inr (Or.inr (Or.inl ⟨d, heads, both⟩)))

/-! ## Outcomes -/

/-- The parts of an accepted tree lead to its prefix order, unless it is loose. -/
theorem runParts_of_accepted (accepted : t.Accepted) (placed : t.Placed) :
    (∃ s, runParts {} t.parts = .ok s ∧ s.finish = t.prefixOrder) ∨
      ∃ stuck, runParts {} t.parts = .error stuck ∧ stuck.IsAmbiguous ∧ t.Loose := by
  rcases reaches_parts accepted placed holds_empty (by simp) with
    ⟨s, ran, holds⟩ | ⟨stuck, fails, ambiguous, loose | ⟨d, -, w, first, -⟩⟩
  · rw [List.append_nil] at holds
    exact Or.inl ⟨s, ran, by rw [holds.finish_eq, Tree.closeAll_spine]⟩
  · exact Or.inr ⟨stuck, fails, ambiguous, loose⟩
  · cases first

/-- A reduction that ends leaves room for one accepted tree at most. -/
theorem eq_of_runParts {u : Tree} (wellPlaced : ∀ p ∈ ps, p.Placed) (ran : runParts {} ps = .ok s)
    (accepted : t.Accepted) (parts_eq : t.parts = ps) (accepted' : u.Accepted)
    (parts_eq' : u.parts = ps) : t = u := by
  have order : ∀ {t : Tree}, t.Accepted → t.parts = ps → t.Placed ∧ s.finish = t.prefixOrder := by
    rintro t accepted rfl
    have placed := t.placed_iff.2 wellPlaced
    rcases runParts_of_accepted accepted placed with ⟨s', ran', finish⟩ | ⟨stuck, fails, -⟩
    · rw [ran] at ran'
      cases ran'
      exact ⟨placed, finish⟩
    · rw [ran] at fails
      cases fails
  obtain ⟨placed, finish⟩ := order accepted parts_eq
  obtain ⟨placed', finish'⟩ := order accepted' parts_eq'
  exact Tree.eq_of_prefixOrder placed placed' (finish.symm.trans finish')
    (parts_eq.trans parts_eq'.symm)

/-- A reduction fails on the parts of an accepted tree only if there is another one, and
reports an ambiguity. -/
theorem exists_other_of_stuck {stuck : Stuck} (wellPlaced : ∀ p ∈ ps, p.Placed)
    (fails : runParts {} ps = .error stuck) (accepted : t.Accepted) (parts_eq : t.parts = ps) :
    stuck.IsAmbiguous ∧ ∃ u : Tree, u ≠ t ∧ u.parts = ps ∧ u.Accepted := by
  subst parts_eq
  have placed := t.placed_iff.2 wellPlaced
  rcases runParts_of_accepted accepted placed with ⟨s, ran, -⟩ | ⟨stuck', fails', ambiguous, loose⟩
  · rw [fails] at ran
    cases ran
  · rw [fails] at fails'
    cases fails'
    obtain ⟨u, twin⟩ := Tree.exists_twin accepted placed loose
    exact ⟨ambiguous, u, twin.ne, twin.parts_eq, twin.accepted⟩

end Shunting

end OperatorGrammar
