/-
# Proofs.Shunting.Sound -- what a reduction builds is accepted

After the parts of the right end of a sentence the reduction holds accepted trees with
exactly these parts (`Reduced`): either an operand is due, or there is a tree in front.
The operators that wait form a `Ladder`: each accepts the one in front of it as the
head of its left argument.

No comparison is made where a postfix operator joins the ladder, nor for a prefix tree
in front of a tighter operator.  There the neighbours of the sentence say enough: a
tree in front is a leaf, a prefix tree whose operator has just been placed, or what the
last release closed.
-/
import OperatorGrammar.Proofs.Shunting.Stage
import OperatorGrammar.Proofs.Tree.Neighbours

namespace OperatorGrammar

set_option autoImplicit false

namespace Trailing

/-- Every operator accepts its right argument and the operator that waits before it. -/
structure Ladder (ws : List Trailing) : Prop where
  accepted : ∀ w ∈ ws, w.Accepted
  rising : ws.IsChain fun inner outer => outer.op.leftAccepts inner.op = true

theorem ladder_nil : Ladder [] := ⟨by simp, List.isChain_nil⟩

theorem ladder_cons {w : Trailing} {ws : List Trailing} :
    Ladder (w :: ws) ↔
      w.Accepted ∧ (∀ outer ∈ ws.head?, outer.op.leftAccepts w.op = true) ∧ Ladder ws := by
  constructor
  · rintro ⟨accepted, rising⟩
    obtain ⟨first, others⟩ := List.forall_mem_cons.1 accepted
    obtain ⟨next, rest⟩ := List.isChain_cons.1 rising
    exact ⟨first, next, others, rest⟩
  · rintro ⟨first, next, others, rest⟩
    exact ⟨List.forall_mem_cons.2 ⟨first, others⟩, List.isChain_cons.2 ⟨next, rest⟩⟩

theorem Ladder.of_append_left {inside rest : List Trailing} (ladder : Ladder (inside ++ rest)) :
    Ladder inside :=
  ⟨fun w member => ladder.accepted w (List.mem_append_left _ member), ladder.rising.left_of_append⟩

theorem Ladder.of_append_right {inside rest : List Trailing} (ladder : Ladder (inside ++ rest)) :
    Ladder rest :=
  ⟨fun w member => ladder.accepted w (List.mem_append_right _ member),
    ladder.rising.right_of_append⟩

theorem accepted_closeAll {ws : List Trailing} {t : Tree} (ladder : Ladder ws)
    (accepted : t.Accepted)
    (accepts : ∀ w ∈ ws.head?, ∀ d ∈ t.head?, w.op.leftAccepts d = true) :
    (closeAll ws t).Accepted := by
  induction ws generalizing t with
  | nil => exact accepted
  | cons w ws ih =>
      obtain ⟨first, next, rest⟩ := ladder_cons.1 ladder
      refine ih rest ((accepted_close w t).2 ⟨accepted, first, accepts w rfl⟩) ?_
      intro outer heads d inner
      rw [head?_close] at inner
      cases inner
      exact next outer heads

theorem exists_parts_eq (w : Trailing) :
    ∃ f rest, w.parts = .operator f w.op :: rest ∧ (Part.operator f w.op).takesLeft = true := by
  cases w with
  | infixOp op right => exact ⟨.infixOp, right.parts, rfl, rfl⟩
  | postfixOp op => exact ⟨.postfixOp, [], rfl, rfl⟩

end Trailing

namespace Shunting

open Trailing OperatorGrammar.Part

/-- The reduction has taken in the parts of the right end of a sentence. -/
inductive Reduced (ps : List Part) (s : Shunting) : Prop where
  /-- An operand is due in front. -/
  | due (ws : List Trailing) (holds : s.Holds none ws) (ladder : Ladder ws)
      (parts_eq : ws.flatMap Trailing.parts = ps)
  /-- There is a tree in front; an operator heads it only if it is a prefix operator
  that was placed last. -/
  | held (t : Tree) (ws : List Trailing) (holds : s.Holds (some t) ws) (ladder : Ladder ws)
      (parts_eq : t.parts ++ ws.flatMap Trailing.parts = ps) (accepted : t.Accepted)
      (accepts : ∀ w ∈ ws.head?, ∀ d ∈ t.head?, w.op.leftAccepts d = true)
      (fresh : ∀ d ∈ t.head?, ps.head? = some (.operator .prefixOp d))

variable {ps : List Part} {s s' : Shunting} {op : Operator} {p : Part}

/-- Behind a part that leaves no operand due, an operator waits, or nothing is left. -/
theorem Reduced.exists_due (reduced : Reduced ps s) (follows : ∀ q ∈ ps.head?, Meets p q)
    (closed : p.opens = false) :
    ∃ ws, s.Holds none ws ∧ Ladder ws ∧ ws.flatMap Trailing.parts = ps := by
  cases reduced with
  | due ws holds ladder parts_eq => exact ⟨ws, holds, ladder, parts_eq⟩
  | held t ws holds _ parts_eq accepted _ _ =>
      subst parts_eq
      rw [Tree.head?_parts_append] at follows
      have first := List.head?_eq_some_head t.parts_ne_nil
      have sides := (follows _ first).sides
      rw [(Tree.isSentence_parts accepted).first _ first, closed] at sides
      cases sides

/-- What a release for the next operator leaves: a tree that the operator accepts, and
operators that accept the operator. -/
theorem Reduced.release (reduced : Reduced ps s) (follows : ∀ q ∈ ps.head?, Meets p q)
    (nonempty : ps ≠ []) (shape : ∃ f, p = .operator f op) (opening : p.opens = true)
    (released : s.release op = .ok s') :
    ∃ t ws, s'.Holds (some t) ws ∧ Ladder ws ∧ t.parts ++ ws.flatMap Trailing.parts = ps ∧
      t.Accepted ∧ (∀ d ∈ t.head?, op.rightAccepts d = true) ∧
      ∀ w ∈ ws.head?, w.op.leftAccepts op = true := by
  obtain ⟨f, rfl⟩ := shape
  cases reduced with
  | due ws holds ladder parts_eq =>
      cases ws with
      | nil => exact absurd parts_eq.symm nonempty
      | cons w ws =>
          obtain ⟨g, rest, parts_w, takes⟩ := exists_parts_eq w
          have first : ps.head? = some (.operator g w.op) := by
            rw [← parts_eq, List.flatMap_cons, parts_w]; rfl
          have sides := (follows _ first).sides
          rw [takes, opening] at sides
          cases sides
  | held t ws holds ladder parts_eq accepted accepts fresh =>
      obtain ⟨inside, rest, rfl, nested, stop⟩ := exists_split op ws
      have apart : ∀ w ∈ rest.head?, nestsIn op w = .ok false := by
        intro w first
        cases compared : nestsIn op w with
        | ok inner => cases inner with
          | true => exact absurd compared (stop w first)
          | false => rfl
        | error cause =>
            cases rest with
            | nil => cases first
            | cons w' rest =>
                cases first
                obtain ⟨stuck, fails, -⟩ := release_of_error holds nested compared
                rw [fails] at released
                cases released
      obtain ⟨s₁, released', holds'⟩ := release_of_nests holds nested apart
      rw [released'] at released
      cases released
      refine ⟨closeAll inside t, rest, holds', ladder.of_append_right, ?_, ?_, ?_, ?_⟩
      · rw [parts_closeAll, ← parts_eq, List.flatMap_append, List.append_assoc]
      · refine accepted_closeAll ladder.of_append_left accepted fun w first => accepts w ?_
        rw [List.head?_append, first, Option.some_or]
        rfl
      · rcases List.eq_nil_or_concat inside with rfl | ⟨init, last, rfl⟩
        · intro d heads
          have accords := (follows _ (fresh d heads)).accords
          cases f with
          | prefixOp => exact accords
          | infixOp => exact accords
          | postfixOp => cases opening
        · intro d heads
          rw [List.concat_eq_append] at heads nested
          rw [head?_closeAll_append] at heads
          cases heads
          exact rightAccepts_of_nests (nested last (by simp))
      · exact fun w first => leftAccepts_of_not_nests (apart w first)

/-! ## Runs -/

theorem Reduced.leaf {t : Tree} {term : Term} (reduced : Reduced ps s)
    (follows : ∀ q ∈ ps.head?, Meets p q) (closed : p.opens = false)
    (symbol : t.prefixOrder = [.leaf term]) (headless : t.head? = none) (alone : t.parts = [p])
    (accepted : t.Accepted) (placed : s.place (.leaf term) = .ok s') :
    Reduced (p :: ps) s' := by
  obtain ⟨ws, holds, ladder, parts_eq⟩ := reduced.exists_due follows closed
  cases placed
  refine .held t ws ⟨holds.pending, ?_⟩ ladder ?_ accepted ?_ ?_
  · simp [holds.output, symbol]
  · rw [alone, parts_eq]; rfl
  · simp [headless]
  · simp [headless]

/-- The part to the left joins the trees. -/
theorem Reduced.place (reduced : Reduced ps s) (follows : ∀ q ∈ ps.head?, Meets p q)
    (last : ps = [] → p.opens = false) (wellPlaced : p.Placed)
    (placed : s.place p.symbol = .ok s') : Reduced (p :: ps) s' := by
  have nonempty : p.opens = true → ps ≠ [] := by
    intro opening empty
    rw [last empty] at opening
    cases opening
  cases p with
  | operand term =>
      exact reduced.leaf (t := .operand term) follows rfl rfl rfl rfl trivial placed
  | atom name =>
      exact reduced.leaf (t := .atom name) follows rfl rfl rfl rfl trivial placed
  | operator f op =>
      cases f with
      | postfixOp =>
          obtain ⟨ws, holds, ladder, parts_eq⟩ := reduced.exists_due follows rfl
          rw [symbol, place_postfixOp s wellPlaced] at placed
          cases placed
          refine .due (.postfixOp op :: ws) ⟨?_, ?_⟩ (ladder_cons.2 ⟨trivial, ?_, ladder⟩) ?_
          · rw [List.map_cons, ← holds.pending]; rfl
          · rw [holds.output]; rfl
          · intro outer first
            obtain ⟨g, rest, parts_w, -⟩ := exists_parts_eq outer
            cases ws with
            | nil => cases first
            | cons w ws =>
                cases first
                refine (follows (.operator g outer.op) ?_).accords
                rw [← parts_eq, List.flatMap_cons, parts_w]
                rfl
          · rw [List.flatMap_cons, parts_eq]; rfl
      | prefixOp =>
          rw [symbol, place_prefixOp s wellPlaced] at placed
          cases released : s.release op with
          | error stuck => rw [released] at placed; cases placed
          | ok s₁ =>
              rw [released] at placed
              cases placed
              obtain ⟨t, ws, holds, ladder, parts_eq, accepted, accepts, next⟩ :=
                reduced.release follows (nonempty rfl) ⟨_, rfl⟩ rfl released
              refine .held (.prefixOp op t) ws ⟨holds.pending, ?_⟩ ladder ?_
                ⟨accepted, accepts⟩ ?_ ?_
              · simp [holds.output, Tree.prefixOrder]
              · rw [← parts_eq]; rfl
              · rintro w first d ⟨⟩
                exact next w first
              · rintro d ⟨⟩
                rfl
      | infixOp =>
          rw [symbol, place_infixOp s wellPlaced] at placed
          cases released : s.release op with
          | error stuck => rw [released] at placed; cases placed
          | ok s₁ =>
              rw [released] at placed
              cases placed
              obtain ⟨t, ws, holds, ladder, parts_eq, accepted, accepts, next⟩ :=
                reduced.release follows (nonempty rfl) ⟨_, rfl⟩ rfl released
              refine .due (.infixOp op t :: ws) ⟨?_, ?_⟩
                (ladder_cons.2 ⟨⟨accepted, accepts⟩, next, ladder⟩) ?_
              · rw [List.map_cons, ← holds.pending]; rfl
              · simp [holds.output, argument]
              · rw [List.flatMap_cons, ← parts_eq]; rfl

theorem reduced_of_runParts (chain : ps.IsChain Meets)
    (last : ∀ p ∈ ps.getLast?, p.opens = false) (wellPlaced : ∀ p ∈ ps, p.Placed)
    (ran : runParts {} ps = .ok s) : Reduced ps s := by
  induction ps generalizing s with
  | nil =>
      cases ran
      exact .due [] holds_empty ladder_nil rfl
  | cons p ps ih =>
      obtain ⟨follows, chain⟩ := List.isChain_cons.1 chain
      obtain ⟨first, others⟩ := List.forall_mem_cons.1 wellPlaced
      rw [runParts_cons] at ran
      cases before : runParts {} ps with
      | error stuck => rw [before] at ran; cases ran
      | ok s₁ =>
          rw [before] at ran
          refine (ih chain (fun q final => last q ?_) others before).place follows ?_ first ran
          · cases ps with
            | nil => cases final
            | cons q ps => rw [List.getLast?_cons_cons]; exact final
          · rintro rfl
            exact last p rfl

/-- What comes out of a sentence is the prefix order of an accepted tree with its parts. -/
theorem exists_tree_of_runParts (sentence : IsSentence ps) (wellPlaced : ∀ p ∈ ps, p.Placed)
    (ran : runParts {} ps = .ok s) :
    ∃ t : Tree, t.Accepted ∧ t.parts = ps ∧ s.finish = t.prefixOrder := by
  cases reduced_of_runParts sentence.chain sentence.last wellPlaced ran with
  | due ws holds ladder parts_eq =>
      cases ws with
      | nil => exact absurd parts_eq.symm sentence.nonempty
      | cons w ws =>
          -- an operand that is still due would have to stand in front of the sequence
          obtain ⟨g, rest, parts_w, takes⟩ := exists_parts_eq w
          have first : ps.head? = some (.operator g w.op) := by
            rw [← parts_eq, List.flatMap_cons, parts_w]; rfl
          have closed := sentence.first _ first
          rw [takes] at closed
          cases closed
  | held t ws holds ladder parts_eq accepted accepts _ =>
      refine ⟨closeAll ws t, accepted_closeAll ladder accepted accepts, ?_, holds.finish_eq⟩
      rw [parts_closeAll, parts_eq]

end Shunting

end OperatorGrammar
