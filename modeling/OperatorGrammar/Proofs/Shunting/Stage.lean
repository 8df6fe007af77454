/-
# Proofs.Shunting.Stage -- the trees in a reduction

At rest a reduction holds complete trees: perhaps one in front that no operator has
taken yet, and the right argument of every operator that waits.  `Holds` says so of
the pending stack and the output.

To release an operator is to give it the tree in front as its left argument.  So a
release closes the operators that nest, one after the other (`release_of_nests`),
unless a comparison fails on the way (`release_of_error`); the operators that wait
split up accordingly (`exists_split`).
-/
import OperatorGrammar.Proofs.Tree.Spine

namespace OperatorGrammar

set_option autoImplicit false

namespace Shunting

open Trailing

/-- The reduction holds the tree `front`, if any, and `ws` wait for a left argument. -/
structure Holds (s : Shunting) (front : Option Tree) (ws : List Trailing) : Prop where
  pending : s.pending = ws.map Trailing.op
  output : s.output = front.toList.flatMap Tree.prefixOrder ++ ws.flatMap Trailing.argument

theorem holds_empty : Holds {} none [] := ⟨rfl, rfl⟩

/-- What still waits in the end takes the tree in front, one after the other. -/
theorem Holds.finish_eq {s : Shunting} {t : Tree} {ws : List Trailing}
    (holds : s.Holds (some t) ws) : s.finish = (closeAll ws t).prefixOrder := by
  rw [Shunting.finish_eq, holds.pending, holds.output, prefixOrder_closeAll]
  simp [Function.comp_def]

/-! ## Releases -/

variable {op : Operator}

/-- Whether `w` belongs inside the right argument of `op`. -/
abbrev nestsIn (op : Operator) (w : Trailing) : Except Rejection Bool := nests op w.op

theorem exists_split (op : Operator) (ws : List Trailing) :
    ∃ inside rest, ws = inside ++ rest ∧ (∀ w ∈ inside, nestsIn op w = .ok true) ∧
      ∀ w ∈ rest.head?, nestsIn op w ≠ .ok true := by
  induction ws with
  | nil => exact ⟨[], [], rfl, by simp, by simp⟩
  | cons w ws ih =>
      by_cases nested : nestsIn op w = .ok true
      · obtain ⟨inside, rest, rfl, all, stop⟩ := ih
        exact ⟨w :: inside, rest, rfl, List.forall_mem_cons.2 ⟨nested, all⟩, stop⟩
      · exact ⟨[], w :: ws, rfl, by simp, by simpa using nested⟩

/-- A release passes the operators that nest. -/
theorem releaseFor_append {inside : List Trailing} (rest : List Operator) (t : Tree)
    (behind : List Symbol) (released : List Operator)
    (nested : ∀ w ∈ inside, nestsIn op w = .ok true) :
    ∃ released', releaseFor op (inside.map Trailing.op ++ rest)
        (t.prefixOrder ++ inside.flatMap argument ++ behind) released =
      releaseFor op rest ((closeAll inside t).prefixOrder ++ behind) released' := by
  induction inside generalizing t released with
  | nil => exact ⟨released, by simp⟩
  | cons w inside ih =>
      obtain ⟨first, others⟩ := List.forall_mem_cons.1 nested
      obtain ⟨released', passed⟩ := ih (w.close t) (w.op :: released) others
      refine ⟨released', ?_⟩
      rw [closeAll_cons, ← passed, prefixOrder_close]
      simp [releaseFor, first]

theorem exists_release_eq {s : Shunting} {t : Tree} {inside rest : List Trailing}
    (holds : s.Holds (some t) (inside ++ rest))
    (nested : ∀ w ∈ inside, nestsIn op w = .ok true) :
    ∃ released, s.release op = releaseFor op (rest.map Trailing.op)
      ((closeAll inside t).prefixOrder ++ rest.flatMap argument) released := by
  obtain ⟨released, passed⟩ := releaseFor_append (rest.map Trailing.op) t (rest.flatMap argument)
    s.released nested
  refine ⟨released, ?_⟩
  rw [← passed, release, holds.pending, holds.output]
  simp

theorem release_of_nests {s : Shunting} {t : Tree} {inside rest : List Trailing}
    (holds : s.Holds (some t) (inside ++ rest))
    (nested : ∀ w ∈ inside, nestsIn op w = .ok true)
    (stop : ∀ w ∈ rest.head?, nestsIn op w = .ok false) :
    ∃ s', s.release op = .ok s' ∧ s'.Holds (some (closeAll inside t)) rest := by
  obtain ⟨released, start⟩ := exists_release_eq holds nested
  refine ⟨⟨rest.map Trailing.op, (closeAll inside t).prefixOrder ++ rest.flatMap argument,
    released⟩, ?_, rfl, by simp⟩
  rw [start]
  cases rest with
  | nil => rfl
  | cons w rest =>
      have apart : nests op w.op = .ok false := stop w rfl
      simp [releaseFor, apart]

theorem release_of_error {s : Shunting} {t : Tree} {inside rest : List Trailing} {w : Trailing}
    {cause : Rejection} (holds : s.Holds (some t) (inside ++ w :: rest))
    (nested : ∀ w ∈ inside, nestsIn op w = .ok true) (fails : nests op w.op = .error cause) :
    ∃ stuck, s.release op = .error stuck ∧ stuck.cause = cause := by
  obtain ⟨released, start⟩ := exists_release_eq holds nested
  refine ⟨⟨cause, released⟩, ?_, rfl⟩
  rw [start]
  simp [releaseFor, fails]

/-! ## Placing -/

theorem place_infixOp (s : Shunting) (fixity : op.fixity = .infixOp) :
    s.place (.operator op) = (s.release op).map fun s => { s with pending := op :: s.pending } := by
  simp only [place, fixity]
  cases s.release op <;> rfl

theorem place_prefixOp (s : Shunting) (fixity : op.fixity = .prefixOp) :
    s.place (.operator op) =
      (s.release op).map fun s => { s with output := .operator op :: s.output } := by
  simp only [place, fixity]
  cases s.release op <;> rfl

theorem place_postfixOp (s : Shunting) (fixity : op.fixity = .postfixOp) :
    s.place (.operator op) = .ok { s with pending := op :: s.pending } := by
  simp only [place, fixity]

/-- Places the parts of a sequence, the rightmost first. -/
def runParts (s : Shunting) (ps : List Part) : Except Stuck Shunting :=
  s.run (ps.map Part.symbol).reverse

theorem runParts_append (s : Shunting) (ps qs : List Part) :
    s.runParts (ps ++ qs) = s.runParts qs >>= fun s => s.runParts ps := by
  simp [runParts, run]

theorem runParts_cons (s : Shunting) (p : Part) (ps : List Part) :
    s.runParts (p :: ps) = s.runParts ps >>= fun s => s.place p.symbol := by
  simp [runParts, run]

theorem runParts_prefixOp (s : Shunting) (ps : List Part) (fixity : op.fixity = .prefixOp) :
    s.runParts (.operator .prefixOp op :: ps) =
      (s.runParts ps >>= fun s => s.release op).map
        fun s => { s with output := .operator op :: s.output } := by
  rw [runParts_cons]
  cases s.runParts ps with
  | error stuck => rfl
  | ok s' => exact place_prefixOp s' fixity

theorem runParts_infixOp (s : Shunting) (ps : List Part) (fixity : op.fixity = .infixOp) :
    s.runParts (.operator .infixOp op :: ps) =
      (s.runParts ps >>= fun s => s.release op).map
        fun s => { s with pending := op :: s.pending } := by
  rw [runParts_cons]
  cases s.runParts ps with
  | error stuck => rfl
  | ok s' => exact place_infixOp s' fixity

/-! ## Failures -/

/-- What a failed reduction reports. -/
def Stuck.IsTie (stuck : Stuck) : Prop :=
  (∃ l r, stuck.cause = .clash l r) ∨ ∃ l r, stuck.cause = .ambiguous l r

theorem isTie_of_releaseFor {pending : List Operator} {output : List Symbol}
    {released : List Operator} {stuck : Stuck}
    (fails : releaseFor op pending output released = .error stuck) : stuck.IsTie := by
  induction pending generalizing output released with
  | nil => cases fails
  | cons top pending ih =>
      unfold releaseFor at fails
      split at fails
      · exact ih fails
      · cases fails
      · rename_i cause compared
        cases fails
        rcases cause_of_nests_error compared with clash | ambiguous
        · exact Or.inl ⟨_, _, clash⟩
        · exact Or.inr ⟨_, _, ambiguous⟩

theorem isTie_of_place {s : Shunting} {symbol : Symbol} {stuck : Stuck}
    (fails : s.place symbol = .error stuck) : stuck.IsTie := by
  cases symbol with
  | leaf term => cases fails
  | operator op =>
      have inRelease : ∀ f : Shunting → Shunting, (s.release op).map f = .error stuck →
          stuck.IsTie := by
        intro f fails
        cases released : s.release op with
        | error first =>
            rw [released] at fails
            cases fails
            exact isTie_of_releaseFor released
        | ok s' => rw [released] at fails; cases fails
      cases fixity : op.fixity with
      | infixOp => rw [place_infixOp s fixity] at fails; exact inRelease _ fails
      | prefixOp => rw [place_prefixOp s fixity] at fails; exact inRelease _ fails
      | postfixOp => rw [place_postfixOp s fixity] at fails; cases fails

/-- A reduction that fails reports a clash or an ambiguity. -/
theorem isTie_of_runParts {s : Shunting} {ps : List Part} {stuck : Stuck}
    (fails : s.runParts ps = .error stuck) : stuck.IsTie := by
  induction ps with
  | nil => cases fails
  | cons p ps ih =>
      rw [runParts_cons] at fails
      cases ran : s.runParts ps with
      | error first => rw [ran] at fails; cases fails; exact ih ran
      | ok s' => rw [ran] at fails; exact isTie_of_place fails

end Shunting

end OperatorGrammar
