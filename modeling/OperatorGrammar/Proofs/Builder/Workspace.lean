/-
# Proofs.Builder.Workspace -- what a failing call leaves behind

A call writes to the workspace step by step, and between two writes there is a step that
may fail.  It does not: a judgement asks for roles only that the tokens can take on
(`Adjacency.exists_resolve_of_judge`), so once a token is judged and not rejected, all that
follows goes through (`Holds.receive`).

A workspace holds a builder if its stack leads to the builder's tokens (`Holds`).  Each
call then does the same in both, or fails in both, and a workspace in which it fails is
the one that the call began with (`Holds.perform`).  By induction on the calls this is so
behind any history (`Holds.attemptAll`), and the accepted calls alone lead to the same
workspace (`rejected_without_trace`).
-/
import OperatorGrammar.Builder.Workspace
import OperatorGrammar.Proofs.Builder.Verdicts

namespace OperatorGrammar

set_option autoImplicit false

/-! ## Verdicts can be carried out -/

/-- A verdict can be carried out: both tokens can be given the roles that it asks for. -/
theorem Adjacency.exists_resolve_of_judge {top new : Token} {height : Nat} {flag : Bool}
    {verdict : Verdict} (judged : judge ⟨top, new, height, flag⟩ = .ok verdict) :
    (∀ role, verdict = .acceptAs role → role ≠ new.role ∧ ∃ u, new.resolve role = .ok u) ∧
    ∀ topRole role, verdict = .resolve topRole role →
      (∃ u, top.resolve topRole = .ok u) ∧ ∃ u, new.resolve role = .ok u := by
  constructor
  · rintro role rfl
    have may := acceptAs_of_judge judged
    exact ⟨Role.ne_of_mayBecome may, Token.exists_resolve (Or.inr may)⟩
  · rintro topRole role rfl
    obtain ⟨may, can⟩ := resolve_of_judge judged
    exact ⟨Token.exists_resolve (Or.inr may), Token.exists_resolve can⟩

namespace Workspace

variable {w : Workspace} {b : Builder} {token top u : Token} {below : Stack Token}

/-! ## Workspaces and builders -/

/-- The tokens stand in the arena at these places. -/
abbrev Leads (arena : Array Token) : Stack Nat → Stack Token → Prop :=
  List.Forall₂ fun place token => arena[place]? = some token

/-- The stack of the workspace leads to the tokens of the builder. -/
structure Holds (w : Workspace) (b : Builder) : Prop where
  tokens : Leads w.arena w.stack b.tokens
  nonempty : b.tokens ≠ []
  flag : w.infixAtStart = b.infixAtStart
  stats : w.stats = b.stats
  trace : w.trace = b.trace

theorem holds_fresh : Holds fresh .empty :=
  ⟨.cons rfl .nil, List.cons_ne_nil _ _, rfl, rfl, rfl⟩

/-- What stands in the arena stays there. -/
theorem getElem?_enter {arena : Array Token} {place : Nat} (found : arena[place]? = some token)
    (new : Token) : (arena.push new)[place]? = some token := by
  obtain ⟨bound, -⟩ := Array.getElem?_eq_some_iff.1 found
  rw [Array.getElem?_push, if_neg (by omega)]
  exact found

theorem leads_enter {arena : Array Token} {places : Stack Nat} {tokens : Stack Token}
    (leads : Leads arena places tokens) (new : Token) :
    Leads (arena.push new) (arena.size :: places) (new :: tokens) := by
  apply List.Forall₂.cons
  · exact Array.getElem?_push_size
  · exact leads.imp fun _ _ found => getElem?_enter found new

theorem Holds.height (holds : Holds w b) : w.stack.length = b.tokens.length :=
  holds.tokens.length_eq

theorem Holds.exists_place (holds : Holds w b) (tokens : b.tokens = top :: below) :
    ∃ place rest, w.arena[place]? = some top ∧ Leads w.arena rest below ∧
      w.stack = place :: rest := by
  have leads := holds.tokens
  rw [tokens] at leads
  exact List.forall₂_cons_right_iff.1 leads

theorem Holds.run_top (holds : Holds w b) (tokens : b.tokens = top :: below) :
    Workspace.top.run w = .ok top w := by
  obtain ⟨place, rest, found, -, places⟩ := holds.exists_place tokens
  have latest : (Stack.top? w.stack).bind (w.arena[·]?) = some top := by
    rw [places]
    exact found
  unfold Workspace.top
  rw [EStateM.run_bind, EStateM.run_get]
  simp only [latest]
  rfl

/-- The latest token is decided in both. -/
theorem Holds.resolveTop {role : Role} (holds : Holds w b) (tokens : b.tokens = top :: below)
    (resolved : top.resolve role = .ok u) :
    ∃ w' b', (Workspace.resolveTop role).run w = .ok () w' ∧ b.resolveTop role = .ok b' ∧
      Holds w' b' ∧ b'.tokens = u :: below := by
  obtain ⟨place, rest, -, leads, places⟩ := holds.exists_place tokens
  have ran : (Workspace.resolveTop role).run w = .ok () { w with
      arena := w.arena.push u
      stack := w.arena.size :: rest
      stats := { w.stats with resolutions := w.stats.resolutions + 1 }
      trace := .resolved top role :: w.trace } := by
    unfold Workspace.resolveTop
    rw [EStateM.run_bind, holds.run_top tokens]
    show (demand (top.resolve role) >>= _ : Action Unit).run w = _
    rw [resolved]
    show (repoint w.arena.size >>= _ : Action Unit).run
      { w with arena := w.arena.push u, trace := .resolved top role :: w.trace } = _
    unfold repoint
    rw [places]
    rfl
  have decided := Builder.resolveTop_of_resolve tokens resolved
  refine ⟨_, _, ran, decided, ⟨leads_enter leads u, List.cons_ne_nil _ _, holds.flag, ?_, ?_⟩, rfl⟩
  · simp only [holds.stats]
  · simp only [holds.trace]

/-- Behind a verdict that is no rejection nothing fails: both give the token the same role, and
the workspace holds the builder once its flag is set. -/
theorem Holds.carryOut {verdict : Verdict} {n : Nat} {f : Bool} (holds : Holds w b)
    (tokens : b.tokens = top :: below)
    (judged : Adjacency.judge ⟨top, token, n, f⟩ = .ok verdict)
    (passes : ∀ cause, verdict ≠ .reject cause) :
    ∃ u w' b' top', (Workspace.carryOut token verdict).run w = .ok u w' ∧
      b.carryOut token verdict = .ok (u, b') ∧
      Holds { w' with infixAtStart := verdict = .acceptFlagged } b' ∧
      b'.tokens = top' :: below := by
  obtain ⟨accepts, resolves⟩ := Adjacency.exists_resolve_of_judge judged
  cases verdict with
  | accept =>
      exact ⟨token, w, _, top, rfl, rfl,
        ⟨holds.tokens, holds.nonempty, rfl, holds.stats, holds.trace⟩, tokens⟩
  | acceptFlagged =>
      exact ⟨token, w, _, top, rfl, rfl,
        ⟨holds.tokens, holds.nonempty, rfl, holds.stats, holds.trace⟩, tokens⟩
  | acceptAs role =>
      -- The decision is counted before it is made.
      obtain ⟨changes, u, resolved⟩ := accepts role rfl
      have decided := Builder.resolveNew_of_resolve { b with infixAtStart := false } resolved
      rw [if_neg changes] at decided
      have ran : (Workspace.carryOut token (.acceptAs role)).run w = .ok u { w with
          stats := { w.stats with resolutions := w.stats.resolutions + 1 } } := by
        show (countResolution >>= fun _ => demand (token.resolve role) : Action Token).run w = _
        rw [resolved]
        rfl
      refine ⟨u, _, _, top, ran, decided,
        ⟨holds.tokens, holds.nonempty, rfl, ?_, holds.trace⟩, tokens⟩
      simp only [holds.stats]
  | resolve topRole role =>
      -- By the time the new token gets its role, the one in front has been replaced.
      obtain ⟨⟨top', resolvedTop⟩, u, resolved⟩ := resolves topRole role rfl
      obtain ⟨w₁, b₁, ran₁, decided₁, holds₁, tokens₁⟩ := holds.resolveTop tokens resolvedTop
      have decided := Builder.resolveNew_of_resolve { b₁ with infixAtStart := false } resolved
      have carried : b.carryOut token (.resolve topRole role) =
          Builder.resolveNew { b₁ with infixAtStart := false } token role := by
        rw [Builder.carryOut, decided₁]
        rfl
      by_cases changes : role = token.role
      · have ran : (Workspace.carryOut token (.resolve topRole role)).run w = .ok u w₁ := by
          unfold Workspace.carryOut
          rw [EStateM.run_bind, ran₁, resolved]
          simp only [ne_eq, changes, not_true_eq_false, if_false]
          rfl
        rw [if_pos changes] at decided
        exact ⟨u, w₁, _, top', ran, carried.trans decided,
          ⟨holds₁.tokens, holds₁.nonempty, rfl, holds₁.stats, holds₁.trace⟩, tokens₁⟩
      · have ran : (Workspace.carryOut token (.resolve topRole role)).run w = .ok u { w₁ with
            stats := { w₁.stats with resolutions := w₁.stats.resolutions + 1 } } := by
          unfold Workspace.carryOut
          rw [EStateM.run_bind, ran₁, resolved]
          simp only [ne_eq, changes, not_false_eq_true, if_true]
          rfl
        rw [if_neg changes] at decided
        refine ⟨u, _, _, top', ran, carried.trans decided,
          ⟨holds₁.tokens, holds₁.nonempty, rfl, ?_, holds₁.trace⟩, tokens₁⟩
        simp only [holds₁.stats]
  | reject cause => exact absurd rfl (passes cause)

/-- A run that does what the builder does, and in a workspace of its own if that fails. -/
inductive Simulates {α : Type} (w : Workspace) :
    EStateM.Result Failure Workspace α → Except Failure (α × Builder) → Prop
  | ok {x : α} {w' : Workspace} {b' : Builder} (holds : Holds w' b') :
      Simulates w (.ok x w') (.ok (x, b'))
  /-- The workspace is as it was. -/
  | error (e : Failure) : Simulates w (.error e w) (.error e)

theorem Holds.run_follow (holds : Holds w b) (tokens : b.tokens = top :: below) (token : Token) :
    (Workspace.follow token).run w = .ok (token.follow top) w := by
  cases token with
  | operator o =>
      unfold Workspace.follow
      rw [EStateM.run_bind, holds.run_top tokens]
      rfl
  | _ => rfl

theorem Holds.receive (holds : Holds w b) (token : Token) :
    Simulates w ((Workspace.receive token).run w) (b.receive token) := by
  obtain ⟨top, below, tokens⟩ := List.exists_cons_of_ne_nil holds.nonempty
  have ran : (Workspace.receive token).run w = EStateM.run (do
      let verdict ← demand (Adjacency.judge ⟨top, token, w.stack.length, w.infixAtStart⟩)
      let token ← Workspace.carryOut token verdict
      modify fun w => { w with infixAtStart := verdict = .acceptFlagged }
      Workspace.follow token) w := by
    show (Workspace.top >>= _ : Action Token).run w = _
    rw [EStateM.run_bind, holds.run_top tokens]
  rw [ran, Builder.receive_eq_bind, Builder.top_eq tokens, holds.height, holds.flag]
  show Simulates w _ (Adjacency.judge ⟨top, token, b.tokens.length, b.infixAtStart⟩ >>= _)
  cases judged : Adjacency.judge ⟨top, token, b.tokens.length, b.infixAtStart⟩ with
  | error e => exact .error e
  | ok verdict =>
      by_cases rejects : ∃ cause, verdict = .reject cause
      · obtain ⟨cause, rfl⟩ := rejects
        exact .error _
      · obtain ⟨u, w', b', top', carried, carried', holds', tokens'⟩ :=
          holds.carryOut tokens judged fun cause same => rejects ⟨cause, same⟩
        show Simulates w (EStateM.run (Workspace.carryOut token verdict >>= _) w)
          (b.carryOut token verdict >>= _)
        rw [EStateM.run_bind, carried, carried']
        show Simulates w ((Workspace.follow u).run
          { w' with infixAtStart := verdict = .acceptFlagged }) (Builder.followTop (u, b'))
        rw [holds'.run_follow tokens', Builder.followTop, Builder.top_eq tokens']
        exact .ok holds'

theorem Holds.push (holds : Holds w b) (token : Token) :
    Simulates w ((Workspace.push token).run w) (b.add token >>= fun b => .ok ((), b)) := by
  have ran : (Workspace.push token).run w = match (Workspace.receive token).run w with
      | .ok token w => .ok () { w with
          arena := w.arena.push token
          stack := w.arena.size :: w.stack
          stats := { w.stats with tokens := w.stats.tokens + 1 } }
      | .error e w => .error e w := by
    unfold Workspace.push
    rw [EStateM.run_bind]
    cases (Workspace.receive token).run w <;> rfl
  have received := holds.receive token
  rw [ran, Builder.add]
  generalize (Workspace.receive token).run w = first at received
  generalize b.receive token = second at received
  cases received with
  | error e => exact .error e
  | @ok token w' b' holds' =>
      refine .ok ⟨leads_enter holds'.tokens token, List.cons_ne_nil _ _, holds'.flag, ?_,
        holds'.trace⟩
      simp only [holds'.stats]

/-! ## Calls -/

theorem perform_eq_add (table : Table) (b : Builder) (call : Call) :
    Builder.perform table b call = (call.token table >>= b.add) := by
  cases call with
  | operator name =>
      simp only [Builder.perform, Builder.addOperator, Call.token]
      cases table.find? name with
      | none => rfl
      | some entry =>
          cases plays : entry.role? with
          | none => simp only [plays]; rfl
          | some role => simp only [plays]; rfl
  | group terms =>
      cases terms with
      | nil => rfl
      | cons first rest => cases rest <;> rfl
  | _ => rfl

theorem Holds.perform (holds : Holds w b) (table : Table) (call : Call) :
    Simulates w ((Workspace.perform table call).run w)
      (Builder.perform table b call >>= fun b => .ok ((), b)) := by
  rw [perform_eq_add]
  unfold Workspace.perform
  cases call.token table with
  | error e => exact .error e
  | ok token => exact holds.push token

/-- Call by call, a workspace does what the builder does that it holds, and a call that fails
leaves both as they were. -/
theorem Holds.attempt (holds : Holds w b) (table : Table) (call : Call) :
    Holds (Workspace.attempt table w call).1 (Builder.attempt table b call).1 ∧
      (Workspace.attempt table w call).2 = (Builder.attempt table b call).2 ∧
      ∀ e, (Workspace.attempt table w call).2 = some e →
        (Workspace.attempt table w call).1 = w := by
  have performed := holds.perform table call
  unfold Workspace.attempt Builder.attempt
  generalize (Workspace.perform table call).run w = first at performed
  cases second : Builder.perform table b call with
  | error e =>
      rw [second] at performed
      cases performed
      exact ⟨holds, rfl, fun _ _ => rfl⟩
  | ok b' =>
      rw [second] at performed
      cases performed with
      | ok holds' => exact ⟨holds', rfl, by simp⟩

theorem Holds.attemptAll (holds : Holds w b) (table : Table) (calls : List Call) :
    Holds (Workspace.attemptAll table w calls) (Builder.attemptAll table b calls) := by
  induction calls generalizing w b with
  | nil => exact holds
  | cons call rest ih => exact ih (holds.attempt table call).1

/-! ## Accepted calls -/

theorem Holds.tokens?_eq (holds : Holds w b) : w.tokens? = some b.tokens := by
  have leads := holds.tokens
  unfold tokens?
  generalize w.stack = places at leads ⊢
  generalize b.tokens = tokens at leads ⊢
  induction leads with
  | nil => rfl
  | cons found _ ih => simp [List.mapM_cons, found, ih]

theorem Holds.conclude_eq (holds : Holds w b) : w.conclude = b.conclude := by
  have received := holds.receive .stop
  unfold Workspace.conclude Builder.conclude
  generalize (Workspace.receive .stop).run w = first at received
  generalize b.receive .stop = second at received
  cases received with
  | error e => simp only [holds.trace]
  | ok holds' => simp only [holds'.tokens?_eq, holds'.flag, holds'.stats, holds'.trace]

/-- The accepted calls alone go through one by one, to the same workspace. -/
theorem Holds.run_accepted (holds : Holds w b) (table : Table) (calls : List Call) :
    ((Workspace.accepted table w calls).forM (Workspace.perform table)).run w =
      .ok () (Workspace.attemptAll table w calls) := by
  induction calls generalizing w b with
  | nil => rfl
  | cons call rest ih =>
      obtain ⟨holds', -, unchanged⟩ := holds.attempt table call
      unfold Workspace.accepted
      show _ = EStateM.Result.ok ()
        (Workspace.attemptAll table (Workspace.attempt table w call).1 rest)
      unfold Workspace.attempt at holds' unchanged ⊢
      cases ran : (Workspace.perform table call).run w with
      | ok _ next =>
          rw [ran] at holds'
          show (Workspace.perform table call >>= fun _ => _ : Action Unit).run w = _
          rw [EStateM.run_bind, ran]
          exact ih holds'
      | error e next =>
          rw [ran] at unchanged
          obtain rfl : next = w := unchanged e rfl
          exact ih holds

theorem attemptAll_of_run {w' : Workspace} {table : Table} {calls : List Call}
    (ran : (calls.forM (perform table)).run w = .ok () w') : attemptAll table w calls = w' := by
  induction calls generalizing w with
  | nil => cases ran; rfl
  | cons call rest ih =>
      replace ran : (perform table call >>= fun _ =>
        rest.forM (perform table) : Action Unit).run w = .ok () w' := ran
      rw [EStateM.run_bind] at ran
      show attemptAll table (attempt table w call).1 rest = w'
      unfold attempt
      cases first : (perform table call).run w with
      | ok _ next =>
          rw [first] at ran
          exact ih ran
      | error e next =>
          rw [first] at ran
          cases ran

/-- Whatever was asked of a builder, a call that fails leaves the arena, the stack, the flag,
the counters and the trace exactly as it found them.  The accepted calls alone go through and
lead to the same workspace, so counters and end are those of a builder that was given no
other calls. -/
theorem rejected_without_trace (table : Table) (calls : List Call) :
    (∀ call e, (attempt table (attemptAll table fresh calls) call).2 = some e →
      (attempt table (attemptAll table fresh calls) call).1 = attemptAll table fresh calls) ∧
    ((accepted table fresh calls).forM (perform table)).run fresh =
      .ok () (attemptAll table fresh calls) ∧
    (attemptAll table fresh calls).stats =
      (Builder.attemptAll table .empty (accepted table fresh calls)).stats ∧
    (attemptAll table fresh calls).finish =
      (Builder.attemptAll table .empty (accepted table fresh calls)).finish := by
  have reached := holds_fresh.attemptAll table calls
  have ran := holds_fresh.run_accepted table calls
  have alone := holds_fresh.attemptAll table (accepted table fresh calls)
  rw [attemptAll_of_run ran] at alone
  refine ⟨fun call e => (reached.attempt table call).2.2 e, ran, alone.stats, ?_⟩
  rw [finish, alone.conclude_eq]
  rfl

end Workspace

end OperatorGrammar
