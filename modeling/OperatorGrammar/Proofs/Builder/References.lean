/-
# Proofs.Builder.References -- places and references stay in order

The places on the stack of a workspace fall towards the base, so they are distinct, and all of
them lie in the arena (`Workspace.Falling`).  Every single write keeps this, so it holds wherever
a call breaks off (`KeepsPlaces`).

An operator keeps a reference to the operator of the token below it (`IndexedToken.Follows`).  It
is recorded when the operator comes; what is decided later is the latest token alone, and neither
that token's own reference nor the ones below change with it (`follows_add`).
-/
import OperatorGrammar.Proofs.Builder.Indexed
import OperatorGrammar.Proofs.Builder.Workspace

namespace OperatorGrammar

set_option autoImplicit false

/-! ## Places -/

namespace Workspace

/-- From the end of the arena to the base of the stack, places fall. -/
def Falling (w : Workspace) : Prop := (w.arena.size :: w.stack).Pairwise (· > ·)

theorem falling_fresh : fresh.Falling := by
  simp [Falling, fresh]

theorem Falling.nodup {w : Workspace} (falling : w.Falling) : w.stack.Nodup :=
  (List.pairwise_cons.1 falling).2.imp Nat.ne_of_gt

/-- The workspace that a run leaves, also if it fails. -/
def left {α : Type} : EStateM.Result Failure Workspace α → Workspace
  | .ok _ w => w
  | .error _ w => w

/-- A run of the action keeps places in order, also if it fails. -/
def KeepsPlaces {α : Type} (action : Action α) : Prop :=
  ∀ w : Workspace, w.Falling → (left (action.run w)).Falling

variable {α β : Type}

theorem keepsPlaces_pure (x : α) : KeepsPlaces (pure x) := fun _ falling => falling

theorem keepsPlaces_throw (e : Failure) : KeepsPlaces (throw e : Action α) :=
  fun _ falling => falling

theorem KeepsPlaces.bind {first : Action α} {next : α → Action β} (keeps : KeepsPlaces first)
    (keeps' : ∀ x, KeepsPlaces (next x)) : KeepsPlaces (first >>= next) := by
  intro w falling
  have between := keeps w falling
  rw [EStateM.run_bind]
  cases ran : first.run w with
  | ok x w' =>
      rw [ran] at between
      exact keeps' x w' between
  | error e w' =>
      rw [ran] at between
      exact between

theorem keepsPlaces_get : KeepsPlaces (get : Action Workspace) := fun _ falling => falling

theorem keepsPlaces_modify {f : Workspace → Workspace} (arena : ∀ w, (f w).arena = w.arena)
    (stack : ∀ w, (f w).stack = w.stack) : KeepsPlaces (modify f : Action Unit) := by
  intro w falling
  show (f w).Falling
  rw [Falling, arena, stack]
  exact falling

theorem keepsPlaces_demand (read : Except Failure α) : KeepsPlaces (demand read) := by
  cases read with
  | ok x => exact keepsPlaces_pure x
  | error e => exact keepsPlaces_throw e

theorem keepsPlaces_top : KeepsPlaces top := by
  refine keepsPlaces_get.bind fun w => ?_
  split
  · exact keepsPlaces_pure _
  · exact keepsPlaces_throw _

/-- The end of the arena is above all places. -/
theorem pairwise_end {size : Nat} {places : Stack Nat}
    (falling : (size :: places).Pairwise (· > ·)) :
    ((size + 1) :: size :: places).Pairwise (· > ·) := by
  refine List.pairwise_cons.2 ⟨fun place member => ?_, falling⟩
  rcases List.mem_cons.1 member with rfl | below
  · exact Nat.lt_succ_self _
  · exact Nat.lt_succ_of_lt ((List.pairwise_cons.1 falling).1 place below)

/-- So a token may be pushed from there. -/
theorem keepsPlaces_enter_push (token : Token) {f : Nat → Workspace → Workspace}
    (arena : ∀ place w, (f place w).arena = w.arena)
    (stack : ∀ place w, (f place w).stack = place :: w.stack) :
    KeepsPlaces (enter token >>= fun place => modify (f place)) := by
  intro w falling
  show (f w.arena.size { w with arena := w.arena.push token }).Falling
  rw [Falling, arena, stack]
  show ((w.arena.push token).size :: w.arena.size :: w.stack).Pairwise (· > ·)
  rw [Array.size_push]
  exact pairwise_end falling

/-- And it may take the place of the top; without a top, it is entered for nothing. -/
theorem keepsPlaces_enter_repoint (token : Token) : KeepsPlaces (enter token >>= repoint) := by
  rintro ⟨arena, stack, flag, stats, trace⟩ falling
  cases stack with
  | nil => exact List.pairwise_singleton _ _
  | cons place rest =>
      have behind : (arena.size :: rest).Pairwise (· > ·) :=
        falling.sublist ((List.sublist_cons_self place rest).cons_cons arena.size)
      show ((arena.push token).size :: arena.size :: rest).Pairwise (· > ·)
      rw [Array.size_push]
      exact pairwise_end behind

theorem keepsPlaces_count : KeepsPlaces countResolution :=
  keepsPlaces_modify (fun _ => rfl) fun _ => rfl

theorem keepsPlaces_resolveTop (role : Role) : KeepsPlaces (resolveTop role) := by
  have logs : ∀ event, KeepsPlaces (log event) := fun _ =>
    keepsPlaces_modify (fun _ => rfl) fun _ => rfl
  refine keepsPlaces_top.bind fun token => (keepsPlaces_demand _).bind fun resolved => ?_
  refine (logs _).bind fun _ => ?_
  rw [← bind_assoc]
  exact (keepsPlaces_enter_repoint resolved).bind fun _ => keepsPlaces_count

theorem keepsPlaces_carryOut (token : Token) (verdict : Verdict) :
    KeepsPlaces (carryOut token verdict) := by
  have resolves : ∀ role, KeepsPlaces (demand (token.resolve role)) := fun role =>
    keepsPlaces_demand _
  cases verdict with
  | accept => exact keepsPlaces_pure _
  | acceptFlagged => exact keepsPlaces_pure _
  | acceptAs role => exact keepsPlaces_count.bind fun _ => resolves role
  | resolve topRole role =>
      refine (keepsPlaces_resolveTop topRole).bind fun _ => ?_
      split
      · exact keepsPlaces_count.bind fun _ => resolves role
      · exact resolves role
  | reject cause => exact keepsPlaces_throw _

theorem keepsPlaces_follow (token : Token) : KeepsPlaces (follow token) := by
  cases token with
  | operator o => exact keepsPlaces_top.bind fun _ => keepsPlaces_pure _
  | _ => exact keepsPlaces_pure _

theorem keepsPlaces_receive (token : Token) : KeepsPlaces (receive token) := by
  refine keepsPlaces_get.bind fun w => keepsPlaces_top.bind fun top => ?_
  refine (keepsPlaces_demand _).bind fun verdict => (keepsPlaces_carryOut _ _).bind fun token => ?_
  refine KeepsPlaces.bind ?_ fun _ => keepsPlaces_follow token
  exact keepsPlaces_modify (fun _ => rfl) fun _ => rfl

theorem keepsPlaces_perform (table : Table) (call : Call) : KeepsPlaces (perform table call) := by
  refine (keepsPlaces_demand _).bind fun token => (keepsPlaces_receive token).bind fun token => ?_
  exact keepsPlaces_enter_push token (fun _ _ => rfl) fun _ _ => rfl

theorem Falling.attemptAll {w : Workspace} (falling : w.Falling) (table : Table)
    (calls : List Call) : (attemptAll table w calls).Falling := by
  induction calls generalizing w with
  | nil => exact falling
  | cons call rest ih =>
      have kept := keepsPlaces_perform table call w falling
      have attempted : (attempt table w call).1 = left ((perform table call).run w) := by
        unfold attempt
        cases (perform table call).run w <;> rfl
      rw [← attempted] at kept
      exact ih kept

end Workspace

/-! ## Operators in front -/

namespace IndexedToken

variable {t u below : IndexedToken} {wanted : Role}

/-- An operator keeps the reference to the operator of the token below it. -/
def Follows (t below : IndexedToken) : Prop :=
  ∀ index role prev, t = .operator index role prev → prev = below.formRef?

theorem follows_follow (t below : IndexedToken) : (t.follow below).Follows below := by
  rintro index role prev same
  cases t <;> cases same
  rfl

/-- A decision about a token is none about the token below it. -/
theorem Follows.resolve (follows : t.Follows below) (resolved : t.resolve wanted = .ok u) :
    u.Follows below := by
  unfold IndexedToken.resolve at resolved
  split at resolved
  · cases resolved
    exact follows
  · split at resolved
    · split at resolved
      · cases resolved
        rintro _ _ _ ⟨⟩
        exact follows _ _ _ rfl
      · cases resolved
    · cases resolved

end IndexedToken

namespace IndexedBuilder

open IndexedToken Builder

variable {table : Table} {b b' : IndexedBuilder} {top token joined u : IndexedToken}
  {below : Stack IndexedToken}

theorem of_bind_top {α : Type} {f : IndexedToken → Except Failure α} {y : α}
    (tokens : b.tokens = top :: below) (bound : b.top >>= f = .ok y) : f top = .ok y := by
  rw [IndexedBuilder.top, tokens] at bound
  exact bound

/-- A verdict is carried out on the latest token at most. -/
theorem exists_front_of_carryOut {verdict : Verdict} (tokens : b.tokens = top :: below)
    (carried : b.carryOut table token verdict = .ok (joined, b')) :
    ∃ front, b'.tokens = front :: below ∧ (front = top ∨ ∃ role, top.resolve role = .ok front) := by
  have decides : ∀ {c : IndexedBuilder} {role : Role},
      c.resolveNew token role = .ok (joined, b') → b'.tokens = c.tokens := by
    intro c role decided
    obtain ⟨_, -, same⟩ := exists_of_bind decided
    cases same
    rfl
  cases verdict with
  | accept =>
      cases carried
      exact ⟨top, tokens, Or.inl rfl⟩
  | acceptFlagged =>
      cases carried
      exact ⟨top, tokens, Or.inl rfl⟩
  | acceptAs role => exact ⟨top, (decides carried).trans tokens, Or.inl rfl⟩
  | resolve topRole role =>
      obtain ⟨c, decided, carried⟩ := exists_of_bind carried
      obtain ⟨front, resolved, decided⟩ := exists_of_bind (of_bind_top tokens decided)
      obtain ⟨replaced, swapped, same⟩ := exists_of_bind decided
      rw [tokens] at swapped
      cases swapped
      cases same
      exact ⟨front, decides carried, Or.inr ⟨topRole, resolved⟩⟩
  | reject cause => cases carried

theorem follows_add (linked : b.tokens.IsChain Follows) (added : b.add table token = .ok b') :
    b'.tokens.IsChain Follows := by
  obtain ⟨⟨u, c⟩, received, same⟩ := exists_of_bind added
  cases same
  cases tokens : b.tokens with
  | nil =>
      obtain ⟨latest, isTop, -⟩ := exists_of_bind received
      rw [IndexedBuilder.top, tokens] at isTop
      cases isTop
  | cons top below =>
      obtain ⟨verdict, -, received⟩ := exists_of_bind (of_bind_top tokens received)
      obtain ⟨⟨joined, c'⟩, carried, followed⟩ := exists_of_bind received
      obtain ⟨front, tokens', kept⟩ := exists_front_of_carryOut tokens carried
      cases of_bind_top tokens' followed
      rw [tokens, List.isChain_cons] at linked
      show (joined.follow front :: c'.tokens).IsChain Follows
      rw [tokens', List.isChain_cons_cons, List.isChain_cons]
      refine ⟨follows_follow joined front, fun next first => ?_, linked.2⟩
      have before := linked.1 next first
      rcases kept with rfl | ⟨role, resolved⟩
      · exact before
      · exact before.resolve resolved

theorem exists_add_of_perform {call : Call} (performed : b.perform table call = .ok b') :
    ∃ token, b.add table token = .ok b' := by
  cases call with
  | operator name =>
      simp only [perform, addOperator] at performed
      split at performed
      · cases performed
      · split at performed
        · exact ⟨_, performed⟩
        · cases performed
  | group terms =>
      match terms with
      | [] => cases performed
      | [_] | _ :: _ :: _ => exact ⟨_, performed⟩
  | _ => exact ⟨_, performed⟩

/-- Behind any calls every operator keeps the reference to the operator below it. -/
theorem follows_attemptAll (linked : b.tokens.IsChain Follows) (calls : List Call) :
    (attemptAll table b calls).tokens.IsChain Follows := by
  induction calls generalizing b with
  | nil => exact linked
  | cons call rest ih =>
      refine ih ?_
      show (b.attempt table call).1.tokens.IsChain Follows
      unfold attempt
      cases performed : b.perform table call with
      | error e => exact linked
      | ok next =>
          obtain ⟨token, added⟩ := exists_add_of_perform performed
          exact follows_add linked added

end IndexedBuilder

end OperatorGrammar
