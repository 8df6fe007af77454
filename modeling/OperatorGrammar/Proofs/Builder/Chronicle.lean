/-
# Proofs.Builder.Chronicle -- a role is decided once

A chronicle is a builder with the roles that each of its tokens has played so far: a token
arrives in the role that the table declares for its name, and after every call that is carried
out, and again at the end, the roles of all tokens are noted (`Chronicle.attempt`,
`Chronicle.ended`).

One step gives a role to the arriving token and perhaps another one to the token in front, which
has kept its declared role until then, because only undecided roles are decided behind the start
(`Noted.resolve`).  So a history changes once or not at all, and the changes of all histories add
up to the counter (`Kept`).  At the end there is one exception (`resolved_once`): an operator that
may be infix or prefix and is the only token was made prefix when it came, and becomes an atom.
-/
import Mathlib.Algebra.GroupWithZero.Nat
import OperatorGrammar.Proofs.Builder.Steps
import OperatorGrammar.Proofs.Builder.Workspace

namespace OperatorGrammar

set_option autoImplicit false

/-- The role that the table declares for the name of a token. -/
def Token.declared? : Token → Option Role
  | .operator o => o.entry.role?
  | t => some t.role

/-- A token that does not play its declared role. -/
def Token.recast (t : Token) : Bool := t.declared? ≠ some t.role

theorem Role.decided_of_mayBecome {role wanted : Role} (may : role.mayBecome wanted = true) :
    ¬ (wanted = .infixOrPrefix ∨ wanted = .infixOrPostfix) := by
  rintro (rfl | rfl) <;> cases role <;> cases may

theorem Role.undecided_of_mayBecome {role wanted : Role} (may : role.mayBecome wanted = true)
    (notAtom : wanted ≠ .zerofix) : role = .infixOrPrefix ∨ role = .infixOrPostfix := by
  revert may
  cases role <;> cases wanted <;> first | exact absurd rfl notAtom | simp [Role.mayBecome]

theorem Entry.role?_ne_stop (e : Entry) : e.role? ≠ some .stop := by
  unfold Entry.role?
  split <;> simp

/-- How often the role changes in a history, the latest role first. -/
def changes : List Role → Nat
  | role :: earlier :: rest => earlier.changed role + changes (earlier :: rest)
  | _ => 0

structure Chronicle where
  builder : Builder
  /-- What the tokens of the builder have played, the latest role first. -/
  histories : Stack (List Role)

namespace Chronicle

open Builder

/-- The roles of the tokens go in front of their histories. -/
def note (tokens : Stack Token) (histories : Stack (List Role)) : Stack (List Role) :=
  List.zipWith (fun t history => t.role :: history) tokens histories

def empty : Chronicle := { builder := .empty, histories := [[.start]] }

/-- Carries out a call and notes the roles, or leaves the chronicle as it is. -/
def attempt (table : Table) (c : Chronicle) (call : Call) : Chronicle :=
  match call.token table with
  | .error _ => c
  | .ok token =>
      match c.builder.add token with
      | .error _ => c
      | .ok next => { builder := next, histories := note next.tokens ([token.role] :: c.histories) }

/-- The chronicle of a sequence of attempts. -/
def attemptAll (table : Table) (c : Chronicle) (calls : List Call) : Chronicle :=
  calls.foldl (attempt table) c

/-- The chronicle behind the stop mark, from where the reduction starts. -/
def ended (c : Chronicle) : Except Failure Chronicle := do
  let (_, last) ← c.builder.receive .stop
  return { builder := last, histories := note last.tokens c.histories }

/-- The only item is the name of an operator that may be infix or prefix. -/
def OpenAlone (tokens : Stack Token) : Prop :=
  ∃ o, tokens = [.operator o, .start] ∧ o.entry.role? = some .infixOrPrefix

variable {table : Table} {c : Chronicle} {t u top token front joined : Token}
  {below : Stack Token} {history : List Role} {histories : Stack (List Role)} {b b' : Builder}

/-! ## Builders of chronicles -/

theorem builder_attempt (table : Table) (c : Chronicle) (call : Call) :
    (c.attempt table call).builder = (Builder.attempt table c.builder call).1 := by
  unfold attempt Builder.attempt
  rw [Workspace.perform_eq_add]
  cases call.token table with
  | error e => rfl
  | ok token =>
      have opened : (Except.ok token >>= c.builder.add) = c.builder.add token := rfl
      rw [opened]
      cases added : c.builder.add token <;> simp only [added]

/-- To keep a chronicle changes nothing for the builder. -/
theorem builder_attemptAll (table : Table) (c : Chronicle) (calls : List Call) :
    (c.attemptAll table calls).builder = Builder.attemptAll table c.builder calls := by
  induction calls generalizing c with
  | nil => rfl
  | cons call rest ih =>
      show ((c.attempt table call).attemptAll table rest).builder = _
      rw [ih, builder_attempt]
      rfl

/-! ## Histories -/

/-- What a history says about its token, as long as the sequence goes on. -/
structure Noted (t : Token) (history : List Role) : Prop where
  latest : history.head? = some t.role
  declared : history.getLast? = t.declared?
  changes_eq : changes history = if t.recast then 1 else 0
  /-- Nothing becomes undecided. -/
  undecided : t.role = .infixOrPrefix ∨ t.role = .infixOrPostfix → t.recast = false

theorem changes_cons (latest : history.head? = some t.role) (role : Role) :
    changes (role :: history) = t.role.changed role + changes history := by
  obtain ⟨rest, rfl⟩ := List.head?_eq_some_iff.1 latest
  rfl

theorem getLast?_cons (latest : history.head? = some t.role) (role : Role) :
    (role :: history).getLast? = history.getLast? := by
  obtain ⟨rest, rfl⟩ := List.head?_eq_some_iff.1 latest
  exact List.getLast?_cons_cons

theorem noted_arriving (declared : t.declared? = some t.role) : Noted t [t.role] := by
  have same : t.recast = false := by simp [Token.recast, declared]
  exact ⟨rfl, declared.symm, by rw [same]; rfl, fun _ => same⟩

theorem Noted.again (noted : Noted t history) : Noted t (t.role :: history) where
  latest := rfl
  declared := (getLast?_cons noted.latest t.role).trans noted.declared
  changes_eq := by
    rw [changes_cons noted.latest, Role.changed_self, Nat.zero_add]
    exact noted.changes_eq
  undecided := noted.undecided

/-- A token is given a role; if that is another one, then the token plays its declared role. -/
theorem Noted.resolve (noted : Noted t history) (resolved : t.resolve u.role = .ok u)
    (original : u.role ≠ t.role → t.recast = false) : Noted u (u.role :: history) := by
  by_cases same : u.role = t.role
  · obtain rfl := Token.eq_of_resolve resolved same
    exact noted.again
  · obtain ⟨may, o, rfl, turned⟩ := Token.exists_operator_of_resolve resolved same
    have declared : u.declared? = (Token.operator o).declared? := by rw [turned]; rfl
    have plays : (Token.operator o).declared? = some (Token.operator o).role := by
      simpa [Token.recast] using original same
    have differs : u.recast = true := by
      simpa [Token.recast, declared, plays] using Ne.symm same
    refine ⟨rfl, (getLast?_cons noted.latest u.role).trans (noted.declared.trans declared.symm),
      ?_, fun undecided => absurd undecided (Role.decided_of_mayBecome may)⟩
    rw [changes_cons noted.latest, Role.changed_of_ne same, noted.changes_eq, original same,
      differs]
    rfl

theorem Noted.follow (noted : Noted t history) (top : Token) : Noted (t.follow top) history := by
  have role := t.role_follow top
  have declared : (t.follow top).declared? = t.declared? := by cases t <;> rfl
  have recast : (t.follow top).recast = t.recast := by rw [Token.recast, declared, role]; rfl
  exact ⟨role ▸ noted.latest, declared ▸ noted.declared, recast ▸ noted.changes_eq,
    role ▸ recast ▸ noted.undecided⟩

theorem forall₂_note (noted : List.Forall₂ Noted below histories) :
    List.Forall₂ Noted below (note below histories) := by
  induction noted with
  | nil => exact .nil
  | cons first _ ih => exact .cons first.again ih

/-- To note the roles again is no change. -/
theorem sum_note (noted : List.Forall₂ Noted below histories) :
    ((note below histories).map changes).sum = (histories.map changes).sum := by
  induction noted with
  | nil => rfl
  | @cons t history _ _ first _ ih =>
      show changes (t.role :: history) + _ = changes history + _
      rw [changes_cons first.latest, Role.changed_self, Nat.zero_add]
      exact congrArg (changes history + ·) ih

/-- The sum of the changes is the number of tokens that do not play their declared role. -/
theorem sum_changes (noted : List.Forall₂ Noted below histories) :
    (histories.map changes).sum = below.countP Token.recast := by
  induction noted with
  | nil => rfl
  | @cons t history _ _ first _ ih =>
      show changes history + _ = _
      rw [first.changes_eq, List.countP_cons, Nat.add_comm]
      exact congrArg (· + _) ih

theorem changes_le_one (noted : List.Forall₂ Noted below histories) :
    ∀ history ∈ histories, changes history ≤ 1 := by
  induction noted with
  | nil => simp
  | @cons t history _ _ first _ ih =>
      refine List.forall_mem_cons.2 ⟨?_, ih⟩
      rw [first.changes_eq]
      split <;> decide

/-! ## Chronicles in progress -/

/-- What holds of the tokens, the histories and the counter as long as the sequence goes on. -/
structure Kept (tokens : Stack Token) (histories : Stack (List Role)) (resolutions : Nat) :
    Prop where
  noted : List.Forall₂ Noted tokens histories
  base : tokens.getLast? = some .start
  total : (histories.map changes).sum = resolutions
  /-- A token that is alone plays its declared role, or the one it was given on arrival. -/
  alone : ∀ t, tokens = [t, .start] → ∃ declared, t.declared? = some declared ∧
    histories.head? = some [t.role, declared] ∧
    (declared = .infixOrPrefix → t.role = .prefixOp) ∧
    (declared ≠ .infixOrPrefix → t.role = declared ∨ t.role = .zerofix)

/-- What holds of a chronicle as long as the sequence goes on. -/
def Sound (c : Chronicle) : Prop := Kept c.builder.tokens c.histories c.builder.stats.resolutions

theorem Sound.exists_cons (sound : Sound c) : ∃ top below, c.builder.tokens = top :: below := by
  refine List.exists_cons_of_ne_nil fun none => ?_
  have base := sound.base
  rw [none] at base
  cases base

theorem sound_empty : Sound empty where
  noted := .cons (noted_arriving rfl) .nil
  base := rfl
  total := rfl
  alone := by simp [empty, Builder.empty]

/-- A token in front that is decided and does not become an atom plays its declared role. -/
theorem Noted.original (noted : Noted top history) (step : Step b top below token front joined b')
    (notAtom : front.role ≠ .zerofix) (differs : front.role ≠ top.role) : top.recast = false := by
  obtain ⟨may, -⟩ := Token.exists_operator_of_resolve step.front_eq differs
  exact noted.undecided (Role.undecided_of_mayBecome may notAtom)

/-- A step in the middle of the sequence. -/
theorem Kept.step (kept : Kept (top :: below) histories b.stats.resolutions)
    (step : Step b top below token front joined b') (declared : token.declared? = some token.role)
    (goesOn : token.role ≠ .stop) :
    Kept (joined.follow front :: front :: below)
      (note (joined.follow front :: front :: below) ([token.role] :: histories))
      b'.stats.resolutions := by
  obtain ⟨history, rest, first, others, rfl⟩ := List.forall₂_cons_left_iff.1 kept.noted
  have stays : Noted front (front.role :: history) := first.resolve step.front_eq fun differs =>
    first.original step
      (fun turns => goesOn (step.outcome.alone_of_zerofix differs turns).2) differs
  have arrived : Noted (joined.follow front) [joined.role, token.role] :=
    ((noted_arriving declared).resolve step.joined_eq fun _ => by
      simp [Token.recast, declared]).follow front
  have histories_eq : note (joined.follow front :: front :: below)
      ([token.role] :: history :: rest) =
        [joined.role, token.role] :: (front.role :: history) :: note below rest := by
    rw [← Token.role_follow joined front]
    rfl
  rw [histories_eq]
  refine ⟨.cons arrived (.cons stays (forall₂_note others)), ?_, ?_, fun t alone => ?_⟩
  · rw [List.getLast?_cons_cons]
    have base := kept.base
    cases below with
    | nil =>
        cases base
        rw [← Token.eq_of_resolve_of_ne step.front_eq (by simp)]
        rfl
    | cons t rest => simpa only [List.getLast?_cons_cons] using base
  · rw [step.resolutions_eq, ← kept.total]
    simp only [List.map_cons, List.sum_cons, changes_cons first.latest, sum_note others, changes]
    omega
  · injection alone with same behind
    injection behind with front_eq below_eq
    subst same front_eq below_eq
    cases kept.base
    obtain ⟨opens, others⟩ := step.outcome.at_start
    rw [Token.role_follow]
    exact ⟨token.role, arrived.declared.symm, rfl, opens, others⟩

/-! ## Calls -/

/-- A token arrives in its declared role. -/
theorem declared_of_token {call : Call} (arrives : call.token table = .ok token) :
    token.declared? = some token.role ∧ token.role ≠ .stop := by
  cases call with
  | operator name =>
      simp only [Call.token] at arrives
      split at arrives
      · split at arrives
        · rename_i role plays
          cases arrives
          exact ⟨plays, fun stops => Entry.role?_ne_stop _ (plays.trans (congrArg some stops))⟩
        · cases arrives
      · cases arrives
  | group terms =>
      obtain _ | ⟨first, _ | ⟨second, rest⟩⟩ := terms
      · cases arrives
      all_goals
        cases arrives
        exact ⟨rfl, by simp [Token.role]⟩
  | _ =>
      cases arrives
      exact ⟨rfl, by simp [Token.role]⟩

theorem Sound.attempt (sound : Sound c) (table : Table) (call : Call) :
    Sound (c.attempt table call) := by
  unfold Chronicle.attempt
  cases arrives : call.token table with
  | error e => exact sound
  | ok token =>
      obtain ⟨declared, goesOn⟩ := declared_of_token arrives
      simp only
      cases added : c.builder.add token with
      | error e => exact sound
      | ok next =>
          obtain ⟨⟨u, b⟩, received, same⟩ := exists_of_bind added
          cases same
          obtain ⟨top, below, tokens⟩ := sound.exists_cons
          obtain ⟨front, joined, step, rfl⟩ := exists_step tokens received
          have kept : Kept (top :: below) c.histories c.builder.stats.resolutions := tokens ▸ sound
          have stepped := kept.step step declared goesOn
          rw [← step.tokens_eq] at stepped
          exact stepped

theorem Sound.attemptAll (sound : Sound c) (table : Table) (calls : List Call) :
    Sound (c.attemptAll table calls) := by
  induction calls generalizing c with
  | nil => exact sound
  | cons call rest ih => exact ih (sound.attempt table call)

/-! ## The end -/

theorem declared_resolve (resolved : t.resolve u.role = .ok u) : u.declared? = t.declared? := by
  by_cases same : u.role = t.role
  · rw [Token.eq_of_resolve resolved same]
  · obtain ⟨-, o, rfl, turned⟩ := Token.exists_operator_of_resolve resolved same
    rw [turned]
    rfl

/-- In front of the stop mark the token in front is decided for the first time, unless it is an
operator alone that may be infix or prefix. -/
theorem Kept.original (kept : Kept (top :: below) histories b.stats.resolutions)
    (tokens : b.tokens = top :: below) (step : Step b top below .stop front joined b')
    (others : ¬ OpenAlone (front :: below)) (differs : front.role ≠ top.role) :
    top.recast = false := by
  obtain ⟨history, rest, first, -, rfl⟩ := List.forall₂_cons_left_iff.1 kept.noted
  by_cases turns : front.role = .zerofix
  · have sole := of_decide_eq_true (step.outcome.alone_of_zerofix differs turns).1
    obtain ⟨base, rfl⟩ : ∃ base, below = [base] := by
      rw [tokens] at sole
      exact List.length_eq_one_iff.1 (Nat.succ.inj sole)
    cases kept.base
    obtain ⟨declared, same, -, opens, plays⟩ := kept.alone top rfl
    by_cases isOpen : declared = .infixOrPrefix
    · obtain ⟨-, o, rfl, turned⟩ := Token.exists_operator_of_resolve step.front_eq differs
      refine absurd ⟨_, by rw [turned], ?_⟩ others
      exact same.trans (congrArg some isOpen)
    · rcases plays isOpen with plays | atom
      · simp [Token.recast, same, plays]
      · exact absurd (turns.trans atom.symm) differs
  · exact first.original step turns differs

/-- Behind the stop mark every role was decided once or not at all. -/
theorem Kept.stop (kept : Kept (top :: below) histories b.stats.resolutions)
    (tokens : b.tokens = top :: below) (step : Step b top below .stop front joined b')
    (others : ¬ OpenAlone (front :: below)) :
    List.Forall₂ Noted (front :: below) (note (front :: below) histories) ∧
      ((note (front :: below) histories).map changes).sum = b'.stats.resolutions := by
  obtain ⟨history, rest, first, behind, rfl⟩ := List.forall₂_cons_left_iff.1 kept.noted
  have decided := first.resolve step.front_eq fun differs =>
    kept.original tokens step others differs
  refine ⟨.cons decided (forall₂_note behind), ?_⟩
  obtain rfl : Token.stop = joined := Token.eq_of_resolve_of_ne step.joined_eq (by simp)
  rw [step.resolutions_eq, ← kept.total, Role.changed_self, Nat.add_zero]
  show (changes (front.role :: history) :: (note below rest).map changes).sum = _
  rw [List.sum_cons, changes_cons first.latest, sum_note behind, List.map_cons, List.sum_cons]
  omega

/-- An operator alone that may be infix or prefix is decided on arrival and at the end. -/
theorem Kept.stop_openAlone (kept : Kept (top :: below) histories b.stats.resolutions)
    (tokens : b.tokens = top :: below) (step : Step b top below .stop front joined b')
    (openAlone : OpenAlone (front :: below)) :
    (note (front :: below) histories).head? = some [.zerofix, .prefixOp, .infixOrPrefix] ∧
      b'.stats.resolutions = 2 ∧ (front :: below).countP Token.recast = 1 := by
  obtain ⟨o, same, isOpen⟩ := openAlone
  injection same with front_eq below_eq
  subst below_eq
  have named : top.declared? = some .infixOrPrefix := by
    rw [← declared_resolve step.front_eq, front_eq]
    exact isOpen
  obtain ⟨declared, plays, head, opens, -⟩ := kept.alone top rfl
  obtain rfl : .infixOrPrefix = declared := Option.some.inj (named.symm.trans plays)
  have wasPrefix := opens rfl
  have outcome := step.outcome
  rw [tokens, wasPrefix] at outcome
  have becomesAtom : front.role = .zerofix := outcome.prefix_stop
  obtain ⟨history, rest, -, behind, rfl⟩ := List.forall₂_cons_left_iff.1 kept.noted
  obtain rfl : history = [top.role, .infixOrPrefix] := Option.some.inj head
  obtain ⟨start, _, started, none, rfl⟩ := List.forall₂_cons_left_iff.1 behind
  cases none
  obtain rfl : Token.stop = joined := Token.eq_of_resolve_of_ne step.joined_eq (by simp)
  refine ⟨?_, ?_, ?_⟩
  · show some [front.role, top.role, .infixOrPrefix] = _
    rw [becomesAtom, wasPrefix]
  · have unchanged : changes start = 0 := started.changes_eq
    rw [step.resolutions_eq, ← kept.total, wasPrefix, becomesAtom]
    simp [changes, Role.changed, unchanged, Token.role]
  · have recast : front.recast = true := by
      simp [Token.recast, declared_resolve step.front_eq, named, becomesAtom]
    rw [List.countP_cons_of_pos recast]
    rfl

/-- A term is reported with the counters of the builder that the reduction started from. -/
theorem built_of_reduce {term : Term} (built : b.reduce.result = .ok term) :
    ∃ moves, b.reduce.trace.head? = some (.built term { b.stats with moves }) := by
  unfold reduce at built ⊢
  cases symbols : b.symbols with
  | error e => simp [symbols] at built
  | ok symbols' =>
      simp only [symbols] at built ⊢
      cases ran : Shunting.run {} symbols' with
      | error stuck => simp [ran] at built
      | ok s =>
          simp only [ran] at built ⊢
          cases assembled : Symbol.assemble s.finish with
          | error e => simp [assembled] at built
          | ok term' =>
              simp only [assembled, Except.ok.injEq] at built ⊢
              subst built
              exact ⟨s.moves, rfl⟩

/-- A history runs from the declared role to the present one. -/
def Spans (t : Token) (history : List Role) : Prop :=
  history.head? = some t.role ∧ history.getLast? = t.declared?

theorem Kept.spans (kept : Kept (top :: below) histories b.stats.resolutions)
    (step : Step b top below token front joined b') :
    List.Forall₂ Spans (front :: below) (note (front :: below) histories) := by
  obtain ⟨history, rest, first, behind, rfl⟩ := List.forall₂_cons_left_iff.1 kept.noted
  refine .cons ⟨rfl, ?_⟩ ((forall₂_note behind).imp fun _ _ noted => ⟨noted.latest, noted.declared⟩)
  rw [getLast?_cons first.latest, first.declared, declared_resolve step.front_eq]

/-- How often roles were decided once the end is accepted: once or not at all, unless an operator
that may be infix or prefix is the only item. -/
theorem Sound.ended (sound : Sound c) (received : c.builder.receive .stop = .ok (u, b')) :
    List.Forall₂ Spans b'.tokens (note b'.tokens c.histories) ∧
      (¬ OpenAlone b'.tokens → (∀ history ∈ note b'.tokens c.histories, changes history ≤ 1) ∧
        b'.stats.resolutions = b'.tokens.countP Token.recast) ∧
      (OpenAlone b'.tokens →
        (note b'.tokens c.histories).head? = some [.zerofix, .prefixOp, .infixOrPrefix] ∧
        b'.stats.resolutions = 2 ∧ b'.tokens.countP Token.recast = 1) := by
  obtain ⟨top, below, tokens⟩ := sound.exists_cons
  obtain ⟨front, joined, step, rfl⟩ := exists_step tokens received
  have kept : Kept (top :: below) c.histories c.builder.stats.resolutions := tokens ▸ sound
  rw [step.tokens_eq]
  refine ⟨kept.spans step, fun others => ?_, kept.stop_openAlone tokens step⟩
  obtain ⟨noted, total⟩ := kept.stop tokens step others
  exact ⟨changes_le_one noted, total.symm.trans (sum_changes noted)⟩

/-- Whatever was asked of a builder before it came to a term, each token has changed its role at
most once since it came, the end included, and the reported counter is the number of tokens that
do not play their declared role.  An operator that may be infix or prefix and is the only item is
the exception: it is made prefix on arrival and an atom at the end, and both are counted. -/
theorem resolved_once (table : Table) (calls : List Call) {term : Term}
    (finished : (Builder.attemptAll table .empty calls).finish = .ok term) :
    ∃ final : Chronicle, ((empty.attemptAll table calls).ended = .ok final ∧
        (empty.attemptAll table calls).builder = Builder.attemptAll table .empty calls ∧
        ∃ moves, (Builder.attemptAll table .empty calls).conclude.trace.head? =
          some (.built term { final.builder.stats with moves })) ∧
      List.Forall₂ Spans final.builder.tokens final.histories ∧
      (¬ OpenAlone final.builder.tokens → (∀ history ∈ final.histories, changes history ≤ 1) ∧
        final.builder.stats.resolutions = final.builder.tokens.countP Token.recast) ∧
      (OpenAlone final.builder.tokens →
        final.histories.head? = some [.zerofix, .prefixOp, .infixOrPrefix] ∧
        final.builder.stats.resolutions = 2 ∧ final.builder.tokens.countP Token.recast = 1) := by
  have sound := sound_empty.attemptAll table calls
  have erased : (empty.attemptAll table calls).builder = Builder.attemptAll table .empty calls :=
    builder_attemptAll table empty calls
  rw [← erased, Builder.finish, Builder.conclude] at finished
  rw [← erased, Builder.conclude]
  cases received : (empty.attemptAll table calls).builder.receive .stop with
  | error e => simp [received] at finished
  | ok r =>
      obtain ⟨u, b'⟩ := r
      simp only [received] at finished
      refine ⟨⟨b', note b'.tokens (empty.attemptAll table calls).histories⟩, ⟨?_, rfl, ?_⟩,
        sound.ended received⟩
      · rw [Chronicle.ended, received]
        rfl
      · exact built_of_reduce finished

/-- In `- a - - b` each operator is decided once, the refused operand apart. -/
theorem resolved_once_minus :
    let calls : List Call := [.operator "-", .operand (.atom "a"), .operand (.atom "c"),
      .operator "-", .operator "-", .operand (.atom "b")]
    (Builder.attemptAll .standard .empty calls).finish =
        .ok (.compound "-" [.compound "-" [.atom "a"], .compound "-" [.atom "b"]]) ∧
      ∃ final : Chronicle, (empty.attemptAll .standard calls).ended = .ok final ∧
        (∀ history ∈ final.histories, changes history ≤ 1) ∧
        final.builder.stats.resolutions = 3 := by
  intro calls
  have finished : (Builder.attemptAll .standard .empty calls).finish =
    .ok (.compound "-" [.compound "-" [.atom "a"], .compound "-" [.atom "b"]]) := rfl
  obtain ⟨final, ⟨ended, -⟩, -, once, -⟩ := resolved_once .standard calls finished
  have others : ¬ OpenAlone final.builder.tokens := by
    rintro ⟨o, same, -⟩
    cases ended
    cases same
  refine ⟨finished, final, ended, (once others).1, ?_⟩
  cases ended
  rfl

/-- The operator `-` alone changes its role twice, and the counter says 2 for one token. -/
theorem resolved_twice_minus :
    Table.standard.Reachable ∧
      (Builder.attemptAll .standard .empty [.operator "-"]).finish = .ok (.atom "-") ∧
      ∃ final : Chronicle, (empty.attemptAll .standard [.operator "-"]).ended = .ok final ∧
        (∃ history ∈ final.histories, changes history = 2) ∧
        final.builder.stats.resolutions = 2 ∧ final.builder.tokens.countP Token.recast = 1 :=
  ⟨.standard, rfl, _, rfl, ⟨_, List.mem_cons_self, rfl⟩, rfl, rfl⟩

end Chronicle

end OperatorGrammar
