/-
# Proofs.Builder.Steps -- what receiving a token changes

A token that is received joins the sequence in its own or in another role, and at the same time
the token in front of it may be decided (`Step`).  What lies below that one stays as it is, and
each change of a role is counted.  `exists_step` says that every token is received like this,
whatever the verdict was.
-/
import OperatorGrammar.Proofs.Builder.Verdicts

namespace OperatorGrammar

set_option autoImplicit false

/-! ## Decided tokens -/

/-- Counts the step from a role to the next one. -/
def Role.changed (before after : Role) : Nat := if after = before then 0 else 1

theorem Role.changed_self (role : Role) : role.changed role = 0 := if_pos rfl

theorem Role.changed_of_ne {before after : Role} (differs : after ≠ before) :
    before.changed after = 1 := if_neg differs

namespace Token

variable {t u : Token} {wanted : Role}

theorem resolve_self (t : Token) : t.resolve t.role = .ok t := if_pos rfl

theorem resolve_operator {o : Occurrence} (resolved : (operator o).resolve wanted = .ok u) :
    u = operator { o with role := wanted } := by
  unfold resolve at resolved
  split at resolved
  · rename_i same
    cases resolved
    cases same
    rfl
  · simp only at resolved
    split at resolved
    · cases resolved
      rfl
    · cases resolved

/-- Only operators change their role. -/
theorem exists_operator_of_resolve (resolved : t.resolve u.role = .ok u)
    (differs : u.role ≠ t.role) :
    t.role.mayBecome u.role = true ∧
      ∃ o, t = operator o ∧ u = operator { o with role := u.role } := by
  cases t with
  | operator o =>
      refine ⟨?_, o, rfl, resolve_operator resolved⟩
      unfold resolve at resolved
      rw [if_neg (Ne.symm differs)] at resolved
      by_cases may : o.role.mayBecome u.role = true
      · exact may
      · simp only [may] at resolved
        cases resolved
  | _ =>
      unfold resolve at resolved
      rw [if_neg (Ne.symm differs)] at resolved
      cases resolved

theorem eq_of_resolve (resolved : t.resolve u.role = .ok u) (same : u.role = t.role) : t = u := by
  rw [same, resolve_self] at resolved
  cases resolved
  rfl

/-- Operands and marks stay what they are. -/
theorem eq_of_resolve_of_ne (resolved : t.resolve u.role = .ok u) (other : ∀ o, t ≠ operator o) :
    t = u := by
  refine eq_of_resolve resolved (by_contra fun differs => ?_)
  obtain ⟨-, o, same, -⟩ := exists_operator_of_resolve resolved differs
  exact other o same

theorem role_follow (t top : Token) : (t.follow top).role = t.role := by
  cases t <;> rfl

end Token

namespace Builder

variable {b b' : Builder} {top token front joined u : Token} {below : Stack Token}

theorem of_bind_top {α : Type} {f : Token → Except Failure α} {y : α}
    (tokens : b.tokens = top :: below) (bound : b.top >>= f = .ok y) : f top = .ok y := by
  rw [top_eq tokens] at bound
  exact bound

theorem resolve_of_resolveTop {role : Role} (tokens : b.tokens = top :: below)
    (decided : b.resolveTop role = .ok b') : ∃ front, top.resolve role = .ok front := by
  obtain ⟨front, resolved, -⟩ := exists_of_bind (of_bind_top tokens decided)
  exact ⟨front, resolved⟩

theorem resolve_of_resolveNew {role : Role} (decided : b.resolveNew token role = .ok (joined, b')) :
    token.resolve role = .ok joined := by
  obtain ⟨u, resolved, same⟩ := exists_of_bind decided
  cases same
  exact resolved

/-! ## Steps -/

/-- The token in front goes on as `front`, and the arriving one joins as `joined`. -/
structure Step (b : Builder) (top : Token) (below : Stack Token) (token front joined : Token)
    (b' : Builder) : Prop where
  front_eq : top.resolve front.role = .ok front
  joined_eq : token.resolve joined.role = .ok joined
  tokens_eq : b'.tokens = front :: below
  resolutions_eq : b'.stats.resolutions = b.stats.resolutions +
    (top.role.changed front.role + token.role.changed joined.role)
  outcome : Role.Outcome (b.tokens.length = 2) top.role token.role front.role joined.role

theorem exists_step_of_carryOut {verdict : Verdict} (tokens : b.tokens = top :: below)
    (judged : Adjacency.judge ⟨top, token, b.tokens.length, b.infixAtStart⟩ = .ok verdict)
    (carried : b.carryOut token verdict = .ok (joined, b')) :
    ∃ front, Step b top below token front joined b' := by
  have outcome := Role.Outcome.of_judge judged
  cases verdict with
  | accept =>
      cases carried
      refine ⟨top, top.resolve_self, token.resolve_self, tokens, ?_, outcome (by simp)⟩
      simp only [Role.changed_self, Nat.add_zero]
  | acceptFlagged =>
      cases carried
      refine ⟨top, top.resolve_self, token.resolve_self, tokens, ?_, outcome (by simp)⟩
      simp only [Role.changed_self, Nat.add_zero]
  | acceptAs role =>
      have resolved := resolve_of_resolveNew carried
      rw [carryOut, resolveNew_of_resolve _ resolved] at carried
      cases carried
      obtain rfl := Token.role_of_resolve resolved
      refine ⟨top, top.resolve_self, resolved, tokens, ?_, outcome (by simp)⟩
      rw [Role.changed_self, Nat.zero_add]
      rfl
  | resolve topRole role =>
      obtain ⟨b₁, decided, carried⟩ := exists_of_bind carried
      obtain ⟨front, resolvedTop⟩ := resolve_of_resolveTop tokens decided
      rw [resolveTop_of_resolve tokens resolvedTop] at decided
      cases decided
      have resolved := resolve_of_resolveNew carried
      rw [resolveNew_of_resolve _ resolved] at carried
      cases carried
      have may := (Adjacency.resolve_of_judge judged).1
      obtain rfl := Token.role_of_resolve resolvedTop
      obtain rfl := Token.role_of_resolve resolved
      refine ⟨front, resolvedTop, resolved, rfl, ?_, outcome (by simp)⟩
      rw [Role.changed_of_ne (Role.ne_of_mayBecome may), ← Nat.add_assoc]
      rfl
  | reject cause => cases carried

/-- Every token that is received makes a step. -/
theorem exists_step (tokens : b.tokens = top :: below)
    (received : b.receive token = .ok (u, b')) :
    ∃ front joined, Step b top below token front joined b' ∧ u = joined.follow front := by
  rw [receive_eq_bind] at received
  obtain ⟨verdict, judged, received⟩ := exists_of_bind (of_bind_top tokens received)
  obtain ⟨⟨joined, b₁⟩, carried, followed⟩ := exists_of_bind received
  obtain ⟨front, step⟩ := exists_step_of_carryOut tokens judged carried
  cases of_bind_top step.tokens_eq followed
  exact ⟨front, joined, step, rfl⟩

end Builder

end OperatorGrammar
