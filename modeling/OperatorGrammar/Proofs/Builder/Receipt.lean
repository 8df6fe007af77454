/-
# Proofs.Builder.Receipt -- how a verdict is carried out

To receive a token is to judge it and to carry the verdict out (`receive_eq`).  There is
one lemma for each verdict: what the token turns into, and what stands below it
afterwards (`Receives`).  Counters and trace have no part in this.  A token that is
received can be added (`Receives.add`).
-/
import OperatorGrammar.Proofs.Sequence.Judgement

namespace OperatorGrammar

set_option autoImplicit false

namespace Builder

open Adjacency

/-- The builder receives `token` as `received`, on top of `tokens`. -/
def Receives (b : Builder) (token received : Token) (tokens : Stack Token) (flag : Bool) : Prop :=
  ∃ b', b.receive token = .ok (received, b') ∧ b'.tokens = tokens ∧ b'.infixAtStart = flag

variable {b : Builder} {top top' token u : Token} {below : Stack Token} {role wanted : Role}
  {cause : Rejection}

theorem Receives.add {received : Token} {tokens : Stack Token} {flag : Bool}
    (receives : b.Receives token received tokens flag) :
    ∃ b', b.add token = .ok b' ∧ b'.tokens = received :: tokens ∧ b'.infixAtStart = flag := by
  obtain ⟨b', received_eq, tokens_eq, flag_eq⟩ := receives
  have added : b.add token = .ok { b' with
      tokens := received :: b'.tokens
      stats := { b'.stats with tokens := b'.stats.tokens + 1 } } := by
    rw [Builder.add, received_eq]
    rfl
  exact ⟨_, added, by rw [tokens_eq], flag_eq⟩

theorem add_of_receive_error {e : Failure} (fails : b.receive token = .error e) :
    b.add token = .error e := by
  rw [Builder.add, fails]
  rfl

theorem resolveNew_of_resolve (b : Builder) (resolved : token.resolve wanted = .ok u) :
    b.resolveNew token wanted = .ok (u, { b with stats := { b.stats with
      resolutions := b.stats.resolutions + if wanted = token.role then 0 else 1 } }) := by
  rw [resolveNew, resolved]
  rfl

theorem resolveNew_eq (b : Builder) (resolved : token.resolve wanted = .ok u) :
    ∃ b', b.resolveNew token wanted = .ok (u, b') ∧ b'.tokens = b.tokens ∧
      b'.infixAtStart = b.infixAtStart :=
  ⟨_, resolveNew_of_resolve b resolved, rfl, rfl⟩

/-- What a verdict makes of the arriving token and of the builder. -/
def carryOut (b : Builder) (token : Token) : Verdict → Except Failure (Token × Builder)
  | .accept => .ok (token, { b with infixAtStart := false })
  | .acceptFlagged => .ok (token, { b with infixAtStart := true })
  | .acceptAs role => resolveNew { b with infixAtStart := false } token role
  | .resolve topRole role => do
      let b ← b.resolveTop topRole
      resolveNew { b with infixAtStart := false } token role
  | .reject cause => .error (.rejected cause)

section

variable (tokens : b.tokens = top :: below)
include tokens

theorem top_eq : b.top = .ok top := by
  simp [Builder.top, Stack.top?, tokens]

theorem resolveTop_of_resolve (resolved : top.resolve role = .ok top') :
    b.resolveTop role = .ok { b with
      tokens := top' :: below
      stats := { b.stats with resolutions := b.stats.resolutions + 1 }
      trace := .resolved top role :: b.trace } := by
  rw [resolveTop, top_eq tokens]
  change (top.resolve role >>= _) = _
  rw [resolved, tokens]
  rfl

theorem resolveTop_eq (resolved : top.resolve role = .ok top') :
    ∃ b', b.resolveTop role = .ok b' ∧ b'.tokens = top' :: below ∧
      b'.infixAtStart = b.infixAtStart :=
  ⟨_, resolveTop_of_resolve tokens resolved, rfl, rfl⟩

theorem receive_eq {verdict : Verdict}
    (judged : judge ⟨top, token, b.tokens.length, b.infixAtStart⟩ = .ok verdict) :
    b.receive token = (b.carryOut token verdict >>= fun (token, b) => do
      let top ← b.top
      return (token.follow top, b)) := by
  rw [receive, top_eq tokens]
  change (judge ⟨top, token, b.tokens.length, b.infixAtStart⟩ >>= _) = _
  rw [judged]
  cases verdict with
  | resolve topRole role =>
      change (b.resolveTop topRole >>= _) = _
      simp only [carryOut]
      cases b.resolveTop topRole <;> rfl
  | _ => rfl

theorem receive_reject
    (judged : judge ⟨top, token, b.tokens.length, b.infixAtStart⟩ = .ok (.reject cause)) :
    b.receive token = .error (.rejected cause) := by
  rw [receive_eq tokens judged]
  rfl

theorem receives_of_carryOut {verdict : Verdict} {b' : Builder}
    (judged : judge ⟨top, token, b.tokens.length, b.infixAtStart⟩ = .ok verdict)
    (carried : b.carryOut token verdict = .ok (u, b')) (tokens' : b'.tokens = top' :: below) :
    b.Receives token (u.follow top') (top' :: below) b'.infixAtStart := by
  refine ⟨b', ?_, tokens', rfl⟩
  rw [receive_eq tokens judged, carried]
  change (b'.top >>= _) = _
  rw [top_eq tokens']
  rfl

theorem receives_accept
    (judged : judge ⟨top, token, b.tokens.length, b.infixAtStart⟩ = .ok .accept) :
    b.Receives token (token.follow top) (top :: below) false :=
  receives_of_carryOut tokens judged rfl tokens

theorem receives_acceptFlagged
    (judged : judge ⟨top, token, b.tokens.length, b.infixAtStart⟩ = .ok .acceptFlagged) :
    b.Receives token (token.follow top) (top :: below) true :=
  receives_of_carryOut tokens judged rfl tokens

theorem receives_acceptAs
    (judged : judge ⟨top, token, b.tokens.length, b.infixAtStart⟩ = .ok (.acceptAs wanted))
    (resolved : token.resolve wanted = .ok u) :
    b.Receives token (u.follow top) (top :: below) false := by
  obtain ⟨b', decided, tokens', flag⟩ := resolveNew_eq { b with infixAtStart := false } resolved
  have receives := receives_of_carryOut tokens judged decided (tokens'.trans tokens)
  rw [flag] at receives
  exact receives

theorem receives_joining
    (judged : judge ⟨top, token, b.tokens.length, b.infixAtStart⟩ =
      .ok (Verdict.joining token.role wanted))
    (resolved : token.resolve wanted = .ok u) :
    b.Receives token (u.follow top) (top :: below) false := by
  by_cases same : token.role = wanted
  · have stays : token.resolve wanted = .ok token := by
      unfold Token.resolve
      rw [if_pos same]
    rw [stays] at resolved
    cases resolved
    exact receives_accept tokens (by rw [judged, Verdict.joining, if_pos same])
  · exact receives_acceptAs tokens (by rw [judged, Verdict.joining, if_neg same]) resolved

theorem receives_resolve
    (judged : judge ⟨top, token, b.tokens.length, b.infixAtStart⟩ = .ok (.resolve role wanted))
    (resolvedTop : top.resolve role = .ok top') (resolved : token.resolve wanted = .ok u) :
    b.Receives token (u.follow top') (top' :: below) false := by
  obtain ⟨b₁, decidedTop, tokens₁, -⟩ := resolveTop_eq tokens resolvedTop
  obtain ⟨b₂, decided, tokens₂, flag⟩ := resolveNew_eq { b₁ with infixAtStart := false } resolved
  have carried : b.carryOut token (.resolve role wanted) = .ok (u, b₂) := by
    rw [carryOut, decidedTop]
    exact decided
  have receives := receives_of_carryOut tokens judged carried (tokens₂.trans tokens₁)
  rw [flag] at receives
  exact receives

end

end Builder

end OperatorGrammar
