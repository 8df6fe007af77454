/-
# Proofs.Builder.Alike -- counters and trace decide nothing

Builders are alike if they agree in everything but their counters and their trace.  Alike
builders refuse the same items for the same reasons, stay alike where they accept one
(`Alike.add`), and have the same conclusion (`Alike.finish_eq`).
-/
import OperatorGrammar.Proofs.Builder.Receipt

namespace OperatorGrammar.Builder

set_option autoImplicit false

theorem exists_of_bind {α β : Type} {first : Except Failure α} {f : α → Except Failure β} {y : β}
    (bound : first >>= f = .ok y) : ∃ x, first = .ok x ∧ f x = .ok y := by
  cases first with
  | ok x => exact ⟨x, rfl, bound⟩
  | error e => cases bound

/-- Both fail with the same failure, or both have results that the relation holds of. -/
inductive Matches {α β : Type} (R : α → β → Prop) : Except Failure α → Except Failure β → Prop
  | ok {x : α} {y : β} (related : R x y) : Matches R (.ok x) (.ok y)
  | error (e : Failure) : Matches R (.error e) (.error e)

theorem Matches.refl {α : Type} {R : α → α → Prop} (reflexive : ∀ x, R x x)
    (read : Except Failure α) : Matches R read read := by
  cases read with
  | ok x => exact .ok (reflexive x)
  | error e => exact .error e

theorem Matches.bind {α β γ δ : Type} {R : α → β → Prop} {S : γ → δ → Prop}
    {first : Except Failure α} {second : Except Failure β} {f : α → Except Failure γ}
    {g : β → Except Failure δ} (both : Matches R first second)
    (goesOn : ∀ x y, R x y → Matches S (f x) (g y)) : Matches S (first >>= f) (second >>= g) := by
  cases both with
  | ok related => exact goesOn _ _ related
  | error e => exact .error e

theorem Matches.exists_of_ok {α β : Type} {R : α → β → Prop} {first : Except Failure α}
    {second : Except Failure β} {x : α} (both : Matches R first second) (first_eq : first = .ok x) :
    ∃ y, second = .ok y ∧ R x y := by
  subst first_eq
  cases both with
  | ok related => exact ⟨_, rfl, related⟩

/-- Two builders with the same tokens and the same flag. -/
structure Alike (b c : Builder) : Prop where
  tokens_eq : b.tokens = c.tokens
  flag_eq : b.infixAtStart = c.infixAtStart

variable {b c : Builder}

theorem Alike.refl (b : Builder) : Alike b b := ⟨rfl, rfl⟩

theorem Alike.trans {d : Builder} (first : Alike b c) (second : Alike c d) : Alike b d :=
  ⟨first.tokens_eq.trans second.tokens_eq, first.flag_eq.trans second.flag_eq⟩

/-- The same token, and builders that are alike. -/
def SameToken : Token × Builder → Token × Builder → Prop
  | (token, b), (other, c) => token = other ∧ Alike b c

theorem Alike.top_eq (alike : Alike b c) : b.top = c.top := by
  rw [Builder.top, Builder.top, alike.tokens_eq]

theorem Alike.flagged (alike : Alike b c) (flag : Bool) :
    Alike { b with infixAtStart := flag } { c with infixAtStart := flag } :=
  ⟨alike.tokens_eq, rfl⟩

theorem Alike.resolveTop (alike : Alike b c) (role : Role) :
    Matches Alike (b.resolveTop role) (c.resolveTop role) := by
  unfold Builder.resolveTop
  rw [alike.top_eq, alike.tokens_eq]
  refine .bind (.refl (fun _ => rfl) c.top) fun top _ same => ?_
  cases same
  refine .bind (.refl (fun _ => rfl) (top.resolve role)) fun resolved _ same => ?_
  cases same
  refine .bind (.refl (fun _ => rfl) (Stack.replaceTop c.tokens resolved)) fun replaced _ same => ?_
  cases same
  exact .ok ⟨rfl, alike.flag_eq⟩

theorem Alike.resolveNew (alike : Alike b c) (token : Token) (role : Role) :
    Matches SameToken (b.resolveNew token role) (c.resolveNew token role) := by
  unfold Builder.resolveNew
  refine .bind (.refl (fun _ => rfl) (token.resolve role)) fun resolved _ same => ?_
  cases same
  exact .ok ⟨rfl, alike.tokens_eq, alike.flag_eq⟩

theorem Alike.carryOut (alike : Alike b c) (token : Token) (verdict : Verdict) :
    Matches SameToken (b.carryOut token verdict) (c.carryOut token verdict) := by
  cases verdict with
  | accept => exact .ok ⟨rfl, alike.flagged false⟩
  | acceptFlagged => exact .ok ⟨rfl, alike.flagged true⟩
  | acceptAs role => exact (alike.flagged false).resolveNew token role
  | resolve topRole role =>
      exact .bind (alike.resolveTop topRole) fun b c alike =>
        (alike.flagged false).resolveNew token role
  | reject cause => exact .error _

/-- A token that a builder has given its role, with what it follows. -/
def followTop (received : Token × Builder) : Except Failure (Token × Builder) := do
  let top ← received.2.top
  return (received.1.follow top, received.2)

theorem receive_eq_bind (b : Builder) (token : Token) :
    b.receive token = (b.top >>= fun top =>
      Adjacency.judge ⟨top, token, b.tokens.length, b.infixAtStart⟩ >>= fun verdict =>
        b.carryOut token verdict >>= followTop) := by
  unfold Builder.receive
  refine congrArg (b.top >>= ·) (funext fun top => ?_)
  refine congrArg (Adjacency.judge _ >>= ·) (funext fun verdict => ?_)
  cases verdict with
  | resolve topRole role =>
      simp only [Builder.carryOut]
      cases b.resolveTop topRole <;> rfl
  | _ => rfl

theorem matches_followTop {received received' : Token × Builder}
    (same : SameToken received received') :
    Matches SameToken (followTop received) (followTop received') := by
  obtain ⟨token, b⟩ := received
  obtain ⟨other, c⟩ := received'
  obtain ⟨rfl, alike⟩ := same
  simp only [followTop, alike.top_eq]
  refine .bind (.refl (fun _ => rfl) c.top) fun top _ same => ?_
  cases same
  exact .ok ⟨rfl, alike⟩

theorem Alike.receive (alike : Alike b c) (token : Token) :
    Matches SameToken (b.receive token) (c.receive token) := by
  rw [receive_eq_bind b, receive_eq_bind c, alike.top_eq, alike.tokens_eq, alike.flag_eq]
  refine .bind (.refl (fun _ => rfl) c.top) fun top _ same => ?_
  cases same
  refine .bind (.refl (fun _ => rfl) (Adjacency.judge _)) fun verdict _ same => ?_
  cases same
  exact (alike.carryOut token verdict).bind fun _ _ => matches_followTop

theorem Alike.add (alike : Alike b c) (token : Token) :
    Matches Alike (b.add token) (c.add token) := by
  refine .bind (alike.receive token) ?_
  rintro ⟨token, b⟩ ⟨other, c⟩ ⟨rfl, alike⟩
  exact .ok ⟨congrArg (Stack.push · token) alike.tokens_eq, alike.flag_eq⟩

theorem Alike.addItem (alike : Alike b c) (table : Table) (item : Item) :
    Matches Alike (Builder.addItem table b item) (Builder.addItem table c item) := by
  cases item with
  | operand term => exact alike.add (.operand term)
  | operator name =>
      simp only [Builder.addItem, Builder.addOperator]
      cases table.find? name with
      | none => exact .error _
      | some entry =>
          cases role : entry.role? with
          | none => simpa only [role] using .error _
          | some role' => simpa only [role] using alike.add _

theorem Alike.reduce_eq (alike : Alike b c) : b.reduce.result = c.reduce.result := by
  have symbols_eq : b.symbols = c.symbols := by
    rw [Builder.symbols, Builder.symbols, alike.tokens_eq]
  simp only [Builder.reduce, symbols_eq]
  cases c.symbols with
  | error e => rfl
  | ok symbols =>
      simp only
      cases Shunting.run {} symbols with
      | error stuck => rfl
      | ok s =>
          simp only
          cases Symbol.assemble s.finish <;> rfl

theorem Alike.finish_eq (alike : Alike b c) : b.finish = c.finish := by
  have both := alike.receive .stop
  unfold Builder.finish Builder.conclude
  generalize b.receive .stop = first at both
  generalize c.receive .stop = second at both
  cases both with
  | ok same => exact same.2.reduce_eq
  | error e => rfl

end OperatorGrammar.Builder
