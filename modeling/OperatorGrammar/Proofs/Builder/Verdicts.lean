/-
# Proofs.Builder.Verdicts -- what a judgement decides

Apart from rejections, the rule for two parts has one verdict or two (`options`), and
`isOption_rule` says so cell by cell.  What all verdicts have in common is then read off the
list (`feasible_of_mem_options`):

* a new token that is decided takes on a role other than its own, as `Role.mayBecome` allows;
* so does a token in front that is decided;
* a token in front turns into an atom only in front of the stop mark, and only if it is alone.

`acceptAs_of_judge` and `resolve_of_judge` say this of the tokens that were judged, and
`Role.Outcome` tells which roles the two have afterwards.
-/
import OperatorGrammar.Proofs.Builder.Alike

namespace OperatorGrammar

set_option autoImplicit false

/-- A token in one role can be given the other. -/
def Role.CanPlay (role wanted : Role) : Prop := role = wanted ∨ role.mayBecome wanted = true

instance (role wanted : Role) : Decidable (role.CanPlay wanted) :=
  inferInstanceAs (Decidable (_ ∨ _))

theorem Role.not_mayBecome_self (role : Role) : role.mayBecome role = false := by
  cases role <;> rfl

theorem Role.ne_of_mayBecome {role wanted : Role} (may : role.mayBecome wanted = true) :
    wanted ≠ role := by
  rintro rfl
  rw [Role.not_mayBecome_self] at may
  cases may

theorem Token.exists_resolve {t : Token} {wanted : Role} (can : t.role.CanPlay wanted) :
    ∃ u, t.resolve wanted = .ok u := by
  unfold resolve
  by_cases same : t.role = wanted
  · exact ⟨t, if_pos same⟩
  · have may : t.role.mayBecome wanted = true := can.resolve_left same
    cases t with
    | operator o => exact ⟨_, by rw [if_neg same]; exact if_pos may⟩
    | _ => cases may

/-- The role of a token that takes this part on arrival. -/
def Arrival.role : Arrival → Role
  | .stop => .stop
  | .operand => .operand
  | .infixOp => .infixOp
  | .prefixOp => .prefixOp
  | .postfixOp => .postfixOp
  | .infixOrPrefix => .infixOrPrefix
  | .infixOrPostfix => .infixOrPostfix

/-- The role of a token that takes this part in front of another, unless it is an operand. -/
def Front.role? : Front → Option Role
  | .start => some .start
  | .operand => none
  | .infixOp => some .infixOp
  | .prefixOp => some .prefixOp
  | .postfixOp => some .postfixOp
  | .infixOrPostfix => some .infixOrPostfix

theorem Role.eq_of_asArrival? {role : Role} {arrival : Arrival}
    (takes : role.asArrival? = some arrival) : role = arrival.role := by
  cases role <;> cases takes <;> rfl

theorem Role.eq_of_asFront? {role role' : Role} {front : Front}
    (takes : role.asFront? = some front) (only : front.role? = some role') : role = role' := by
  cases role <;> cases takes <;> cases only <;> rfl

/-- The tokens can take on the roles that a verdict gives them, and a token in front becomes an
atom only in front of the stop mark, and only if it is alone. -/
def Verdict.Feasible (sole : Bool) (front : Front) (arrival : Arrival) : Verdict → Prop
  | .acceptAs role => arrival.role.mayBecome role = true
  | .resolve top new => (∃ role, front.role? = some role ∧ role.mayBecome top = true) ∧
      arrival.role.CanPlay new ∧ (top = .zerofix → sole = true ∧ arrival = .stop)
  | _ => True

namespace Adjacency

open Builder

variable {front : Front} {arrival : Arrival} {verdict : Verdict} {sole : Bool}

/-! ## Options -/

/-- The verdicts for two parts other than rejections; `sole` says whether the token in front is
the only one behind the start mark. -/
def options (sole : Bool) : Front → Arrival → List Verdict
  | .start, .operand | .start, .prefixOp => [.accept]
  | .start, .infixOp => [.acceptFlagged]
  | .start, .postfixOp | .start, .infixOrPostfix => [.acceptAs .zerofix]
  | .start, .infixOrPrefix => [.acceptAs .prefixOp]
  | .operand, .stop | .operand, .infixOp | .operand, .postfixOp => [.accept]
  | .operand, .infixOrPostfix => [.accept]
  | .operand, .infixOrPrefix => [.acceptAs .infixOp]
  | .infixOp, .stop | .prefixOp, .stop => if sole then [.resolve .zerofix .stop] else []
  | .infixOp, .operand | .infixOp, .prefixOp => [.accept]
  | .prefixOp, .operand | .prefixOp, .prefixOp => [.accept]
  | .infixOp, .infixOrPrefix | .prefixOp, .infixOrPrefix => [.acceptAs .prefixOp]
  | .postfixOp, .stop => if sole then [.resolve .zerofix .stop] else [.accept]
  | .postfixOp, .infixOp | .postfixOp, .postfixOp | .postfixOp, .infixOrPostfix => [.accept]
  | .postfixOp, .infixOrPrefix => [.acceptAs .infixOp]
  | .infixOrPostfix, .stop =>
      if sole then [.resolve .zerofix .stop] else [.resolve .postfixOp .stop]
  | .infixOrPostfix, .operand => [.resolve .infixOp .operand]
  | .infixOrPostfix, .infixOp => [.resolve .postfixOp .infixOp]
  | .infixOrPostfix, .prefixOp => [.resolve .infixOp .prefixOp]
  | .infixOrPostfix, .postfixOp => [.resolve .postfixOp .postfixOp]
  | .infixOrPostfix, .infixOrPrefix => [.resolve .infixOp .prefixOp, .resolve .postfixOp .infixOp]
  | .infixOrPostfix, .infixOrPostfix => [.resolve .postfixOp .infixOrPostfix]
  | _, _ => []

/-- A rejection, or one of the listed verdicts. -/
def IsOption (listed : List Verdict) (verdict : Verdict) : Prop :=
  (∃ cause, verdict = .reject cause) ∨ verdict ∈ listed

theorem isOption_reject (listed : List Verdict) (cause : Rejection) :
    IsOption listed (.reject cause) := Or.inl ⟨cause, rfl⟩

theorem isOption_singleton (verdict : Verdict) : IsOption [verdict] verdict :=
  Or.inr List.mem_cons_self

theorem isOption_unless (verdict : Verdict) (objection : Option Rejection) :
    IsOption [verdict] (verdict.unless objection) := by
  cases objection with
  | none => exact isOption_singleton verdict
  | some cause => exact isOption_reject _ cause

theorem isOption_joined {objection : Except Failure (Option Rejection)} {joined : Verdict}
    (ruled : (do return joined.unless (← objection)) = Except.ok verdict) :
    IsOption [joined] verdict := by
  obtain ⟨other, -, same⟩ := exists_of_bind ruled
  cases same
  exact isOption_unless joined other

theorem isOption_resolveTop {a : Adjacency} {top new : Role} {other : Option Rejection}
    (ruled : a.resolveTop top new other = .ok verdict) :
    IsOption [.resolve top new] verdict := by
  obtain ⟨own, -, same⟩ := exists_of_bind ruled
  cases same
  exact isOption_unless _ _

theorem isOption_compared {a : Adjacency} {top new : Role}
    {objection : Except Failure (Option Rejection)}
    (ruled : (do a.resolveTop top new (← objection)) = Except.ok verdict) :
    IsOption [.resolve top new] verdict := by
  obtain ⟨other, -, ruled⟩ := exists_of_bind ruled
  exact isOption_resolveTop ruled

theorem isOption_openPair {a : Adjacency} (ruled : a.openPair = .ok verdict) :
    IsOption [.resolve .infixOp .prefixOp, .resolve .postfixOp .infixOp] verdict := by
  obtain ⟨ownInfix, -, ruled⟩ := exists_of_bind ruled
  obtain ⟨asInfix, -, ruled⟩ := exists_of_bind ruled
  obtain ⟨ownPostfix, -, ruled⟩ := exists_of_bind ruled
  obtain ⟨asPostfix, -, same⟩ := exists_of_bind ruled
  cases same
  split
  · exact isOption_reject _ _
  · exact Or.inr (by simp)
  · exact Or.inr (by simp)
  · exact isOption_reject _ _

theorem isOption_atStop (a : Adjacency) :
    IsOption (if a.sole then [.resolve .zerofix .stop] else []) a.atStop := by
  unfold atStop
  split
  · exact isOption_singleton _
  · exact isOption_reject _ _

/-- The rule for two parts rejects, or comes to one of their options. -/
theorem isOption_rule {a : Adjacency} (ruled : a.rule front arrival = .ok verdict) :
    IsOption (options a.sole front arrival) verdict := by
  cases front with
  | start =>
      cases arrival <;> cases ruled <;>
        first | exact isOption_singleton _ | exact isOption_reject _ _
  | operand =>
      cases arrival <;> cases ruled <;>
        first | exact isOption_singleton _ | exact isOption_reject _ _
  | infixOp =>
      cases arrival with
      | stop => cases ruled; exact isOption_atStop a
      | operand => cases ruled; exact isOption_singleton _
      | prefixOp => exact isOption_joined ruled
      | infixOrPrefix => exact isOption_joined ruled
      | _ => cases ruled; exact isOption_reject _ _
  | prefixOp =>
      cases arrival with
      | stop => cases ruled; exact isOption_atStop a
      | operand => cases ruled; exact isOption_singleton _
      | prefixOp => exact isOption_joined ruled
      | infixOrPrefix => exact isOption_joined ruled
      | _ => cases ruled; exact isOption_reject _ _
  | postfixOp =>
      cases arrival with
      | stop =>
          cases ruled
          by_cases sole : a.sole = true
          · rw [if_pos sole, options, if_pos sole]
            exact isOption_singleton _
          · rw [if_neg sole, options, if_neg sole]
            exact isOption_singleton _
      | infixOp => exact isOption_joined ruled
      | postfixOp => exact isOption_joined ruled
      | infixOrPrefix => exact isOption_joined ruled
      | infixOrPostfix => cases ruled; exact isOption_singleton _
      | _ => cases ruled; exact isOption_reject _ _
  | infixOrPostfix =>
      cases arrival with
      | stop =>
          by_cases sole : a.sole = true
          · rw [rule, if_pos sole] at ruled
            cases ruled
            rw [options, if_pos sole]
            exact isOption_singleton _
          · rw [rule, if_neg sole] at ruled
            rw [options, if_neg sole]
            exact isOption_resolveTop ruled
      | operand => exact isOption_resolveTop ruled
      | infixOp => exact isOption_compared ruled
      | prefixOp => exact isOption_compared ruled
      | postfixOp => exact isOption_compared ruled
      | infixOrPrefix => exact isOption_openPair ruled
      | infixOrPostfix => exact isOption_resolveTop ruled

/-! ## What all options have in common -/

theorem feasible_of_mem_options (listed : verdict ∈ options sole front arrival) :
    verdict.Feasible sole front arrival := by
  revert verdict
  cases sole <;> cases front <;> cases arrival <;>
    simp [options, Verdict.Feasible, Front.role?, Arrival.role, Role.mayBecome, Role.CanPlay]

/-- A judgement rejects, or comes to an option for the parts that the two tokens play. -/
theorem isOption_judge {a : Adjacency} (judged : a.judge = .ok verdict) :
    (∃ cause, verdict = .reject cause) ∨ ∃ front arrival, a.top.role.asFront? = some front ∧
      a.new.role.asArrival? = some arrival ∧ verdict ∈ options a.sole front arrival := by
  unfold judge at judged
  split at judged
  · rename_i front arrival onTop onArrival
    split at judged
    · cases judged
      exact Or.inl ⟨_, rfl⟩
    · exact (isOption_rule judged).imp_right fun listed =>
        ⟨front, arrival, onTop, onArrival, listed⟩
  · cases judged

/-- A new token that is decided takes on another role. -/
theorem acceptAs_of_judge {a : Adjacency} {role : Role}
    (judged : a.judge = .ok (.acceptAs role)) : a.new.role.mayBecome role = true := by
  obtain ⟨_, rejects⟩ | ⟨front, arrival, -, onArrival, listed⟩ := isOption_judge judged
  · cases rejects
  · rw [Role.eq_of_asArrival? onArrival]
    exact feasible_of_mem_options listed

/-- A token in front that is decided takes on another role. -/
theorem resolve_of_judge {a : Adjacency} {topRole role : Role}
    (judged : a.judge = .ok (.resolve topRole role)) :
    a.top.role.mayBecome topRole = true ∧ a.new.role.CanPlay role := by
  obtain ⟨_, rejects⟩ | ⟨front, arrival, onTop, onArrival, listed⟩ := isOption_judge judged
  · cases rejects
  · obtain ⟨⟨own, only, may⟩, can, -⟩ := feasible_of_mem_options listed
    rw [Role.eq_of_asFront? onTop only, Role.eq_of_asArrival? onArrival]
    exact ⟨may, can⟩

end Adjacency

/-! ## Outcomes -/

/-- The roles of both tokens behind a verdict. -/
def Verdict.roles (top new : Role) : Verdict → Role × Role
  | .acceptAs role => (top, role)
  | .resolve topRole role => (topRole, role)
  | _ => (top, new)

/-- The roles that an option gives to two tokens that meet. -/
def Role.Outcome (sole : Bool) (top new top' new' : Role) : Prop :=
  ∃ front arrival, top.asFront? = some front ∧ new.asArrival? = some arrival ∧
    ∃ verdict ∈ Adjacency.options sole front arrival, verdict.roles top new = (top', new')

namespace Role.Outcome

variable {sole : Bool} {top new top' new' : Role}

theorem of_judge {a : Adjacency} {verdict : Verdict} (judged : a.judge = .ok verdict)
    (passes : ∀ cause, verdict ≠ .reject cause) :
    Outcome a.sole a.top.role a.new.role (verdict.roles a.top.role a.new.role).1
      (verdict.roles a.top.role a.new.role).2 := by
  obtain ⟨cause, rejects⟩ | ⟨front, arrival, onTop, onArrival, listed⟩ :=
    Adjacency.isOption_judge judged
  · exact absurd rejects (passes cause)
  · exact ⟨front, arrival, onTop, onArrival, verdict, listed, rfl⟩

/-- A token in front becomes an atom only in front of the stop mark, and only if it is alone. -/
theorem alone_of_zerofix (outcome : Outcome sole top new top' new') (differs : top' ≠ top)
    (turns : top' = .zerofix) : sole = true ∧ new = .stop := by
  obtain ⟨front, arrival, -, onArrival, verdict, listed, gives⟩ := outcome
  have feasible := Adjacency.feasible_of_mem_options listed
  cases verdict with
  | resolve topRole role =>
      cases gives
      obtain ⟨-, -, atom⟩ := feasible
      obtain ⟨alone, rfl⟩ := atom turns
      exact ⟨alone, Role.eq_of_asArrival? onArrival⟩
  | _ =>
      cases gives
      exact absurd rfl differs

/-- At the start, an operator that may be infix or prefix becomes prefix, and any other token
that is decided becomes an atom. -/
theorem at_start (outcome : Outcome sole .start new top' new') :
    (new = .infixOrPrefix → new' = .prefixOp) ∧
      (new ≠ .infixOrPrefix → new' = new ∨ new' = .zerofix) := by
  obtain ⟨front, arrival, onTop, onArrival, verdict, listed, gives⟩ := outcome
  cases onTop
  cases new <;> cases onArrival <;>
    simp [Adjacency.options] at listed <;> subst listed <;> cases gives <;> simp

/-- A prefix operator that is alone in front of the stop mark becomes an atom. -/
theorem prefix_stop (outcome : Outcome true .prefixOp .stop top' new') : top' = .zerofix := by
  obtain ⟨front, arrival, onTop, onArrival, verdict, listed, gives⟩ := outcome
  cases onTop
  cases onArrival
  obtain rfl := List.mem_singleton.1 listed
  cases gives
  rfl

end Role.Outcome

end OperatorGrammar
