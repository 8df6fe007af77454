/-
# Token -- the members of a sequence

A sequence runs from a start mark to a stop mark; between them stand finished
terms and occurrences of operators.  An occurrence carries the entry of its name,
the role it plays at the moment, and the operator of the token in front of it, if
that is a decided operator.
-/
import OperatorGrammar.Failure
import OperatorGrammar.Table.Entry

namespace OperatorGrammar

set_option autoImplicit false

/-- An operator's place in a sequence. -/
structure Occurrence where
  entry : Entry
  role : Role
  /-- The operator of the token in front. -/
  prev : Option Operator := none

inductive Token where
  | start
  | stop
  | operand (term : Term)
  | operator (occurrence : Occurrence)

/-- The operator that an occurrence stands for in its role. -/
def Occurrence.form? (o : Occurrence) : Option Operator := o.entry.formFor? o.role

namespace Token

def role : Token → Role
  | .start => .start
  | .stop => .stop
  | .operand _ => .operand
  | .operator o => o.role

/-- The operator that a token stands for in its role. -/
def form? : Token → Option Operator
  | .operator o => o.form?
  | _ => none

/-- The operator that a token would stand for in another role. -/
def formFor? : Token → Role → Option Operator
  | .operator o, role => o.entry.formFor? role
  | _, _ => none

/-- The operator of the token in front of an occurrence. -/
def prev? : Token → Option Operator
  | .operator o => o.prev
  | _ => none

/-- Names a token in a message. -/
def describe : Token → String
  | .start => "start of term"
  | .stop => "end of term"
  | .operand term => "operand " ++ term.text
  | .operator o =>
      match o.form? with
      | some op => op.text
      | none =>
          (if o.role = .zerofix then "atom " else "operator ") ++ Atom.text o.entry.name

/-- The token in the role `wanted`.  Only an operator may change its role, and only
as `Role.mayBecome` allows. -/
def resolve (t : Token) (wanted : Role) : Except Failure Token :=
  if t.role = wanted then .ok t
  else match t with
    | .operator o =>
        if o.role.mayBecome wanted then .ok (.operator { o with role := wanted })
        else .error (.internal (.fixedRole o.role wanted))
    | _ => .error (.internal (.fixedToken t.role wanted))

theorem role_of_resolve {t u : Token} {wanted : Role} (resolved : t.resolve wanted = .ok u) :
    u.role = wanted := by
  unfold resolve at resolved
  split at resolved
  · cases resolved; assumption
  · split at resolved
    · split at resolved
      · cases resolved; rfl
      · cases resolved
    · cases resolved

/-- The token with `top` in front of it. -/
def follow (t top : Token) : Token :=
  match t with
  | .operator o => .operator { o with prev := top.form? }
  | t => t

/-- Equality of tokens, operands compared as values. -/
def same : Token → Token → Bool
  | .start, .start => true
  | .stop, .stop => true
  | .operand a, .operand b => a.same b
  | .operator a, .operator b => a.entry = b.entry && a.role = b.role && a.prev = b.prev
  | _, _ => false

end Token

end OperatorGrammar
