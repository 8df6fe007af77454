/-
# Table.Entry -- the operators of one name

An entry keeps up to three operators that share its name, one for each place an
operator can stand.  Which of them exist determines the role in which an
occurrence of the name enters a sequence.
-/
import OperatorGrammar.Operator.Basic
import OperatorGrammar.Operator.Role

namespace OperatorGrammar

set_option autoImplicit false

structure Entry where
  name : String
  prefixForm : Option Operator := none
  infixForm : Option Operator := none
  postfixForm : Option Operator := none
deriving DecidableEq

namespace Entry

/-- The entry of a name without operators. -/
def blank (name : String) : Entry := { name }

/-- The operator of the given fixity. -/
def form? (e : Entry) : Fixity → Option Operator
  | .prefixOp => e.prefixForm
  | .infixOp => e.infixForm
  | .postfixOp => e.postfixForm

def has (e : Entry) (f : Fixity) : Bool := (e.form? f).isSome

/-- The operators of the entry: prefix, infix, postfix. -/
def forms (e : Entry) : List Operator := Fixity.all.filterMap e.form?

/-- The operator that a decided role stands for. -/
def formFor? (e : Entry) (role : Role) : Option Operator := role.fixity?.bind e.form?

/-- The operator of one argument; a prefix form goes before a postfix form. -/
def unaryForm? (e : Entry) : Option Operator := e.prefixForm.or e.postfixForm

/-- The operator that an application to `count` arguments stands for. -/
def formOfArity? (e : Entry) (count : Nat) : Option Operator :=
  match count with
  | 1 => e.unaryForm?
  | 2 => e.infixForm
  | _ => none

/-- The role in which an occurrence of the name enters a sequence. -/
def role? (e : Entry) : Option Role :=
  match e.has .prefixOp, e.has .infixOp, e.has .postfixOp with
  | false, true, false => some .infixOp
  | true, false, false => some .prefixOp
  | false, false, true => some .postfixOp
  | true, true, false => some .infixOrPrefix
  | false, true, true => some .infixOrPostfix
  | _, _, _ => none

/-- The entry with `op` in the place of its fixity. -/
def put (e : Entry) (op : Operator) : Entry :=
  match op.fixity with
  | .prefixOp => { e with prefixForm := some op }
  | .infixOp => { e with infixForm := some op }
  | .postfixOp => { e with postfixForm := some op }

theorem name_put (e : Entry) (op : Operator) : (e.put op).name = e.name := by
  unfold put; split <;> rfl

theorem form?_put_self (e : Entry) (op : Operator) : (e.put op).form? op.fixity = some op := by
  cases h : op.fixity <;> simp [put, form?, h]

theorem form?_put_of_ne (e : Entry) (op : Operator) {f : Fixity} (h : f ≠ op.fixity) :
    (e.put op).form? f = e.form? f := by
  cases hf : op.fixity <;> cases f <;> simp_all [put, form?]

end Entry

end OperatorGrammar
