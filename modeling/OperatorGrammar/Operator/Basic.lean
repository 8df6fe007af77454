/-
# Operator.Basic -- operators

An `Operator` is one form of one name: a specifier, a precedence (the smaller, the
tighter it binds), and how its terms are built: under the functor `rename` instead
of the name, and with the name of the fixity as an extra first argument if `embed`
is set.

`leftAccepts` and `rightAccepts` say which operators may head an argument.  `tie`
compares two operators of one precedence with an operand between them: the left
one nests inside the right one if the right one is left-associative, the right
one inside the left one if the left one is right-associative, and neither or both
of these may be the case.
-/
import OperatorGrammar.Operator.Specifier
import OperatorGrammar.Term.Text

namespace OperatorGrammar

set_option autoImplicit false

structure Operator where
  name : String
  spec : Specifier
  prec : Nat
  rename : Option String := none
  embed : Bool := false
deriving DecidableEq

/-- How two operators of one precedence share the operand between them. -/
inductive Tie where
  | left
  | right
  | clash
  | ambiguous
deriving DecidableEq

namespace Operator

def fixity (op : Operator) : Fixity := op.spec.fixity

/-- The operator as a directive: `op(500, yfx, '-')`. -/
def text (op : Operator) : String :=
  "op(" ++ Text.decimal op.prec ++ ", " ++ op.spec.text ++ ", " ++ Atom.text op.name ++ ")"

/-- Whether a term headed by `arg` may be the left argument of `op`. -/
def leftAccepts (op arg : Operator) : Bool := op.spec.left.holds arg.prec op.prec

/-- Whether a term headed by `arg` may be the right argument of `op`. -/
def rightAccepts (op arg : Operator) : Bool := op.spec.right.holds arg.prec op.prec

/-- Whether a term headed by `arg` may be any argument of `op`. -/
def accepts (op arg : Operator) : Bool :=
  match op.fixity with
  | .prefixOp => op.rightAccepts arg
  | .postfixOp => op.leftAccepts arg
  | .infixOp => op.leftAccepts arg && op.rightAccepts arg

/-- The outcome for `l` to the left and `r` to the right of one operand. -/
def tie (l r : Operator) : Tie :=
  match decide (r.spec.associativity = .left), decide (l.spec.associativity = .right) with
  | true, false => .left
  | false, true => .right
  | false, false => .clash
  | true, true => .ambiguous

/-- The term of `op` applied to arguments. -/
def apply (op : Operator) (args : List Term) : Term :=
  .application (op.rename.getD op.name)
    (if op.embed then .atom op.fixity.text :: args else args)

end Operator

end OperatorGrammar
