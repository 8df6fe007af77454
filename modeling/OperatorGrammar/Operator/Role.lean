/-
# Operator.Role -- the part a token plays in a sequence

A name with two forms starts in a role that leaves the form open.  One that is
infix or prefix is decided on arrival, one that is infix or postfix when its right
neighbour arrives.  An operator that stands for the atom of its name plays the
role `zerofix`, which no name has from the start.
-/
import OperatorGrammar.Operator.Specifier

namespace OperatorGrammar

set_option autoImplicit false

inductive Role where
  | start
  | stop
  | operand
  | infixOp
  | prefixOp
  | postfixOp
  | infixOrPrefix
  | infixOrPostfix
  | zerofix
deriving DecidableEq

namespace Role

def all : List Role :=
  [.start, .stop, .operand, .infixOp, .prefixOp, .postfixOp, .infixOrPrefix, .infixOrPostfix,
   .zerofix]

def text : Role → String
  | .start => "begin"
  | .stop => "end"
  | .operand => "operand"
  | .infixOp => "infix"
  | .prefixOp => "prefix"
  | .postfixOp => "postfix"
  | .infixOrPrefix => "infix-or-prefix"
  | .infixOrPostfix => "infix-or-postfix"
  | .zerofix => "zerofix"

/-- The form that a decided operator role stands for. -/
def fixity? : Role → Option Fixity
  | .infixOp => some .infixOp
  | .prefixOp => some .prefixOp
  | .postfixOp => some .postfixOp
  | _ => none

/-- Whether an operator in one role may take on another.  An open role is decided
for one of its two forms, and any operator may turn into an atom. -/
def mayBecome : Role → Role → Bool
  | .infixOrPrefix, .infixOp | .infixOrPrefix, .prefixOp => true
  | .infixOrPostfix, .infixOp | .infixOrPostfix, .postfixOp => true
  | .infixOp, .zerofix | .prefixOp, .zerofix | .postfixOp, .zerofix => true
  | .infixOrPrefix, .zerofix | .infixOrPostfix, .zerofix => true
  | _, _ => false

end Role

end OperatorGrammar
