/-
# Failure -- why no term is built

Two kinds of failure are kept apart.  A `Rejection` is the verdict on a sequence of
tokens: it names the tokens or operators it is about by their texts.  A `Defect`
reports a broken agreement between the parts of a builder, and no sequence of
items leads to one.
-/
import OperatorGrammar.Operator.Role
import OperatorGrammar.Text.Quoted
import OperatorGrammar.Text.Numeral

namespace OperatorGrammar

set_option autoImplicit false

/-- The verdict on a sequence that is no term. -/
inductive Rejection where
  /-- Two neighbours that may never meet. -/
  | illegalAdjacency (prev next : String)
  /-- The sequence ends where an operand is due. -/
  | unexpectedEnd (after : String)
  /-- There are no tokens at all. -/
  | emptyTerm
  /-- An infix operator starts a sequence of several tokens. -/
  | infixAtStart (oper : String)
  /-- Neither of two operators of one precedence may nest inside the other. -/
  | clash (left right : String)
  /-- Either of two neighbours may take the other in. -/
  | ambiguous (left right : String)
  /-- The operator heading a left argument binds too loosely. -/
  | invalidLeftArg (oper arg : String)
  /-- The operator heading a right argument binds too loosely. -/
  | invalidRightArg (oper arg : String)
  /-- A name without operators was given as an operator. -/
  | notAnOperator (name : String)
  /-- A pair of parentheses with nothing in it. -/
  | emptyArgumentList
deriving DecidableEq

namespace Rejection

def message : Rejection → String
  | .illegalAdjacency prev next => prev ++ " may not be followed by " ++ next
  | .unexpectedEnd after => "unexpected end of term after " ++ after
  | .emptyTerm => "empty term"
  | .infixAtStart oper => "infix operator " ++ oper ++ " cannot start a term"
  | .clash left right =>
      "operator clash between " ++ left ++ " and " ++ right ++ "; use parenthesis"
  | .ambiguous left right =>
      "ambiguous operator combination of " ++ left ++ " and " ++ right ++ "; use parenthesis"
  | .invalidLeftArg oper arg => arg ++ " is not a valid left argument of " ++ oper
  | .invalidRightArg oper arg => arg ++ " is not a valid right argument of " ++ oper
  | .notAnOperator name => Text.quoted name ++ " is not an operator"
  | .emptyArgumentList => "empty argument list"

end Rejection

/-- A broken agreement between the parts of a builder. -/
inductive Defect where
  /-- The top of an empty stack was asked for. -/
  | stackUnderflow
  /-- Two roles of which one can never be a neighbour of the other. -/
  | meeting (top new : Role)
  /-- A token in a role for which its name has no operator. -/
  | missingForm (role : Role) (token : String)
  /-- A token other than an operator was given another role. -/
  | fixedToken (role wanted : Role)
  /-- An operator was given a role it may not take on. -/
  | fixedRole (role wanted : Role)
  /-- A name that has operators has no place in the table. -/
  | noIndex (name : String)
  /-- A place beyond the end of the table. -/
  | indexOutOfRange
  /-- A token reached the reduction without standing for a symbol. -/
  | undecided (token : String)
  /-- A token reached the reduction in a role that is not decided. -/
  | notReduced (role : Role)
  /-- A token reached the output in a role for which its name has no operator. -/
  | noOperator (role : Role)
  /-- A mark reached the output. -/
  | markInOutput (role : Role)
  /-- The reduction left a number of terms other than one. -/
  | unbalanced (count : Nat)
deriving DecidableEq

namespace Defect

def message : Defect → String
  | .stackUnderflow => "stack underflow"
  | .meeting top new => top.text ++ " token may not meet " ++ new.text ++ " token"
  | .missingForm role token => "no " ++ role.text ++ " definition for " ++ token
  | .fixedToken role wanted => "cannot resolve " ++ role.text ++ " token to " ++ wanted.text
  | .fixedRole role wanted => "cannot resolve " ++ role.text ++ " operator to " ++ wanted.text
  | .noIndex name => Text.quoted name ++ " has no index"
  | .indexOutOfRange => "operator index out of range"
  | .undecided token => token ++ " has no resolved descriptor"
  | .notReduced role => role.text ++ " token in input stack at reduction"
  | .noOperator role => role.text ++ " operator in output"
  | .markInOutput role => role.text ++ " token in output"
  | .unbalanced count => Text.decimal count ++ " terms left after assembly"

end Defect

/-- Why no term is built. -/
inductive Failure where
  | rejected (cause : Rejection)
  | internal (cause : Defect)
deriving DecidableEq

namespace Failure

def message : Failure → String
  | .rejected cause => "syntax error: " ++ cause.message
  | .internal cause => "internal error: " ++ cause.message

/-- The failure with its cause, outermost first. -/
def chain : Failure → List String
  | .rejected cause => ["syntax error: " ++ cause.message, cause.message]
  | .internal cause => ["internal error: " ++ cause.message]

end Failure

end OperatorGrammar
