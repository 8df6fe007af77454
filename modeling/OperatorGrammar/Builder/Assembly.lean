/-
# Builder.Assembly -- from prefix order to a term

Read from its right end, a list in prefix order hands every operator the terms of
its arguments: an operator applies itself to the first two terms built so far if
it is infix, to the first one otherwise, and leaves its own term in their place.
A well-formed list leaves a single term.
-/
import OperatorGrammar.Builder.Shunting

namespace OperatorGrammar

set_option autoImplicit false

namespace Symbol

/-- Applies one symbol to the terms built to the right of it. -/
def build : Symbol → List Term → Except Failure (List Term)
  | .leaf term, terms => .ok (term :: terms)
  | .operator op, terms =>
      match op.fixity, terms with
      | .infixOp, left :: right :: rest => .ok (op.apply [left, right] :: rest)
      | .prefixOp, arg :: rest | .postfixOp, arg :: rest => .ok (op.apply [arg] :: rest)
      | _, _ => .error (.internal .stackUnderflow)

/-- The terms that a list in prefix order builds, from left to right. -/
def buildAll : List Symbol → Except Failure (List Term)
  | [] => .ok []
  | symbol :: rest => buildAll rest >>= symbol.build

/-- The single term that a list in prefix order builds. -/
def assemble (symbols : List Symbol) : Except Failure Term := do
  match ← buildAll symbols with
  | [term] => .ok term
  | terms => .error (.internal (.unbalanced terms.length))

end Symbol

end OperatorGrammar
