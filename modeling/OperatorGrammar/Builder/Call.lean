/-
# Builder.Call -- sequences of calls

A call is anything that can be asked of a builder before its conclusion.  `perform`
carries one out or fails; `attempt` goes on with the builder as it was when a call
fails, so that a sequence of attempts is a history in which any call may have been
refused.
-/
import OperatorGrammar.Builder.Item

namespace OperatorGrammar

set_option autoImplicit false

inductive Call where
  | operand (term : Term)
  | operator (name : String)
  | application (functor : String) (args : List Term)
  | group (terms : List Term)
  | operatorApplication (name : String) (args : List Term)

namespace Builder

/-- Carries out a call. -/
def perform (table : Table) (b : Builder) : Call → Except Failure Builder
  | .operand term => b.addOperand term
  | .operator name => addOperator table b name
  | .application functor args => b.addApplication functor args
  | .group terms => b.addGroup terms
  | .operatorApplication name args => addOperatorApplication table b name args

/-- Carries out a call, or leaves the builder as it is and says why. -/
def attempt (table : Table) (b : Builder) (call : Call) : Builder × Option Failure :=
  match perform table b call with
  | .ok next => (next, none)
  | .error e => (b, some e)

/-- The builder behind a sequence of attempts. -/
def attemptAll (table : Table) (b : Builder) (calls : List Call) : Builder :=
  calls.foldl (fun b call => (attempt table b call).1) b

end Builder

end OperatorGrammar
