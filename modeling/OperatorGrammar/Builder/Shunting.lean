/-
# Builder.Shunting -- from a sequence to prefix order

An accepted sequence is read from its right end.  Operands and prefix operators go
to the output at once; infix and postfix operators wait on a pending stack.  Before
an infix or a prefix operator is placed, the pending operators that belong inside
its right argument are released to the output: those of smaller precedence, and
those of its own precedence that a tie puts there.  Whatever still waits in the end
follows.  The output, read from its top, is then the sequence in prefix order.

A tie that puts neither or both operators inside the other ends the reduction.
The failure keeps the operators released before it, so that what was done can be
told either way.
-/
import OperatorGrammar.Failure
import OperatorGrammar.Operator.Basic

namespace OperatorGrammar

set_option autoImplicit false

/-- A member of a decided sequence: a term, or an operator at work. -/
inductive Symbol where
  | leaf (term : Term)
  | operator (op : Operator)

/-- A reduction at rest between two symbols. -/
structure Shunting where
  /-- Infix and postfix operators that wait, the leftmost first. -/
  pending : List Operator := []
  /-- Symbols in prefix order, the first to be read first. -/
  output : List Symbol := []
  /-- Operators released so far, the latest first. -/
  released : List Operator := []

namespace Shunting

/-- A failed reduction. -/
structure Stuck where
  cause : Rejection
  released : List Operator

/-- Whether the operator `r` further right belongs inside the right argument of
`l`, if the two can share the operand between them at all. -/
def nests (l r : Operator) : Except Rejection Bool :=
  if r.prec < l.prec then .ok true
  else if l.prec < r.prec then .ok false
  else match l.tie r with
    | .right => .ok true
    | .left => .ok false
    | .clash => .error (.clash l.text r.text)
    | .ambiguous => .error (.ambiguous l.text r.text)

/-- Releases pending operators, from the front, as long as they belong inside the
right argument of `op`. -/
def releaseFor (op : Operator) :
    List Operator → List Symbol → List Operator → Except Stuck Shunting
  | [], output, released => .ok ⟨[], output, released⟩
  | top :: pending, output, released =>
      match nests op top with
      | .ok true => releaseFor op pending (.operator top :: output) (top :: released)
      | .ok false => .ok ⟨top :: pending, output, released⟩
      | .error cause => .error ⟨cause, released⟩

def release (s : Shunting) (op : Operator) : Except Stuck Shunting :=
  releaseFor op s.pending s.output s.released

/-- Places the next symbol to the left. -/
def place (s : Shunting) : Symbol → Except Stuck Shunting
  | .leaf term => .ok { s with output := .leaf term :: s.output }
  | .operator op =>
      match op.fixity with
      | .infixOp => do
          let s ← s.release op
          return { s with pending := op :: s.pending }
      | .prefixOp => do
          let s ← s.release op
          return { s with output := .operator op :: s.output }
      | .postfixOp => .ok { s with pending := op :: s.pending }

/-- Places symbols in turn, the rightmost of the sequence first. -/
def run (s : Shunting) (symbols : List Symbol) : Except Stuck Shunting :=
  symbols.foldlM place s

/-- The output with all pending operators behind it. -/
def finish (s : Shunting) : List Symbol :=
  s.pending.foldl (fun output op => .operator op :: output) s.output

theorem finish_eq (s : Shunting) :
    s.finish = (s.pending.map Symbol.operator).reverse ++ s.output := by
  unfold finish
  generalize s.output = output
  induction s.pending generalizing output with
  | nil => rfl
  | cons op pending ih => simp [ih]

/-- How many operators leave the pending stack, the last ones included. -/
def moves (s : Shunting) : Nat := s.released.length + s.pending.length

end Shunting

end OperatorGrammar
