/-
# Stack -- stacks

A stack is the list of its members, the top first.  Taking from an empty stack is a
defect of whoever does it.
-/
import OperatorGrammar.Failure

namespace OperatorGrammar

set_option autoImplicit false

/-- The members of a stack, the top first. -/
abbrev Stack (α : Type) := List α

namespace Stack

variable {α : Type}

def push (s : Stack α) (x : α) : Stack α := x :: s

def top? (s : Stack α) : Option α := s.head?

/-- The top and what lies below it. -/
def pop : Stack α → Except Failure (α × Stack α)
  | [] => .error (.internal .stackUnderflow)
  | x :: s => .ok (x, s)

/-- The old top, and the stack with `x` in its place. -/
def replaceTop (s : Stack α) (x : α) : Except Failure (α × Stack α) := do
  let (old, below) ← pop s
  return (old, push below x)

/-- Both stacks after the top of `s` has moved onto `t`. -/
def moveTop (s t : Stack α) : Except Failure (Stack α × Stack α) := do
  let (x, below) ← pop s
  return (below, push t x)

end Stack

end OperatorGrammar
