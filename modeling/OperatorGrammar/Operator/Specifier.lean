/-
# Operator.Specifier -- the seven kinds of operators

A specifier names where an operator stands and how tightly its arguments must
bind: `f` is the operator, `x` an argument of lower precedence, `y` an argument of
the same precedence at most.  Everything else about a kind follows from it:

    xfx  infix    x < f    x < f      not associative
    xfy  infix    x < f    y =< f     right-associative
    yfx  infix    y =< f   x < f      left-associative
    fx   prefix            x < f      not associative
    fy   prefix            y =< f     right-associative
    xf   postfix  x < f               not associative
    yf   postfix  y =< f              left-associative
-/

namespace OperatorGrammar

set_option autoImplicit false

/-- Where an operator stands: before its argument, between two, or after it. -/
inductive Fixity where
  | prefixOp
  | infixOp
  | postfixOp
deriving DecidableEq

namespace Fixity

def all : List Fixity := [.prefixOp, .infixOp, .postfixOp]

def text : Fixity → String
  | .prefixOp => "prefix"
  | .infixOp => "infix"
  | .postfixOp => "postfix"

/-- The capitalized name, used in error messages. -/
def title : Fixity → String
  | .prefixOp => "Prefix"
  | .infixOp => "Infix"
  | .postfixOp => "Postfix"

/-- The place in `all`. -/
def index : Fixity → Nat
  | .prefixOp => 0
  | .infixOp => 1
  | .postfixOp => 2

def ofText? (s : String) : Option Fixity := all.find? (·.text = s)

theorem ofText?_text (f : Fixity) : ofText? f.text = some f := by cases f <;> decide

end Fixity

/-- On which side an operator may take an argument of its own precedence. -/
inductive Associativity where
  | none
  | left
  | right
deriving DecidableEq

namespace Associativity

def all : List Associativity := [.none, .left, .right]

def text : Associativity → String
  | .none => "none"
  | .left => "left"
  | .right => "right"

/-- The capitalized name, used in error messages. -/
def title : Associativity → String
  | .none => "None"
  | .left => "Left"
  | .right => "Right"

/-- The place in `all`. -/
def index : Associativity → Nat
  | .none => 0
  | .left => 1
  | .right => 2

def ofText? (s : String) : Option Associativity := all.find? (·.text = s)

theorem ofText?_text (a : Associativity) : ofText? a.text = some a := by cases a <;> decide

end Associativity

/-- How the precedence of an argument must compare with the operator's. -/
inductive Relation where
  | strict
  | nonStrict
deriving DecidableEq

namespace Relation

/-- Whether an argument of precedence `arg` suits an operator of precedence `oper`. -/
def holds : Relation → (arg oper : Nat) → Bool
  | .strict, arg, oper => arg < oper
  | .nonStrict, arg, oper => arg ≤ oper

def text : Relation → String
  | .strict => "<"
  | .nonStrict => "=<"

end Relation

/-- The kind of an operator. -/
inductive Specifier where
  | xfx
  | xfy
  | yfx
  | fy
  | fx
  | xf
  | yf
deriving DecidableEq

namespace Specifier

def all : List Specifier := [.xfx, .xfy, .yfx, .fy, .fx, .xf, .yf]

def text : Specifier → String
  | .xfx => "xfx"
  | .xfy => "xfy"
  | .yfx => "yfx"
  | .fy => "fy"
  | .fx => "fx"
  | .xf => "xf"
  | .yf => "yf"

def ofText? (s : String) : Option Specifier := all.find? (·.text = s)

theorem ofText?_text (s : Specifier) : ofText? s.text = some s := by cases s <;> decide

def fixity : Specifier → Fixity
  | .xfx | .xfy | .yfx => .infixOp
  | .fy | .fx => .prefixOp
  | .xf | .yf => .postfixOp

def associativity : Specifier → Associativity
  | .xfx | .fx | .xf => .none
  | .yfx | .yf => .left
  | .xfy | .fy => .right

/-- The relation on the left; a side without argument counts as strict. -/
def left : Specifier → Relation
  | .yfx | .yf => .nonStrict
  | _ => .strict

/-- The relation on the right; a side without argument counts as strict. -/
def right : Specifier → Relation
  | .xfy | .fy => .nonStrict
  | _ => .strict

/-- The specifier of a place and an associativity.  A prefix operator is never
left-associative and a postfix operator never right-associative. -/
def ofParts? (fixity : Fixity) (associativity : Associativity) : Option Specifier :=
  all.find? fun s => s.fixity = fixity && s.associativity = associativity

theorem ofParts?_fixity_associativity (s : Specifier) :
    ofParts? s.fixity s.associativity = some s := by cases s <;> decide

end Specifier

end OperatorGrammar
