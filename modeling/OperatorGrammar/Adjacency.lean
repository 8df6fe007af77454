/-
# Adjacency -- which token may follow which

A token is judged when it arrives, against the one token in front of it.  The
sequences that pass are those of

    Expr   = Factor (infix Factor)*
    Factor = prefix* operand postfix*

and a single operator, which is then an atom.  Open roles are decided here: one
that is infix or prefix when it arrives, one that is infix or postfix when the
next token arrives.  Operators that touch are compared by precedence; operators
that compete for an operand between them are left to the reduction.

`Front` and `Arrival` are the parts that a token can play on either side of the
judgement.  Every pair of them has a rule, so the rules form a total function; a
role that has no part on its side is a defect of the caller.  An objection is the
rejection that a comparison of two operators leads to, if it fails.
-/
import OperatorGrammar.Token

namespace OperatorGrammar

set_option autoImplicit false

/-- What a token can be for the token that follows it. -/
inductive Front where
  | start
  | operand
  | infixOp
  | prefixOp
  | postfixOp
  | infixOrPostfix
deriving DecidableEq

/-- What an arriving token can be. -/
inductive Arrival where
  | stop
  | operand
  | infixOp
  | prefixOp
  | postfixOp
  | infixOrPrefix
  | infixOrPostfix
deriving DecidableEq

namespace Role

/-- The part of a role in front of another token.  An operator that stands for an
atom is an operand there. -/
def asFront? : Role → Option Front
  | .start => some .start
  | .operand | .zerofix => some .operand
  | .infixOp => some .infixOp
  | .prefixOp => some .prefixOp
  | .postfixOp => some .postfixOp
  | .infixOrPostfix => some .infixOrPostfix
  | .stop | .infixOrPrefix => none

/-- The part of a role on arrival. -/
def asArrival? : Role → Option Arrival
  | .stop => some .stop
  | .operand => some .operand
  | .infixOp => some .infixOp
  | .prefixOp => some .prefixOp
  | .postfixOp => some .postfixOp
  | .infixOrPrefix => some .infixOrPrefix
  | .infixOrPostfix => some .infixOrPostfix
  | .start | .zerofix => none

end Role

/-- The judgement on an arriving token. -/
inductive Verdict where
  /-- It joins the sequence as it is. -/
  | accept
  /-- It joins in the given role. -/
  | acceptAs (role : Role)
  /-- It joins as the infix operator that starts the sequence. -/
  | acceptFlagged
  /-- The token in front takes on the role `top`, then the new one joins as `new`. -/
  | resolve (top new : Role)
  | reject (cause : Rejection)
deriving DecidableEq

namespace Operator

/-- The objection to `arg` as the operator heading the left argument of `op`. -/
def leftObjection? (op arg : Operator) : Option Rejection :=
  if op.leftAccepts arg then none else some (.invalidLeftArg op.text arg.text)

/-- The objection to `arg` as the operator heading the right argument of `op`. -/
def rightObjection? (op arg : Operator) : Option Rejection :=
  if op.rightAccepts arg then none else some (.invalidRightArg op.text arg.text)

/-- The objection to `inner` directly behind the prefix operator `outer`. -/
def prefixObjection? (outer inner : Operator) : Option Rejection :=
  if outer.accepts inner then none else some (.illegalAdjacency outer.text inner.text)

/-- The objection to `outer` directly behind the postfix operator `inner`. -/
def postfixObjection? (inner outer : Operator) : Option Rejection :=
  if outer.accepts inner then none else some (.illegalAdjacency inner.text outer.text)

end Operator

/-- `verdict`, unless there is an objection. -/
def Verdict.unless (verdict : Verdict) : Option Rejection → Verdict
  | none => verdict
  | some cause => .reject cause

/-- A token on arrival and what its judgement depends on. -/
structure Adjacency where
  /-- The token in front. -/
  top : Token
  /-- The arriving token. -/
  new : Token
  /-- The number of tokens up to `top`, the start mark included. -/
  height : Nat
  /-- Whether `top` is an infix operator that starts the sequence. -/
  infixAtStart : Bool

namespace Adjacency

/-- Whether the token in front is the only one behind the start mark. -/
def sole (a : Adjacency) : Bool := a.height = 2

/-- The operator that `token` stands for in `role`. -/
def formFor (token : Token) (role : Role) : Except Failure Operator :=
  match token.formFor? role with
  | some op => .ok op
  | none => .error (.internal (.missingForm role token.describe))

def topForm (a : Adjacency) (role : Role) : Except Failure Operator := formFor a.top role

def newForm (a : Adjacency) (role : Role) : Except Failure Operator := formFor a.new role

/-- The postfix operator in front of the token in front. -/
def prevPostfix? (a : Adjacency) : Option Operator :=
  a.top.prev?.filter (·.fixity = .postfixOp)

/-- The pair may never meet. -/
def illegal (a : Adjacency) : Verdict :=
  .reject (.illegalAdjacency a.top.describe a.new.describe)

/-- The sequence stops after an operator that waits for an operand. -/
def atStop (a : Adjacency) : Verdict :=
  if a.sole then .resolve .zerofix .stop else .reject (.unexpectedEnd a.top.describe)

/-- The objection of the token in front, if decided for `role`, to the postfix
operator before it, which becomes its left argument. -/
def prevObjection (a : Adjacency) (role : Role) : Except Failure (Option Rejection) :=
  match a.prevPostfix?, role with
  | some prev, .infixOp => do
      let op ← a.topForm .infixOp
      return op.leftObjection? prev
  | some prev, .postfixOp => do
      let op ← a.topForm .postfixOp
      return prev.postfixObjection? op
  | _, _ => .ok none

/-- Decides the token in front for `top` if it suits its own neighbour and there is
no other objection. -/
def resolveTop (a : Adjacency) (top new : Role) (other : Option Rejection) :
    Except Failure Verdict := do
  let own ← a.prevObjection top
  return (Verdict.resolve top new).unless (own.or other)

/-- A prefix operator behind an infix operator heads its right argument. -/
def infixThenPrefix (a : Adjacency) : Except Failure (Option Rejection) := do
  let outer ← a.topForm .infixOp
  let inner ← a.newForm .prefixOp
  return outer.rightObjection? inner

/-- A prefix operator behind a prefix operator heads its argument. -/
def prefixThenPrefix (a : Adjacency) : Except Failure (Option Rejection) := do
  let outer ← a.topForm .prefixOp
  let inner ← a.newForm .prefixOp
  return outer.prefixObjection? inner

/-- A postfix operator in front of an infix operator heads its left argument. -/
def postfixThenInfix (a : Adjacency) : Except Failure (Option Rejection) := do
  let outer ← a.newForm .infixOp
  let inner ← a.topForm .postfixOp
  return outer.leftObjection? inner

/-- A postfix operator in front of a postfix operator heads its argument. -/
def postfixThenPostfix (a : Adjacency) : Except Failure (Option Rejection) := do
  let inner ← a.topForm .postfixOp
  let outer ← a.newForm .postfixOp
  return inner.postfixObjection? outer

/-- Both tokens are open: an infix operator before a prefix operator, or a postfix
operator before an infix operator.  If both readings pass, the pair is ambiguous;
if none does, the second reading's objection stands. -/
def openPair (a : Adjacency) : Except Failure Verdict := do
  let ownInfix ← a.prevObjection .infixOp
  let asInfix ← a.infixThenPrefix
  let ownPostfix ← a.prevObjection .postfixOp
  let asPostfix ← a.postfixThenInfix
  return match ownInfix.or asInfix, ownPostfix.or asPostfix with
    | none, none => .reject (.ambiguous a.top.describe a.new.describe)
    | none, some _ => .resolve .infixOp .prefixOp
    | some _, none => .resolve .postfixOp .infixOp
    | some _, some cause => .reject cause

/-- The rule for each pair of parts. -/
def rule (a : Adjacency) : Front → Arrival → Except Failure Verdict
  | .start, .stop => .ok (.reject .emptyTerm)
  | .start, .operand => .ok .accept
  | .start, .infixOp => .ok .acceptFlagged
  | .start, .prefixOp => .ok .accept
  | .start, .postfixOp => .ok (.acceptAs .zerofix)
  | .start, .infixOrPrefix => .ok (.acceptAs .prefixOp)
  | .start, .infixOrPostfix => .ok (.acceptAs .zerofix)
  | .operand, .stop => .ok .accept
  | .operand, .operand => .ok a.illegal
  | .operand, .infixOp => .ok .accept
  | .operand, .prefixOp => .ok a.illegal
  | .operand, .postfixOp => .ok .accept
  | .operand, .infixOrPrefix => .ok (.acceptAs .infixOp)
  | .operand, .infixOrPostfix => .ok .accept
  | .infixOp, .stop => .ok a.atStop
  | .infixOp, .operand => .ok .accept
  | .infixOp, .infixOp => .ok a.illegal
  | .infixOp, .prefixOp => do return Verdict.accept.unless (← a.infixThenPrefix)
  | .infixOp, .postfixOp => .ok a.illegal
  | .infixOp, .infixOrPrefix => do
      return (Verdict.acceptAs .prefixOp).unless (← a.infixThenPrefix)
  | .infixOp, .infixOrPostfix => .ok a.illegal
  | .prefixOp, .stop => .ok a.atStop
  | .prefixOp, .operand => .ok .accept
  | .prefixOp, .infixOp => .ok a.illegal
  | .prefixOp, .prefixOp => do return Verdict.accept.unless (← a.prefixThenPrefix)
  | .prefixOp, .postfixOp => .ok a.illegal
  | .prefixOp, .infixOrPrefix => do
      return (Verdict.acceptAs .prefixOp).unless (← a.prefixThenPrefix)
  | .prefixOp, .infixOrPostfix => .ok a.illegal
  | .postfixOp, .stop => .ok (if a.sole then .resolve .zerofix .stop else .accept)
  | .postfixOp, .operand => .ok a.illegal
  | .postfixOp, .infixOp => do return Verdict.accept.unless (← a.postfixThenInfix)
  | .postfixOp, .prefixOp => .ok a.illegal
  | .postfixOp, .postfixOp => do return Verdict.accept.unless (← a.postfixThenPostfix)
  | .postfixOp, .infixOrPrefix => do
      return (Verdict.acceptAs .infixOp).unless (← a.postfixThenInfix)
  | .postfixOp, .infixOrPostfix => .ok .accept
  | .infixOrPostfix, .stop =>
      if a.sole then .ok (.resolve .zerofix .stop) else a.resolveTop .postfixOp .stop none
  | .infixOrPostfix, .operand => a.resolveTop .infixOp .operand none
  | .infixOrPostfix, .infixOp => do
      a.resolveTop .postfixOp .infixOp (← a.postfixThenInfix)
  | .infixOrPostfix, .prefixOp => do
      a.resolveTop .infixOp .prefixOp (← a.infixThenPrefix)
  | .infixOrPostfix, .postfixOp => do
      a.resolveTop .postfixOp .postfixOp (← a.postfixThenPostfix)
  | .infixOrPostfix, .infixOrPrefix => a.openPair
  | .infixOrPostfix, .infixOrPostfix => a.resolveTop .postfixOp .infixOrPostfix none

/-- Judges the arriving token.  Behind an infix operator that starts the sequence
only the stop mark may follow. -/
def judge (a : Adjacency) : Except Failure Verdict :=
  match a.top.role.asFront?, a.new.role.asArrival? with
  | some front, some arrival =>
      if a.infixAtStart && arrival != .stop then
        .ok (.reject (.infixAtStart a.top.describe))
      else a.rule front arrival
  | _, _ => .error (.internal (.meeting a.top.role a.new.role))

end Adjacency

end OperatorGrammar
