/-
# Builder.Basic -- building one term

A builder takes the items of one term from left to right.  Each item is judged
against the token on top of the stack of accepted tokens (`Adjacency.judge`); a
rejected one leaves no builder, so its predecessor goes on as if the item had never
come.  `conclude` judges the stop mark and reduces the sequence.

Beside the stack a builder keeps what it did: three counters, and a trace of the
decisions about tokens that were already accepted.  The trace of a conclusion
continues it with the operators moved during the reduction and with the term, and
it is there also when no term is.
-/
import OperatorGrammar.Adjacency
import OperatorGrammar.Builder.Assembly
import OperatorGrammar.Stack
import OperatorGrammar.Table.Basic

namespace OperatorGrammar

set_option autoImplicit false

/-- How much work a builder has done. -/
structure Stats where
  /-- Accepted tokens. -/
  tokens : Nat := 0
  /-- Roles decided, on arrival or later. -/
  resolutions : Nat := 0
  /-- Operators that left the pending stack. -/
  moves : Nat := 0
deriving DecidableEq

/-- Something a builder did. -/
inductive Event where
  | resolved (token : Token) (role : Role)
  | moved (op : Operator)
  | built (term : Term) (stats : Stats)

def Event.text : Event → String
  | .resolved token role => "resolved " ++ token.describe ++ " to " ++ role.text
  | .moved op => "move " ++ op.text ++ " to output"
  | .built term stats =>
      "built " ++ term.text ++ " (BuilderStats \x7b tokens: " ++ Text.decimal stats.tokens
        ++ ", resolutions: " ++ Text.decimal stats.resolutions
        ++ ", moves: " ++ Text.decimal stats.moves ++ " \x7d)"

structure Builder where
  /-- Accepted tokens, the latest first, the start mark last. -/
  tokens : Stack Token
  /-- Whether the latest token is an infix operator that starts the sequence. -/
  infixAtStart : Bool
  stats : Stats
  /-- What was done so far, the latest first. -/
  trace : List Event

/-- The end of a builder: a term or the reason for having none, and all that was
done, the latest first. -/
structure Conclusion where
  result : Except Failure Term
  trace : List Event

namespace Builder

/-- The builder of an empty sequence. -/
def empty : Builder := { tokens := [.start], infixAtStart := false, stats := {}, trace := [] }

/-- The latest token. -/
def top (b : Builder) : Except Failure Token :=
  match Stack.top? b.tokens with
  | some token => .ok token
  | none => .error (.internal .stackUnderflow)

/-- Decides the latest token for a role. -/
def resolveTop (b : Builder) (role : Role) : Except Failure Builder := do
  let top ← b.top
  let resolved ← top.resolve role
  let (_, tokens) ← Stack.replaceTop b.tokens resolved
  return { b with
    tokens
    stats := { b.stats with resolutions := b.stats.resolutions + 1 }
    trace := .resolved top role :: b.trace }

/-- Gives an arriving token its role; to have one decided counts. -/
def resolveNew (b : Builder) (token : Token) (role : Role) : Except Failure (Token × Builder) := do
  let resolved ← token.resolve role
  let decided := if role = token.role then 0 else 1
  return (resolved,
    { b with stats := { b.stats with resolutions := b.stats.resolutions + decided } })

/-- Judges an arriving token and carries the verdict out, up to pushing the token:
the token in its role, with the one in front of it recorded, and the builder. -/
def receive (b : Builder) (token : Token) : Except Failure (Token × Builder) := do
  let top ← b.top
  let verdict ← Adjacency.judge
    { top, new := token, height := b.tokens.length, infixAtStart := b.infixAtStart }
  let (token, b) ← match verdict with
    | .accept => .ok (token, { b with infixAtStart := false })
    | .acceptFlagged => .ok (token, { b with infixAtStart := true })
    | .acceptAs role => resolveNew { b with infixAtStart := false } token role
    | .resolve topRole role => do
        let b ← b.resolveTop topRole
        resolveNew { b with infixAtStart := false } token role
    | .reject cause => .error (.rejected cause)
  let top ← b.top
  return (token.follow top, b)

/-- Accepts a token at the end of the sequence. -/
def add (b : Builder) (token : Token) : Except Failure Builder := do
  let (token, b) ← b.receive token
  return { b with
    tokens := Stack.push b.tokens token
    stats := { b.stats with tokens := b.stats.tokens + 1 } }

/-! ## Items -/

/-- Adds a finished term. -/
def addOperand (b : Builder) (term : Term) : Except Failure Builder := b.add (.operand term)

/-- Adds an occurrence of an operator of the table. -/
def addOperator (table : Table) (b : Builder) (name : String) : Except Failure Builder :=
  match table.find? name with
  | some entry =>
      match entry.role? with
      | some role => b.add (.operator { entry, role })
      | none => .error (.rejected (.notAnOperator name))
  | none => .error (.rejected (.notAnOperator name))

/-- The functors that build a list cell from two arguments. -/
def cellFunctors : List String := ["[|]", "."]

/-- The term of a functor applied to arguments, where two arguments of a cell
functor make a list cell. -/
def applicationTerm (functor : String) (args : List Term) : Term :=
  match args with
  | [head, tail] =>
      if functor ∈ cellFunctors then .cons head tail else .application functor args
  | _ => .application functor args

/-- Adds a functor applied to arguments. -/
def addApplication (b : Builder) (functor : String) (args : List Term) :
    Except Failure Builder :=
  b.addOperand (applicationTerm functor args)

/-- Adds what stands between parentheses: one term is itself, several are joined
under the functor `,`. -/
def addGroup (b : Builder) : List Term → Except Failure Builder
  | [] => .error (.rejected .emptyArgumentList)
  | [term] => b.addOperand term
  | terms => b.addOperand (.application "," terms)

/-- The term of an operator name applied to arguments.  If the name has an operator
of that many arguments, the operator builds the term. -/
def operatorTerm (table : Table) (name : String) (args : List Term) : Term :=
  match (table.find? name).bind (·.formOfArity? args.length) with
  | some op => op.apply args
  | none => .application name args

/-- Adds the name of an operator applied to arguments. -/
def addOperatorApplication (table : Table) (b : Builder) (name : String) (args : List Term) :
    Except Failure Builder :=
  b.addOperand (operatorTerm table name args)

end Builder

/-! ## Conclusion -/

namespace Token

/-- What a decided token is for the reduction. -/
def symbol (t : Token) : Except Failure Symbol :=
  match t with
  | .operand term => .ok (.leaf term)
  | .operator o =>
      if o.role = .zerofix then .ok (.leaf (.atom o.entry.name))
      else match o.form? with
        | some op => .ok (.operator op)
        | none => .error (.internal (.undecided t.describe))
  | _ => .error (.internal (.undecided t.describe))

end Token

namespace Builder

/-- The symbols of the sequence, the rightmost first. -/
def symbols (b : Builder) : Except Failure (List Symbol) := b.tokens.dropLast.mapM Token.symbol

/-- Reduces a sequence whose end has been accepted. -/
def reduce (b : Builder) : Conclusion :=
  match b.symbols with
  | .error e => ⟨.error e, b.trace⟩
  | .ok symbols =>
      match Shunting.run {} symbols with
      | .error stuck =>
          ⟨.error (.rejected stuck.cause), stuck.released.map .moved ++ b.trace⟩
      | .ok s =>
          let trace := s.released.map .moved ++ b.trace
          match Symbol.assemble s.finish with
          | .error e => ⟨.error e, trace⟩
          | .ok term =>
              ⟨.ok term, .built term { b.stats with moves := s.moves } :: trace⟩

/-- Ends the sequence. -/
def conclude (b : Builder) : Conclusion :=
  match b.receive .stop with
  | .error e => ⟨.error e, b.trace⟩
  | .ok (_, b) => b.reduce

/-- The term of the sequence. -/
def finish (b : Builder) : Except Failure Term := b.conclude.result

end Builder

end OperatorGrammar
