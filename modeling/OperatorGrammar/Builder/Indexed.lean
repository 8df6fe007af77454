/-
# Builder.Indexed -- a builder that knows operators by their places

An occurrence of an operator can be kept as the place of its name in the table, and so can
the operator in front of it, as that place with a fixity.  Such a token says nothing without
its table: the judgement and every message look its operators up, and so does the reduction,
which moves the tokens themselves and asks for an operator when it compares or applies one.

`IndexedBuilder` is the builder of such tokens.  `Builder` is what it stands for: there every
token carries what a look-up would find.
-/
import OperatorGrammar.Builder.Call

namespace OperatorGrammar

set_option autoImplicit false

/-- An operator, known by the place of its name and its fixity. -/
structure FormRef where
  index : Nat
  fixity : Fixity
deriving DecidableEq

/-- The operator that a table keeps there. -/
def FormRef.find? (table : Table) (r : FormRef) : Option Operator :=
  (table.get? r.index).bind (·.form? r.fixity)

inductive IndexedToken where
  | start
  | stop
  | operand (term : Term)
  /-- An occurrence of the name at a place, and the operator of the token in front. -/
  | operator (index : Nat) (role : Role) (prev : Option FormRef)

namespace IndexedToken

def role : IndexedToken → Role
  | .start => .start
  | .stop => .stop
  | .operand _ => .operand
  | .operator _ role _ => role

/-- The operator of a token in its role. -/
def formRef? : IndexedToken → Option FormRef
  | .operator index role _ => role.fixity?.map fun fixity => ⟨index, fixity⟩
  | _ => none

/-- The token that a table makes of this one. -/
def lookUp (table : Table) : IndexedToken → Token
  | .start => .start
  | .stop => .stop
  | .operand term => .operand term
  | .operator index role prev =>
      .operator { entry := table.entryAt index, role, prev := prev.bind (·.find? table) }

/-- The token in the role `wanted`, which takes no table. -/
def resolve (t : IndexedToken) (wanted : Role) : Except Failure IndexedToken :=
  if t.role = wanted then .ok t
  else match t with
    | .operator index role prev =>
        if role.mayBecome wanted then .ok (.operator index wanted prev)
        else .error (.internal (.fixedRole role wanted))
    | t => .error (.internal (.fixedToken t.role wanted))

/-- The token with `top` in front of it. -/
def follow (t top : IndexedToken) : IndexedToken :=
  match t with
  | .operator index role _ => .operator index role top.formRef?
  | t => t

end IndexedToken

structure IndexedBuilder where
  /-- Accepted tokens, the latest first, the start mark last. -/
  tokens : Stack IndexedToken
  /-- Whether the latest token is an infix operator that starts the sequence. -/
  infixAtStart : Bool
  stats : Stats
  /-- What was done so far, the latest first. -/
  trace : List Event

namespace IndexedBuilder

/-- The builder of an empty sequence. -/
def empty : IndexedBuilder :=
  { tokens := [.start], infixAtStart := false, stats := {}, trace := [] }

/-- The builder that a table makes of this one. -/
def lookUp (table : Table) (b : IndexedBuilder) : Builder where
  tokens := b.tokens.map (·.lookUp table)
  infixAtStart := b.infixAtStart
  stats := b.stats
  trace := b.trace

/-- The latest token. -/
def top (b : IndexedBuilder) : Except Failure IndexedToken :=
  match Stack.top? b.tokens with
  | some token => .ok token
  | none => .error (.internal .stackUnderflow)

/-- Decides the latest token for a role. -/
def resolveTop (table : Table) (b : IndexedBuilder) (role : Role) :
    Except Failure IndexedBuilder := do
  let top ← b.top
  let resolved ← top.resolve role
  let (_, tokens) ← Stack.replaceTop b.tokens resolved
  return { b with
    tokens
    stats := { b.stats with resolutions := b.stats.resolutions + 1 }
    trace := .resolved (top.lookUp table) role :: b.trace }

/-- Gives an arriving token its role; to have one decided counts. -/
def resolveNew (b : IndexedBuilder) (token : IndexedToken) (role : Role) :
    Except Failure (IndexedToken × IndexedBuilder) := do
  let resolved ← token.resolve role
  let decided := if role = token.role then 0 else 1
  return (resolved,
    { b with stats := { b.stats with resolutions := b.stats.resolutions + decided } })

/-- What a verdict makes of the arriving token and of the builder. -/
def carryOut (table : Table) (b : IndexedBuilder) (token : IndexedToken) :
    Verdict → Except Failure (IndexedToken × IndexedBuilder)
  | .accept => .ok (token, { b with infixAtStart := false })
  | .acceptFlagged => .ok (token, { b with infixAtStart := true })
  | .acceptAs role => resolveNew { b with infixAtStart := false } token role
  | .resolve topRole role => do
      let b ← b.resolveTop table topRole
      resolveNew { b with infixAtStart := false } token role
  | .reject cause => .error (.rejected cause)

/-- Records the latest token in the one that follows it. -/
def followTop (received : IndexedToken × IndexedBuilder) :
    Except Failure (IndexedToken × IndexedBuilder) := do
  let top ← received.2.top
  return (received.1.follow top, received.2)

/-- Judges an arriving token by what the table says of it and of the latest one, and carries
the verdict out, up to pushing the token. -/
def receive (table : Table) (b : IndexedBuilder) (token : IndexedToken) :
    Except Failure (IndexedToken × IndexedBuilder) := do
  let top ← b.top
  let verdict ← Adjacency.judge
    { top := top.lookUp table, new := token.lookUp table, height := b.tokens.length,
      infixAtStart := b.infixAtStart }
  followTop (← b.carryOut table token verdict)

/-- Accepts a token at the end of the sequence. -/
def add (table : Table) (b : IndexedBuilder) (token : IndexedToken) :
    Except Failure IndexedBuilder := do
  let (token, b) ← b.receive table token
  return { b with
    tokens := Stack.push b.tokens token
    stats := { b.stats with tokens := b.stats.tokens + 1 } }

/-- Adds an occurrence of an operator of the table. -/
def addOperator (table : Table) (b : IndexedBuilder) (name : String) :
    Except Failure IndexedBuilder :=
  match (table.find? name).bind Entry.role? with
  | none => .error (.rejected (.notAnOperator name))
  | some role =>
      match table.index? name with
      | some index => b.add table (.operator index role none)
      | none => .error (.internal (.noIndex name))

/-- Carries out a call. -/
def perform (table : Table) (b : IndexedBuilder) : Call → Except Failure IndexedBuilder
  | .operand term => b.add table (.operand term)
  | .operator name => b.addOperator table name
  | .application functor args => b.add table (.operand (Builder.applicationTerm functor args))
  | .group [] => .error (.rejected .emptyArgumentList)
  | .group [term] => b.add table (.operand term)
  | .group terms => b.add table (.operand (.application "," terms))
  | .operatorApplication name args => b.add table (.operand (Builder.operatorTerm table name args))

/-- Carries out a call, or leaves the builder as it is and says why. -/
def attempt (table : Table) (b : IndexedBuilder) (call : Call) :
    IndexedBuilder × Option Failure :=
  match b.perform table call with
  | .ok next => (next, none)
  | .error e => (b, some e)

/-- The builder behind a sequence of attempts. -/
def attemptAll (table : Table) (b : IndexedBuilder) (calls : List Call) : IndexedBuilder :=
  calls.foldl (fun b call => (b.attempt table call).1) b

/-- What is answered to each of a sequence of attempts, with the counters behind it. -/
def answers (table : Table) (b : IndexedBuilder) : List Call → List (Option Failure × Stats)
  | [] => []
  | call :: rest =>
      let (next, answer) := b.attempt table call
      (answer, next.stats) :: answers table next rest

theorem answers_cons (table : Table) (b : IndexedBuilder) (call : Call) (rest : List Call) :
    b.answers table (call :: rest) =
      ((b.attempt table call).2, (b.attempt table call).1.stats) ::
        (b.attempt table call).1.answers table rest := rfl

end IndexedBuilder

/-! ## Conclusion -/

/-- A reduction at rest between two tokens. -/
structure IndexedShunting where
  /-- Infix and postfix operators that wait, the leftmost first. -/
  pending : List IndexedToken := []
  /-- Tokens in prefix order, the first to be read first. -/
  output : List IndexedToken := []
  /-- Operators released so far, the latest first. -/
  released : List Operator := []

namespace IndexedToken

/-- The operator that the table keeps for a token in its role. -/
def fetch (table : Table) (t : IndexedToken) : Except Failure Operator :=
  match t.formRef?.bind (·.find? table) with
  | some op => .ok op
  | none => .error (.internal (.undecided (t.lookUp table).describe))

/-- Applies a token to the terms built to the right of it. -/
def build (table : Table) (t : IndexedToken) (terms : List Term) : Except Failure (List Term) :=
  match t with
  | .operand term => .ok (term :: terms)
  | .operator index .zerofix _ =>
      match table.get? index with
      | some entry => .ok (.atom entry.name :: terms)
      | none => .error (.internal .indexOutOfRange)
  | .operator _ role _ =>
      match t.formRef?.bind (·.find? table) with
      | some op => (Symbol.operator op).build terms
      | none => .error (.internal (.noOperator role))
  | .start | .stop => .error (.internal (.markInOutput t.role))

end IndexedToken

namespace IndexedShunting

/-- A failed reduction. -/
structure Stuck where
  cause : Failure
  released : List Operator

/-- Releases pending operators, from the front, as long as they belong inside the right
argument of `op`. -/
def releaseFor (table : Table) (op : Operator) :
    List IndexedToken → List IndexedToken → List Operator → Except Stuck IndexedShunting
  | [], output, released => .ok ⟨[], output, released⟩
  | top :: pending, output, released =>
      match top.fetch table with
      | .error e => .error ⟨e, released⟩
      | .ok other =>
          match Shunting.nests op other with
          | .ok true => releaseFor table op pending (top :: output) (other :: released)
          | .ok false => .ok ⟨top :: pending, output, released⟩
          | .error cause => .error ⟨.rejected cause, released⟩

def release (table : Table) (s : IndexedShunting) (t : IndexedToken) :
    Except Stuck IndexedShunting :=
  match t.fetch table with
  | .error e => .error ⟨e, s.released⟩
  | .ok op => releaseFor table op s.pending s.output s.released

/-- Places the next token to the left. -/
def place (table : Table) (s : IndexedShunting) (t : IndexedToken) :
    Except Stuck IndexedShunting :=
  match t.role with
  | .operand | .zerofix => .ok { s with output := t :: s.output }
  | .infixOp => do
      let s ← s.release table t
      return { s with pending := t :: s.pending }
  | .prefixOp => do
      let s ← s.release table t
      return { s with output := t :: s.output }
  | .postfixOp => .ok { s with pending := t :: s.pending }
  | role => .error ⟨.internal (.notReduced role), s.released⟩

/-- The output with all pending operators behind it. -/
def finish (s : IndexedShunting) : List IndexedToken := s.pending.reverse ++ s.output

/-- How many operators leave the pending stack, the last ones included. -/
def moves (s : IndexedShunting) : Nat := s.released.length + s.pending.length

end IndexedShunting

namespace IndexedBuilder

/-- The terms that tokens in prefix order build, from left to right. -/
def buildAll (table : Table) : List IndexedToken → Except Failure (List Term)
  | [] => .ok []
  | t :: rest => buildAll table rest >>= t.build table

/-- The single term that tokens in prefix order build. -/
def assemble (table : Table) (tokens : List IndexedToken) : Except Failure Term := do
  match ← buildAll table tokens with
  | [term] => .ok term
  | terms => .error (.internal (.unbalanced terms.length))

/-- Reduces a sequence whose end has been accepted. -/
def reduce (table : Table) (b : IndexedBuilder) : Conclusion :=
  match b.tokens.dropLast.foldlM (IndexedShunting.place table) {} with
  | .error stuck => ⟨.error stuck.cause, stuck.released.map .moved ++ b.trace⟩
  | .ok s =>
      let trace := s.released.map .moved ++ b.trace
      match assemble table s.finish with
      | .error e => ⟨.error e, trace⟩
      | .ok term => ⟨.ok term, .built term { b.stats with moves := s.moves } :: trace⟩

/-- Ends the sequence. -/
def conclude (table : Table) (b : IndexedBuilder) : Conclusion :=
  match b.receive table .stop with
  | .error e => ⟨.error e, b.trace⟩
  | .ok (_, b) => b.reduce table

end IndexedBuilder

end OperatorGrammar
