/-
# Builder.Workspace -- a builder that writes in place

A workspace holds every token that was ever made, in the order in which they were made
(the arena), and the stack of the places at which the accepted ones stand.  To give a
token another role is to add a copy that plays it and to point the stack at the copy.

A call is a sequence of single writes (`Action`), and what was written before it fails
stays written: nothing is undone.  `Builder` is the same builder as a value, of which a
call that fails leaves the old one.
-/
import OperatorGrammar.Builder.Call

namespace OperatorGrammar

set_option autoImplicit false

structure Workspace where
  /-- All tokens, the earliest first. -/
  arena : Array Token
  /-- The places of the accepted tokens, the latest first. -/
  stack : Stack Nat
  /-- Whether the latest token is an infix operator that starts the sequence. -/
  infixAtStart : Bool
  stats : Stats
  /-- What was done so far, the latest first. -/
  trace : List Event

/-- Writes to a workspace, which may fail between any two of them. -/
abbrev Action := EStateM Failure Workspace

/-- The token that a call adds. -/
def Call.token (table : Table) : Call → Except Failure Token
  | .operand term => .ok (.operand term)
  | .operator name =>
      match table.find? name with
      | some entry =>
          match entry.role? with
          | some role => .ok (.operator { entry, role })
          | none => .error (.rejected (.notAnOperator name))
      | none => .error (.rejected (.notAnOperator name))
  | .application functor args => .ok (.operand (Builder.applicationTerm functor args))
  | .group [] => .error (.rejected .emptyArgumentList)
  | .group [term] => .ok (.operand term)
  | .group terms => .ok (.operand (.application "," terms))
  | .operatorApplication name args => .ok (.operand (Builder.operatorTerm table name args))

namespace Workspace

/-- The workspace of an empty sequence. -/
def fresh : Workspace :=
  { arena := #[.start], stack := [0], infixAtStart := false, stats := {}, trace := [] }

/-! ## Single steps -/

/-- The result, or its failure here. -/
def demand {α : Type} : Except Failure α → Action α
  | .ok x => pure x
  | .error e => throw e

/-- The latest token.  A place outside the arena would be as good as none. -/
def top : Action Token := do
  let w ← get
  match (Stack.top? w.stack).bind (w.arena[·]?) with
  | some token => return token
  | none => throw (.internal .stackUnderflow)

/-- Adds a token to the arena, and tells its place. -/
def enter (token : Token) : Action Nat :=
  modifyGet fun w => (w.arena.size, { w with arena := w.arena.push token })

/-- Points the top of the stack at another place. -/
def repoint (place : Nat) : Action Unit := do
  let (_, stack) ← demand (Stack.replaceTop (← get).stack place)
  modify fun w => { w with stack }

def log (event : Event) : Action Unit := modify fun w => { w with trace := event :: w.trace }

def countResolution : Action Unit :=
  modify fun w => { w with stats := { w.stats with resolutions := w.stats.resolutions + 1 } }

/-- What was counted before a failure stays counted. -/
example (w : Workspace) (e : Failure) :
    (countResolution >>= fun _ => throw e : Action Unit).run w =
      .error e { w with stats := { w.stats with resolutions := w.stats.resolutions + 1 } } := rfl

/-! ## Tokens -/

/-- Decides the latest token for a role. -/
def resolveTop (role : Role) : Action Unit := do
  let token ← top
  let resolved ← demand (token.resolve role)
  log (.resolved token role)
  let place ← enter resolved
  repoint place
  countResolution

/-- Carries a verdict out: the arriving token in its role. -/
def carryOut (token : Token) : Verdict → Action Token
  | .accept | .acceptFlagged => return token
  | .acceptAs role => do
      countResolution
      demand (token.resolve role)
  | .resolve topRole role => do
      resolveTop topRole
      if role ≠ token.role then countResolution
      demand (token.resolve role)
  | .reject cause => throw (.rejected cause)

/-- Records the latest token in an operator that follows it. -/
def follow : Token → Action Token
  | .operator o => return (Token.operator o).follow (← top)
  | token => return token

/-- Judges an arriving token and carries the verdict out, up to pushing the token. -/
def receive (token : Token) : Action Token := do
  let w ← get
  let verdict ← demand (Adjacency.judge
    { top := ← top, new := token, height := w.stack.length, infixAtStart := w.infixAtStart })
  let token ← carryOut token verdict
  modify fun w => { w with infixAtStart := verdict = .acceptFlagged }
  follow token

/-- Accepts a token at the end of the sequence. -/
def push (token : Token) : Action Unit := do
  let token ← receive token
  let place ← enter token
  modify fun w => { w with
    stack := Stack.push w.stack place
    stats := { w.stats with tokens := w.stats.tokens + 1 } }

/-! ## Calls -/

/-- Carries out a call. -/
def perform (table : Table) (call : Call) : Action Unit := do
  push (← demand (call.token table))

/-- Carries out a call, or says why not; either way with the workspace as the call left it. -/
def attempt (table : Table) (w : Workspace) (call : Call) : Workspace × Option Failure :=
  match (perform table call).run w with
  | .ok _ w => (w, none)
  | .error e w => (w, some e)

/-- The workspace behind a sequence of attempts. -/
def attemptAll (table : Table) (w : Workspace) (calls : List Call) : Workspace :=
  calls.foldl (fun w call => (attempt table w call).1) w

/-- The calls of a sequence of attempts that were carried out. -/
def accepted (table : Table) (w : Workspace) : List Call → List Call
  | [] => []
  | call :: rest =>
      match attempt table w call with
      | (next, none) => call :: accepted table next rest
      | (next, some _) => accepted table next rest

/-- The accepted tokens, the latest first. -/
def tokens? (w : Workspace) : Option (Stack Token) := w.stack.mapM (w.arena[·]?)

/-- Ends the sequence. -/
def conclude (w : Workspace) : Conclusion :=
  match (receive .stop).run w with
  | .error e w => ⟨.error e, w.trace⟩
  | .ok _ w =>
      match w.tokens? with
      | some tokens => Builder.reduce { w with tokens }
      | none => ⟨.error (.internal .stackUnderflow), w.trace⟩

/-- The term of the sequence. -/
def finish (w : Workspace) : Except Failure Term := w.conclude.result

end Workspace

end OperatorGrammar
