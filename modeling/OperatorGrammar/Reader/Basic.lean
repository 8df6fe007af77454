/-
# Reader.Basic -- reading a line

A line is one expression.  A pair of parentheses holds an expression that becomes
one operand of the expression around it; directly behind a name it holds the
arguments of a call, expressions between commas.  Anywhere else a comma is the
operator of that name.

Each expression has a builder of its own.  The reader keeps the builder of the
innermost expression and a frame for every parenthesis that is still open; a frame
holds the builder of the expression around it, which waits.  What ends an
expression -- its closing parenthesis, a comma between arguments, the end of the
line -- first concludes its builder, and only then asks whether it was due: so the
failure that comes first in the line is the one reported.
-/
import OperatorGrammar.Reader.Lexeme
import OperatorGrammar.Reader.Word

namespace OperatorGrammar

set_option autoImplicit false

/-- Why a line is no term. -/
inductive ReadError where
  | lexical (cause : LexicalError)
  | failed (cause : Failure)
  /-- A group is not closed. -/
  | missingClosing
  /-- The arguments of a call are not closed. -/
  | missingClosingOf (name : String)
  /-- The lexeme at this place, counted from one, closes nothing. -/
  | unexpectedClosing (place : Nat)
deriving DecidableEq

namespace ReadError

/-- The error with its causes, outermost first. -/
def chain : ReadError → List String
  | .lexical cause => [cause.message]
  | .failed cause => cause.chain
  | .missingClosing => ["missing `)`"]
  | .missingClosingOf name => ["missing `)` after arguments of " ++ Text.quoted name]
  | .unexpectedClosing place => ["unexpected `)` at item " ++ Text.decimal place]

end ReadError

/-- What was read of a line: the term or the reason for having none, and what the
builders did, the latest first. -/
structure Reading where
  result : Except ReadError Term
  trace : List Event

/-- An open parenthesis, with the builder of the expression around it. -/
inductive Frame where
  | group (outer : Builder)
  /-- The arguments of `name`; those already read, the latest first. -/
  | call (outer : Builder) (name : String) (args : List Term)

def Frame.trace : Frame → List Event
  | .group outer => outer.trace
  | .call outer _ _ => outer.trace

/-- A reader between two lexemes. -/
structure Reader where
  /-- The builder of the innermost expression. -/
  current : Builder
  /-- The open parentheses, the innermost first. -/
  frames : List Frame

namespace Reader

/-- The reader of an empty line. -/
def empty : Reader := ⟨.empty, []⟩

/-- What the builders that wait have done. -/
def outerTrace (r : Reader) : List Event := r.frames.flatMap Frame.trace

/-- A reading that ends with an error. -/
structure Stopped where
  cause : ReadError
  trace : List Event

/-- Goes on with what an addition made of the current builder. -/
def carry (r : Reader) (added : Except Failure Builder) : Except Stopped Reader :=
  match added with
  | .ok b => .ok { r with current := b }
  | .error e => .error ⟨.failed e, r.current.trace ++ r.outerTrace⟩

/-- Concludes the innermost expression: its term, and its builder's trace. -/
def concludeCurrent (r : Reader) : Except Stopped (Term × List Event) :=
  let conclusion := r.current.conclude
  match conclusion.result with
  | .ok term => .ok (term, conclusion.trace)
  | .error e => .error ⟨.failed e, conclusion.trace ++ r.outerTrace⟩

/-- The builder that goes on after what an inner one did. -/
def resume (outer : Builder) (inner : List Event) : Builder :=
  { outer with trace := inner ++ outer.trace }

def openGroup (r : Reader) : Reader := ⟨.empty, .group r.current :: r.frames⟩

def openCall (r : Reader) (name : String) : Reader := ⟨.empty, .call r.current name [] :: r.frames⟩

/-- Adds a call to a builder: an operator application if the table knows the name. -/
def addCall (table : Table) (b : Builder) (name : String) (args : List Term) :
    Except Failure Builder :=
  if (table.find? name).isSome then Builder.addOperatorApplication table b name args
  else b.addApplication name args

/-- A comma ends an argument of a call and is an operator anywhere else. -/
def comma (table : Table) (r : Reader) : Except Stopped Reader :=
  match r.frames with
  | .call outer name args :: frames => do
      let (term, trace) ← r.concludeCurrent
      return ⟨.empty, .call (resume outer trace) name (term :: args) :: frames⟩
  | _ => r.carry (Builder.addOperator table r.current ",")

/-- A closing parenthesis at the given place ends a group or a call. -/
def close (table : Table) (r : Reader) (place : Nat) : Except Stopped Reader := do
  let (term, trace) ← r.concludeCurrent
  match r.frames with
  | .group outer :: frames =>
      let outer := resume outer trace
      carry ⟨outer, frames⟩ (outer.addOperand term)
  | .call outer name args :: frames =>
      let outer := resume outer trace
      carry ⟨outer, frames⟩ (addCall table outer name (term :: args).reverse)
  | [] => .error ⟨.unexpectedClosing place, trace⟩

/-- Reads a lexeme that starts no call. -/
def step (table : Table) (r : Reader) (place : Nat) : Lexeme → Except Stopped Reader
  | .opening _ => .ok r.openGroup
  | .closing => close table r place
  | .comma => comma table r
  | .word text => r.carry (Builder.addItem table r.current (.ofWord table text))
  | .quoted text => r.carry (r.current.addOperand (.atom text))
  | .str text => r.carry (r.current.addOperand (.str text))

/-- Starts the call of `name`, unless its parentheses are empty. -/
def startCall (r : Reader) (name : String) : List Lexeme → Except Stopped Reader
  | .closing :: _ =>
      .error ⟨.failed (.rejected .emptyArgumentList), r.current.trace ++ r.outerTrace⟩
  | _ => .ok (r.openCall name)

/-- The end of the line ends the expression of the line. -/
def finish (r : Reader) : Reading :=
  match r.concludeCurrent with
  | .error stopped => ⟨.error stopped.cause, stopped.trace⟩
  | .ok (term, trace) =>
      match r.frames with
      | [] => ⟨.ok term, trace⟩
      | .group _ :: _ => ⟨.error .missingClosing, trace ++ r.outerTrace⟩
      | .call _ name _ :: _ => ⟨.error (.missingClosingOf name), trace ++ r.outerTrace⟩

/-- Goes on unless the reading has stopped. -/
def next (stepped : Except Stopped Reader) (go : Reader → Reading) : Reading :=
  match stepped with
  | .ok r => go r
  | .error stopped => ⟨.error stopped.cause, stopped.trace⟩

/-- Reads the lexemes of the rest of a line, the first of them at `place`. -/
def run (table : Table) : Nat → Reader → List Lexeme → Reading
  | place, r, .word name :: .opening true :: rest =>
      next (r.startCall name rest) fun r => run table (place + 2) r rest
  | place, r, .quoted name :: .opening true :: rest =>
      next (r.startCall name rest) fun r => run table (place + 2) r rest
  | place, r, lexeme :: rest =>
      next (step table r place lexeme) fun r => run table (place + 1) r rest
  | _, r, [] => r.finish

end Reader

/-- Reads a line against a table. -/
def Reading.ofLine (table : Table) (line : String) : Reading :=
  match Lexeme.ofLine line with
  | .error cause => ⟨.error (.lexical cause), []⟩
  | .ok lexemes => Reader.run table 1 .empty lexemes

/-- The term of a line. -/
def Term.read (table : Table) (line : String) : Except ReadError Term :=
  (Reading.ofLine table line).result

end OperatorGrammar
