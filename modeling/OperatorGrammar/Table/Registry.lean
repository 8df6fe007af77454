/-
# Table.Registry -- a table that is written in place

A registry keeps entries under keys, in the order in which the keys came.  To insert an
operator takes two writes: a new key gets a blank entry at the end (`enter`), and the operator
takes the slot of its fixity in the entry of its key (`fill`).  An insertion asks for nothing.
It is a definition that asks first, and the standard operators enter without one.

A definition is a sequence of single steps (`Step`), and what was written before it fails stays
written.  A text of definitions so leaves the lines in front of the one that is refused.
`Table` is the same table as a value.
-/
import OperatorGrammar.Table.Source
import OperatorGrammar.Table.Standard

namespace OperatorGrammar

set_option autoImplicit false

structure Registry where
  /-- Keys with their entries, in the order in which the keys came. -/
  slots : List (String × Entry)

/-- A definition, as it is asked for: of an operator, of one by its specifier's text, or of
those that the lines of a text define. -/
inductive Definition where
  | operator (op : Operator)
  | named (name spec : String) (prec : Nat)
  | lines (text : String)

namespace Registry

/-- Writes to a registry, which may fail between any two of them. -/
abbrev Step := EStateM DefinitionError Registry

def empty : Registry := ⟨[]⟩

/-- The entry under a key. -/
def find? (r : Registry) (key : String) : Option Entry :=
  (r.slots.find? (·.1 = key)).map Prod.snd

/-- The place of a key. -/
def index? (r : Registry) (key : String) : Option Nat := r.slots.findIdx? (·.1 = key)

/-- The entry at a place. -/
def get? (r : Registry) (index : Nat) : Option Entry := r.slots[index]?.map Prod.snd

/-! ## Single steps -/

/-- The result, or its failure here. -/
def demand {α : Type} : Except DefinitionError α → Step α
  | .ok x => pure x
  | .error e => throw e

/-- The place of a key.  A new one comes to the end, with a blank entry. -/
def enter (key : String) : Step Nat :=
  modifyGet fun r =>
    match r.index? key with
    | some index => (index, r)
    | none => (r.slots.length, ⟨r.slots ++ [(key, .blank key)]⟩)

/-- Puts an operator into the entry at a place. -/
def fill (index : Nat) (op : Operator) : Step Unit :=
  modify fun r => ⟨r.slots.modify index fun (key, entry) => (key, entry.put op)⟩

/-- Puts an operator under its name, whatever is there. -/
def insert (op : Operator) : Step Unit := do
  let index ← enter op.name
  fill index op

/-- An insertion asks for nothing, not even whether the entry keeps a role. -/
example :
    (match (insert { name := "!", spec := .yf, prec := 100 } >>= fun _ =>
        insert { name := "!", spec := .fy, prec := 100 }).run empty with
      | .ok _ r => (r.find? "!").map Entry.role?
      | .error _ _ => none) = some none := by decide

/-! ## Definitions -/

/-- Inserts an operator unless that is refused. -/
def defineOperator (op : Operator) : Step Unit :=
  if Table.maxPrec < op.prec then throw (.precedenceOutOfRange op)
  else if op.name.isEmpty then throw .emptyName
  else do
    let r ← get
    match (r.find? op.name).bind (Table.conflict? · op) with
    | some cause => throw cause
    | none => insert op

/-- Defines what a trimmed line defines. -/
def defineLine (line : String) : Step Unit :=
  if Table.isSkipped line then pure ()
  else do defineOperator (← demand (Table.readOperator line))

/-- Defines what the lines define, each with its number, up to the first one that is refused. -/
def defineLines (lines : List (String × Nat)) : Step Unit :=
  lines.forM fun (line, number) =>
    EStateM.adaptExcept (.onLine number) (defineLine (Text.trim line))

/-- Carries out a definition. -/
def perform : Definition → Step Unit
  | .operator op => defineOperator op
  | .named name spec prec => do
      let spec ← demand (Specifier.read spec)
      defineOperator { name, spec, prec }
  | .lines text => defineLines ((Text.lines text).zipIdx 1)

/-- Carries out a definition or says why not; either way with the registry as it was left. -/
def attempt (r : Registry) (definition : Definition) : Registry × Option DefinitionError :=
  match (perform definition).run r with
  | .ok _ r => (r, none)
  | .error e r => (r, some e)

/-- The registry behind a sequence of attempts. -/
def attemptAll (r : Registry) (definitions : List Definition) : Registry :=
  definitions.foldl (fun r definition => (attempt r definition).1) r

/-- The registry of the standard operators, which are inserted without being asked for. -/
def standard : Registry :=
  match (Table.standardOperators.forM fun (prec, spec, name) =>
      insert { name, spec, prec }).run empty with
  | .ok _ r => r
  | .error _ r => r

/-- The registry that definitions start from. -/
def start (withStandard : Bool) : Registry := if withStandard then standard else empty

end Registry

end OperatorGrammar
