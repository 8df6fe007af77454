/-
# Table.Basic -- tables of operators

A table lists its entries in the order in which their names were first defined,
each name once.  `define` adds one operator.  It refuses a precedence above 1200,
an empty name, a second operator of the same name and fixity, and a prefix
together with a postfix operator of one name; a refused definition leaves no
table, so the old one stays as it was.

Causes of refusal form a `DefinitionError`.  Its `chain` starts with what was
being done and ends with what went wrong.
-/
import OperatorGrammar.Table.Entry

namespace OperatorGrammar

set_option autoImplicit false

/-- Why a definition, or a text of definitions, is refused. -/
inductive DefinitionError where
  | unknownSpecifier (text : String)
  | noSpecifier (fixity : Fixity) (associativity : Associativity)
  | precedenceOutOfRange (op : Operator)
  | emptyName
  | redefined (name : String) (fixity : Fixity)
  | oppositeUnary (name : String) (fixity : Fixity)
  | missingFields (line : String)
  | invalidPrecedence (word : String) (cause : Text.NumeralError)
  | unknownOption (word : String)
  | inOperator (name : String) (cause : DefinitionError)
  | onLine (number : Nat) (cause : DefinitionError)
deriving DecidableEq

namespace Table

/-- The largest precedence; the smallest is zero. -/
def maxPrec : Nat := 1200

end Table

namespace DefinitionError

/-- What went wrong, from the outermost circumstance to the innermost cause. -/
def chain : DefinitionError → List String
  | .unknownSpecifier text => ["invalid operator type: " ++ text]
  | .noSpecifier fixity assoc =>
      ["operator with type " ++ fixity.title ++ " cannot have associativity " ++ assoc.title]
  | .precedenceOutOfRange op =>
      ["precedence " ++ Text.decimal op.prec ++ " is out of range for operator "
        ++ Text.quoted op.name ++ " with type " ++ op.fixity.title ++ " (expected 0–"
        ++ Text.decimal Table.maxPrec ++ ")"]
  | .emptyName => ["operator name cannot be empty"]
  | .redefined name fixity =>
      ["cannot re-define " ++ Text.quoted name ++ " with type " ++ fixity.title]
  | .oppositeUnary name fixity =>
      ["cannot define " ++ Text.quoted name ++ " with type " ++ fixity.title
        ++ "; it already has the opposite unary form"]
  | .missingFields line => ["expected `prec type name`, found " ++ Text.quoted line]
  | .invalidPrecedence word cause =>
      ["invalid precedence " ++ Text.quoted word, cause.message]
  | .unknownOption word => ["unknown option " ++ Text.quoted word]
  | .inOperator name cause => ("defining operator " ++ Text.quoted name) :: cause.chain
  | .onLine number cause =>
      ("operator definition on line " ++ Text.decimal number) :: cause.chain

/-- The whole chain as one text. -/
def message (e : DefinitionError) : String := ": ".intercalate e.chain

end DefinitionError

namespace Specifier

/-- Reads a specifier. -/
def read (text : String) : Except DefinitionError Specifier :=
  match ofText? text with
  | some s => .ok s
  | none => .error (.unknownSpecifier text)

/-- The specifier of a place and an associativity. -/
def ofParts (fixity : Fixity) (assoc : Associativity) : Except DefinitionError Specifier :=
  match ofParts? fixity assoc with
  | some s => .ok s
  | none => .error (.noSpecifier fixity assoc)

end Specifier

namespace Operator

/-- The operator of a place and an associativity. -/
def ofParts (name : String) (fixity : Fixity) (assoc : Associativity) (prec : Nat) :
    Except DefinitionError Operator :=
  match Specifier.ofParts fixity assoc with
  | .ok spec => .ok { name, spec, prec }
  | .error e => .error (.inOperator name e)

end Operator

structure Table where
  entries : List Entry
deriving DecidableEq

namespace Table

def empty : Table := ⟨[]⟩

/-- The number of names. -/
def size (t : Table) : Nat := t.entries.length

def isEmpty (t : Table) : Bool := t.entries.isEmpty

/-- The entry of a name. -/
def find? (t : Table) (name : String) : Option Entry := t.entries.find? (·.name = name)

/-- The place of a name. -/
def index? (t : Table) (name : String) : Option Nat := t.entries.findIdx? (·.name = name)

/-- The entry at a place. -/
def get? (t : Table) (index : Nat) : Option Entry := t.entries[index]?

/-- The entry at a place; beyond the end, an entry without operators. -/
def entryAt (t : Table) (index : Nat) : Entry := (t.get? index).getD (.blank "?")

/-- All operators: by name in the order of definition, then by fixity. -/
def operators (t : Table) : List Operator := t.entries.flatMap Entry.forms

/-- Puts `op` into the first entry of its name, or into a new entry at the end. -/
def insertInto (op : Operator) : List Entry → List Entry
  | [] => [(Entry.blank op.name).put op]
  | e :: es => if e.name = op.name then e.put op :: es else e :: insertInto op es

/-- The table with `op` in the place of its name and fixity. -/
def insert (t : Table) (op : Operator) : Table := ⟨insertInto op t.entries⟩

theorem find?_insertInto (op : Operator) (es : List Entry) (name : String) :
    (insertInto op es).find? (·.name = name) =
      if op.name = name then
        some (((es.find? (·.name = name)).getD (Entry.blank op.name)).put op)
      else es.find? (·.name = name) := by
  induction es with
  | nil =>
      by_cases h : op.name = name <;> simp [insertInto, Entry.name_put, Entry.blank, h]
  | cons e es ih =>
      by_cases he : e.name = op.name
      · by_cases h : op.name = name <;> simp [insertInto, Entry.name_put, he, h]
      · by_cases h : e.name = name
        · have other : op.name ≠ name := fun same => he (h.trans same.symm)
          simp [insertInto, other, h, other.symm]
        · simp [insertInto, he, h, ih]

/-- A definition concerns the entry of its name alone. -/
theorem find?_insert (t : Table) (op : Operator) (name : String) :
    (t.insert op).find? name =
      if op.name = name then some (((t.find? name).getD (Entry.blank op.name)).put op)
      else t.find? name :=
  find?_insertInto op t.entries name

/-- Whether an entry has the unary form that excludes one of fixity `f`. -/
def hasOpposite (e : Entry) : Fixity → Bool
  | .prefixOp => e.has .postfixOp
  | .postfixOp => e.has .prefixOp
  | .infixOp => false

/-- Why `op` may not join the entry of its name, if so. -/
def conflict? (e : Entry) (op : Operator) : Option DefinitionError :=
  if e.has op.fixity then some (.redefined op.name op.fixity)
  else if hasOpposite e op.fixity then some (.oppositeUnary op.name op.fixity)
  else none

/-- Why `op` may not join the table, if so. -/
def refusal? (t : Table) (op : Operator) : Option DefinitionError :=
  if maxPrec < op.prec then some (.precedenceOutOfRange op)
  else if op.name.isEmpty then some .emptyName
  else (t.find? op.name).bind fun e => conflict? e op

/-- Adds one operator. -/
def define (t : Table) (op : Operator) : Except DefinitionError Table :=
  match t.refusal? op with
  | some e => .error e
  | none => .ok (t.insert op)

/-- Adds the operator with the given name, specifier text and precedence. -/
def defineAs (t : Table) (name spec : String) (prec : Nat) : Except DefinitionError Table := do
  let spec ← Specifier.read spec
  t.define { name, spec, prec }

end Table

end OperatorGrammar
