/-
# Table.Source -- tables from text

A text defines one operator per line, `prec type name`, followed by any of the
options `rename=functor` and `embed`.  A line that is blank, or that starts with
`%`, defines nothing; both are asked of the line without the blanks at its ends.

`load` adds the lines in order and stops at the first one that is refused.  The
result is the table of the lines before it together with the refusal, which names
the line by its number among all lines.
-/
import OperatorGrammar.Table.Basic
import OperatorGrammar.Text.Blank

namespace OperatorGrammar.Table

set_option autoImplicit false

/-- Whether a trimmed line defines nothing. -/
def isSkipped (line : String) : Bool := line.toList.head?.all (· = '%')

/-- The text on both sides of the first `=`. -/
def splitOption (word : String) : Option (String × String) :=
  match word.toList.span (· != '=') with
  | (key, _ :: value) => some (String.ofList key, String.ofList value)
  | (_, []) => none

/-- The operator with one option applied to it. -/
def applyOption (op : Operator) (word : String) : Except DefinitionError Operator :=
  match splitOption word with
  | some ("rename", functor) =>
      if functor.isEmpty then .error (.unknownOption word)
      else .ok { op with rename := some functor }
  | some _ => .error (.unknownOption word)
  | none => if word = "embed" then .ok { op with embed := true } else .error (.unknownOption word)

/-- The operator that a trimmed line defines. -/
def readOperator (line : String) : Except DefinitionError Operator :=
  match Text.words line with
  | prec :: spec :: name :: options =>
      match Text.word64? prec with
      | .error e => .error (.invalidPrecedence prec e)
      | .ok number => do
          let spec ← Specifier.read spec
          options.foldlM applyOption { name, spec, prec := number }
  | _ => .error (.missingFields line)

/-- The table after one trimmed line. -/
def defineLine (t : Table) (line : String) : Except DefinitionError Table :=
  if isSkipped line then .ok t
  else (readOperator line).bind t.define

/-- A table, and the refusal that ended its definition, if any. -/
structure Loaded where
  table : Table
  refusal : Option DefinitionError

/-- Adds lines in order, the first of them numbered `number`, up to the first one
that is refused. -/
def loadLines (t : Table) (number : Nat) : List String → Loaded
  | [] => ⟨t, none⟩
  | line :: rest =>
      match t.defineLine (Text.trim line) with
      | .ok t => t.loadLines (number + 1) rest
      | .error e => ⟨t, some (.onLine number e)⟩

/-- Adds the definitions of a text. -/
def load (t : Table) (text : String) : Loaded := t.loadLines 1 (Text.lines text)

/-- The table with all definitions of a text. -/
def extend (t : Table) (text : String) : Except DefinitionError Table :=
  match t.load text with
  | ⟨t, none⟩ => .ok t
  | ⟨_, some e⟩ => .error e

end OperatorGrammar.Table
