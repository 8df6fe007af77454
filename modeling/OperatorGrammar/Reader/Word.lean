/-
# Reader.Word -- what a word stands for

A word that writes a number is that number: an integer if it has the form of one
and fits into 64 bits, else a real if it starts with a digit, perhaps behind a
minus sign.  Any other word that starts with a capital or an underscore is a
variable, a word that the table knows is an operator, and all else are atoms.
-/
import OperatorGrammar.Binary64.Nearest
import OperatorGrammar.Builder.Item
import OperatorGrammar.Text.Capital

namespace OperatorGrammar

set_option autoImplicit false

/-- The number that a word writes. -/
def Term.number? (word : String) : Option Term :=
  match Text.int64? word.toList with
  | some n => some (.int n)
  | none => (Binary64.ofNumeral? word.toList).map .real

/-- Whether a word starts like a variable. -/
def isVariableName (word : String) : Bool :=
  match word.toList with
  | c :: _ => Text.isCapital c || c = '_'
  | [] => false

/-- The item that a word stands for. -/
def Item.ofWord (table : Table) (word : String) : Item :=
  match Term.number? word with
  | some number => .operand number
  | none =>
      if isVariableName word then .operand (.var word)
      else if (table.find? word).isSome then .operator word
      else .operand (.atom word)

end OperatorGrammar
