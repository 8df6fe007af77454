/-
# Text.Blank -- blank characters, lines and words

A character is blank when it has the Unicode property White_Space.  `pieces`
cuts a list at the members that a test marks: lines are the pieces between line
feeds, words the non-empty pieces between blanks.
-/
import OperatorGrammar.Text.CharSet

namespace OperatorGrammar.Text

set_option autoImplicit false

/-- The characters with the property White_Space. -/
def blanks : CharSet :=
  [(0x09, 0x0D), (0x20, 0x20), (0x85, 0x85), (0xA0, 0xA0), (0x1680, 0x1680), (0x2000, 0x200A),
   (0x2028, 0x2029), (0x202F, 0x202F), (0x205F, 0x205F), (0x3000, 0x3000)]

def isBlank (c : Char) : Bool := blanks.has c

/-- The parts of a list between the members that `cut` marks.  There is one part
more than there are marked members, and parts may be empty. -/
def pieces {α : Type} (cut : α → Bool) (xs : List α) : List (List α) :=
  xs.foldr
    (fun x parts =>
      if cut x then [] :: parts
      else match parts with
        | [] => [[x]]
        | part :: rest => (x :: part) :: rest)
    [[]]

/-- The lines of a text; a line feed ends a line and belongs to none. -/
def lines (text : String) : List String :=
  (pieces (· == '\n') text.toList).map String.ofList

/-- The text without the blanks at its two ends. -/
def trim (text : String) : String :=
  String.ofList ((text.toList.dropWhile isBlank).reverse.dropWhile isBlank).reverse

/-- The maximal runs of characters that are not blank. -/
def words (text : String) : List String :=
  ((pieces isBlank text.toList).filter (! ·.isEmpty)).map String.ofList

end OperatorGrammar.Text
