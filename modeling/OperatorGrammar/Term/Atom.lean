/-
# Term.Atom -- the text of an atom

A name needs no quotes if it is `[]` or the pair of braces, or a lower-case ASCII letter followed by
ASCII letters, digits and underscores.  Any other name stands between single
quotes, where the quote, the backslash, the line feed and the tab are escaped and
every other character stands for itself.
-/

namespace OperatorGrammar.Atom

set_option autoImplicit false

/-- Whether a character may follow the first one of a plain name. -/
def isPlainChar (c : Char) : Bool := c.isAlphanum || c = '_'

/-- Whether a name is written without quotes. -/
def isPlain (name : String) : Bool :=
  name = "[]" || name = "\x7b\x7d" ||
    match name.toList with
    | [] => false
    | c :: cs => c.isLower && cs.all isPlainChar

/-- The written form of one character between single quotes. -/
def escape (c : Char) : List Char :=
  if c = '\x27' then ['\\', '\x27']
  else if c = '\\' then ['\\', '\\']
  else if c = '\n' then ['\\', 'n']
  else if c = '\t' then ['\\', 't']
  else [c]

/-- The name between single quotes. -/
def quoted (name : String) : String :=
  String.ofList ('\x27' :: name.toList.flatMap escape ++ ['\x27'])

/-- The text of the atom called `name`. -/
def text (name : String) : String := if isPlain name then name else quoted name

end OperatorGrammar.Atom
