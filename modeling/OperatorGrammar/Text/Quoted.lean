/-
# Text.Quoted -- text between double quotes

A text is quoted character by character.  The quote itself, the backslash and the
characters NUL, tab, line feed and carriage return have an escape of two
characters; every other character without a shape of its own is written by its
code point in hexadecimal (`unprinted`); all else stands for itself.
-/
import OperatorGrammar.Text.Unprinted

namespace OperatorGrammar.Text

set_option autoImplicit false

/-- The written form of one character between double quotes. -/
def escape (c : Char) : List Char :=
  if c = '\x00' then ['\\', '0']
  else if c = '\t' then ['\\', 't']
  else if c = '\n' then ['\\', 'n']
  else if c = '\r' then ['\\', 'r']
  else if c = '\x22' then ['\\', '\x22']
  else if c = '\\' then ['\\', '\\']
  else if unprinted.has c then ['\\', 'u', '\x7b'] ++ Nat.toDigits 16 c.toNat ++ ['\x7d']
  else [c]

/-- The text between double quotes. -/
def quoted (text : String) : String :=
  String.ofList ('\x22' :: text.toList.flatMap escape ++ ['\x22'])

end OperatorGrammar.Text
