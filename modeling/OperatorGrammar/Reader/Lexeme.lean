/-
# Reader.Lexeme -- the pieces of a line

Parentheses, commas and quoted texts are pieces by themselves; blanks separate and
are no pieces; every other run of characters is a word.  An opening parenthesis
directly behind a word or a single-quoted text starts the arguments of a call.
Between quotes a backslash takes `n`, `t`, a backslash or a quote of either kind
behind it, and nothing else.

The line is read one character at a time.  A `Scan` is what the characters so far
leave open, and `Scan.step` says which pieces the next character completes.
-/
import OperatorGrammar.Text.Blank

namespace OperatorGrammar

set_option autoImplicit false

inductive Lexeme where
  /-- An opening parenthesis; `call` if it directly follows a name. -/
  | opening (call : Bool)
  | closing
  | comma
  | word (text : String)
  /-- A text between single quotes. -/
  | quoted (text : String)
  /-- A text between double quotes. -/
  | str (text : String)
deriving DecidableEq

/-- Why a line has no pieces. -/
inductive LexicalError where
  | unterminated (quote : Char)
  | unknownEscape (char : Char)
deriving DecidableEq

def LexicalError.message : LexicalError → String
  | .unterminated quote => "unterminated " ++ quote.toString ++ "-quoted text"
  | .unknownEscape char => "unknown escape \\" ++ char.toString

/-- What the characters read so far leave open. -/
inductive Scan where
  /-- Nothing; `glued` if a name has just ended. -/
  | between (glued : Bool)
  /-- A word, its latest character first. -/
  | word (read : List Char)
  /-- A text behind `quote`, its latest character first. -/
  | quoted (quote : Char) (read : List Char)
  /-- The same with a backslash behind it. -/
  | escaped (quote : Char) (read : List Char)
deriving DecidableEq

namespace Scan

/-- Whether a character ends a word. -/
def endsWord (c : Char) : Bool :=
  Text.isBlank c || c = '(' || c = ')' || c = ',' || c = '\x27' || c = '\x22'

/-- The character that a backslash and `c` stand for. -/
def unescape? (c : Char) : Option Char :=
  if c = 'n' then some '\n'
  else if c = 't' then some '\t'
  else if c = '\\' || c = '\x27' || c = '\x22' then some c
  else none

/-- The piece of a text between two quotes. -/
def piece (quote : Char) (read : List Char) : Lexeme :=
  if quote = '\x27' then .quoted (String.ofList read.reverse) else .str (String.ofList read.reverse)

/-- Reads a character with nothing open. -/
def start (glued : Bool) (c : Char) : Scan × List Lexeme :=
  if Text.isBlank c then (.between false, [])
  else if c = '(' then (.between false, [.opening glued])
  else if c = ')' then (.between false, [.closing])
  else if c = ',' then (.between false, [.comma])
  else if c = '\x27' || c = '\x22' then (.quoted c [], [])
  else (.word [c], [])

/-- Reads a character: what it leaves open, and the pieces that it completes. -/
def step : Scan → Char → Except LexicalError (Scan × List Lexeme)
  | .between glued, c => .ok (start glued c)
  | .word read, c =>
      if endsWord c then
        let (scan, pieces) := start true c
        .ok (scan, .word (String.ofList read.reverse) :: pieces)
      else .ok (.word (c :: read), [])
  | .quoted quote read, c =>
      if c = quote then .ok (.between (quote = '\x27'), [piece quote read])
      else if c = '\\' then .ok (.escaped quote read, [])
      else .ok (.quoted quote (c :: read), [])
  | .escaped quote read, c =>
      match unescape? c with
      | some char => .ok (.quoted quote (char :: read), [])
      | none => .error (.unknownEscape c)

/-- The pieces that the end of the line completes. -/
def finish : Scan → Except LexicalError (List Lexeme)
  | .between _ => .ok []
  | .word read => .ok [.word (String.ofList read.reverse)]
  | .quoted quote _ | .escaped quote _ => .error (.unterminated quote)

/-- The pieces that the characters of the rest of a line complete. -/
def run : Scan → List Char → Except LexicalError (List Lexeme)
  | scan, [] => scan.finish
  | scan, c :: cs => do
      let (scan, pieces) ← scan.step c
      let rest ← run scan cs
      return pieces ++ rest

end Scan

/-- The pieces of a line. -/
def Lexeme.ofLine (line : String) : Except LexicalError (List Lexeme) :=
  (Scan.between false).run line.toList

end OperatorGrammar
