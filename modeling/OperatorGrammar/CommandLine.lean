/-
# CommandLine -- what the program answers

The program has two commands.  `reduce` reads one term per line and answers each
line by itself: the canonical text of its term on standard output, or its number
and the reason for having no term on standard error.  Lines that are blank or start
with `%`, without the blanks at their ends, get no answer.  `ops` prints the
operators of the table.

Both start from the standard table or the empty one and may add the definitions of
a file.  What goes wrong outside the lines is fatal: it ends the program with the
code 1 and is the last thing on standard error.  `run` is a function of all that
the program reads.
-/
import OperatorGrammar.Reader.Basic
import OperatorGrammar.Table.Source
import OperatorGrammar.Table.Standard

namespace OperatorGrammar.CommandLine

set_option autoImplicit false

/-- A file named on the command line, with its bytes if it exists. -/
structure File where
  path : String
  content : Option ByteArray

inductive Command where
  /-- Reads the lines of a file, or of standard input. -/
  | reduce (input : Option File)
  | ops

/-- All that the program reads. -/
structure Invocation where
  command : Command
  /-- Whether the table starts with the standard operators. -/
  standard : Bool
  definitions : Option File
  stdin : ByteArray

/-- All that the program writes. -/
structure Report where
  code : UInt32
  stdout : String
  stderr : String
deriving DecidableEq

/-- What went wrong outside the lines, outermost first. -/
abbrev Fatal := List String

def missingFile : String := "No such file or directory (os error 2)"

def undecodable : String := "stream did not contain valid UTF-8"

/-- The causes of a fatal error, one per line; several are numbered from zero. -/
def causeLines (causes : List String) : List String :=
  match causes with
  | [cause] => ["    " ++ cause]
  | _ => causes.zipIdx.map fun (cause, i) =>
      let number := Text.decimal i
      String.ofList (List.replicate (5 - number.length) ' ') ++ number ++ ": " ++ cause

/-- The text of a fatal error. -/
def fatalText (chain : Fatal) : String :=
  let causes := chain.tail
  let below := if causes.isEmpty then [] else ["", "Caused by:"] ++ causeLines causes
  "\n".intercalate (("Error: " ++ chain.headD "") :: below) ++ "\n"

/-- What one line is answered. -/
inductive Answer where
  | silent
  | term (t : Term)
  | complaint (number : Nat) (cause : ReadError)
  | fatal (chain : Fatal)

namespace Answer

/-- What an answer puts on standard output. -/
def stdout : Answer → String
  | .term t => t.text ++ ".\n"
  | _ => ""

/-- What an answer puts on standard error. -/
def stderr : Answer → String
  | .complaint number cause =>
      "line " ++ Text.decimal number ++ ": " ++ ": ".intercalate cause.chain ++ "\n"
  | .fatal chain => fatalText chain
  | _ => ""

def isFatal : Answer → Bool
  | .fatal _ => true
  | _ => false

/-- The answer to a line.  A line that is no text is fatal, and so is a defect of the
reader. -/
def ofLine (table : Table) (number : Nat) : Option String → Answer
  | none => .fatal [undecodable]
  | some line =>
      let line := Text.trim line
      if Table.isSkipped line then .silent
      else match Term.read table line with
        | .ok t => .term t
        | .error (.failed (.internal cause)) => .fatal (Failure.internal cause).chain
        | .error cause => .complaint number cause

/-- The answers to lines in order, the first of them numbered `number`, up to the
first fatal one. -/
def ofLines (table : Table) (number : Nat) : List (Option String) → List Answer
  | [] => []
  | line :: rest =>
      let answer := ofLine table number line
      if answer.isFatal then [answer] else answer :: ofLines table (number + 1) rest

end Answer

namespace Report

def fatal (chain : Fatal) : Report := ⟨1, "", fatalText chain⟩

/-- The report of the answers to all lines. -/
def ofAnswers (answers : List Answer) : Report where
  code := if answers.any Answer.isFatal then 1 else 0
  stdout := String.join (answers.map Answer.stdout)
  stderr := String.join (answers.map Answer.stderr)

end Report

/-- The line feed as a byte. -/
def lineFeed : UInt8 := 10

/-- The lines of some bytes; a line is `none` if it is not UTF-8. -/
def decodeLines (bytes : ByteArray) : List (Option String) :=
  match String.fromUTF8? bytes with
  | some text => (Text.lines text).map some
  | none =>
      (Text.pieces (· == lineFeed) bytes.toList).map fun line =>
        String.fromUTF8? (ByteArray.mk line.toArray)

/-- The text of a file. -/
def File.read (f : File) : Except Fatal String :=
  match f.content with
  | none => .error ["reading " ++ f.path, missingFile]
  | some bytes =>
      match String.fromUTF8? bytes with
      | some text => .ok text
      | none => .error ["reading " ++ f.path, undecodable]

/-- The table that an invocation asks for. -/
def Invocation.table (i : Invocation) : Except Fatal Table := do
  let start := if i.standard then Table.standard else Table.empty
  match i.definitions with
  | none => return start
  | some f =>
      let text ← f.read
      match start.extend text with
      | .ok table => return table
      | .error e => .error (("loading " ++ f.path) :: e.chain)

/-- The bytes that `reduce` reads. -/
def inputBytes (stdin : ByteArray) : Option File → Except Fatal ByteArray
  | none => .ok stdin
  | some f =>
      match f.content with
      | some bytes => .ok bytes
      | none => .error ["opening " ++ f.path, missingFile]

/-- The operators of a table, one per line. -/
def operatorLines (table : Table) : String :=
  String.join (table.operators.map fun op => op.text ++ ".\n")

/-- What the program writes. -/
def run (i : Invocation) : Report :=
  match i.table with
  | .error chain => .fatal chain
  | .ok table =>
      match i.command with
      | .ops => ⟨0, operatorLines table, ""⟩
      | .reduce input =>
          match inputBytes i.stdin input with
          | .error chain => .fatal chain
          | .ok bytes => .ofAnswers (Answer.ofLines table 1 (decodeLines bytes))

end OperatorGrammar.CommandLine
