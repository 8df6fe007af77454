/-
# Main -- the program

    operator-grammar reduce [--defs FILE] [--input FILE] [--no-iso]
    operator-grammar ops [--defs FILE] [--no-iso]

Reads the files that the command line names, leaves the rest to `CommandLine.run`,
and writes what that returns.
-/
import OperatorGrammar.CommandLine

namespace OperatorGrammar.Main

set_option autoImplicit false

/-- The options of a command line. -/
structure Options where
  defs : Option String := none
  input : Option String := none
  standard : Bool := true

/-- The options that the words behind a command give. -/
def Options.parse? (o : Options) : List String → Option Options
  | [] => some o
  | "--no-iso" :: rest => parse? { o with standard := false } rest
  | "--defs" :: path :: rest | "-d" :: path :: rest => parse? { o with defs := some path } rest
  | "--input" :: path :: rest | "-i" :: path :: rest => parse? { o with input := some path } rest
  | _ => none

def usage : String :=
  "usage: operator-grammar (reduce [--input FILE] | ops) [--defs FILE] [--no-iso]\n"

/-- A file with its bytes, if it can be read. -/
def readFile (path : String) : IO CommandLine.File := do
  let content ← try
      let bytes ← IO.FS.readBinFile path
      pure (some bytes)
    catch _ => pure none
  return { path, content }

/-- The rest of a stream. -/
partial def readAll (stream : IO.FS.Stream) (read : ByteArray) : IO ByteArray := do
  let bytes ← stream.read 65536
  if bytes.isEmpty then return read else readAll stream (read ++ bytes)

/-- Runs one command. -/
def runCommand (reduces : Bool) (o : Options) : IO UInt32 := do
  let definitions ← o.defs.mapM readFile
  let input ← o.input.mapM readFile
  let stdin ← if reduces && input.isNone then
      let stream ← IO.getStdin
      readAll stream .empty
    else pure .empty
  let report := CommandLine.run
    { command := if reduces then .reduce input else .ops
      standard := o.standard, definitions, stdin }
  IO.print report.stdout
  IO.eprint report.stderr
  return report.code

end OperatorGrammar.Main

open OperatorGrammar.Main

def main (args : List String) : IO UInt32 := do
  let command := match args with
    | "reduce" :: rest => (Options.parse? {} rest).map (true, ·)
    | "ops" :: rest => (Options.parse? {} rest).map (false, ·)
    | _ => none
  match command with
  | some (reduces, o) =>
      if !reduces && o.input.isSome then
        IO.eprint usage
        return 2
      else runCommand reduces o
  | none =>
      IO.eprint usage
      return 2
