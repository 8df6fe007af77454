/-
# Proofs.CommandLine -- every line is answered by itself

The program goes through its lines in order, and a fatal answer ends it.  No line that is text
has one: the table that an invocation asks for is reachable (`reachable_table`), and against
such a table no line ends in a defect, which would be the only reason (`ofLine_eq`).

So the answers are one record for each line that is not skipped (`Record.ofLine?`), a function
of the table, the line and its number.  `run_reduce` says that the program writes these
records in the order of the lines, each to its own stream, and nothing else, and that its code
is zero.
-/
import OperatorGrammar.CommandLine
import OperatorGrammar.Proofs.Reader.Defects
import OperatorGrammar.Proofs.Table.Loading

namespace OperatorGrammar.CommandLine

set_option autoImplicit false

/-- What is said of a line: its term, or its number and why it has none. -/
inductive Record where
  | term (t : Term)
  | complaint (number : Nat) (cause : ReadError)

namespace Record

/-- The record of a line.  There is none if the line, without the blanks at its ends, is empty
or starts with `%`. -/
def ofLine? (table : Table) (line : String) (number : Nat) : Option Record :=
  let line := Text.trim line
  if line = "" ∨ line.toList.head? = some '%' then none
  else match Term.read table line with
    | .ok t => some (.term t)
    | .error cause => some (.complaint number cause)

/-- The records of a text, in the order of its lines, which are numbered from one. -/
def ofText (table : Table) (text : String) : List Record :=
  ((Text.lines text).zipIdx 1).filterMap fun (line, number) => ofLine? table line number

def stdout : Record → String
  | .term t => t.text ++ ".\n"
  | .complaint _ _ => ""

def stderr : Record → String
  | .term _ => ""
  | .complaint number cause =>
      "line " ++ Text.decimal number ++ ": " ++ ": ".intercalate cause.chain ++ "\n"

end Record

variable {table : Table}

/-! ## Tables -/

theorem reachable_extend {t u : Table} {text : String} (reachable : t.Reachable)
    (extended : t.extend text = .ok u) : u.Reachable := by
  have loaded := Table.Reachable.load text reachable
  unfold Table.extend at extended
  split at extended
  · rename_i loads
    cases extended
    rwa [loads] at loaded
  · cases extended

theorem reachable_definitions {start : Table} {definitions : Option File}
    (reachable : start.Reachable)
    (loaded : (match definitions with
      | none => pure start
      | some f => do
          let text ← f.read
          match start.extend text with
          | .ok table => pure table
          | .error e => .error (("loading " ++ f.path) :: e.chain) : Except Fatal Table) =
      .ok table) : table.Reachable := by
  cases definitions with
  | none =>
      cases loaded
      exact reachable
  | some f =>
      simp only [bind, Except.bind] at loaded
      split at loaded
      · cases loaded
      · split at loaded
        · rename_i extended
          cases loaded
          exact reachable_extend reachable extended
        · cases loaded

/-- The table that an invocation asks for is one that definitions lead to. -/
theorem reachable_table {i : Invocation} (asked : i.table = .ok table) : table.Reachable := by
  unfold Invocation.table at asked
  split at asked
  · exact reachable_definitions .standard asked
  · exact reachable_definitions .empty asked

/-! ## Lines -/

theorem read_excused (wf : table.WellFormed) {line : String} {cause : ReadError}
    (failed : Term.read table line = .error cause) : Reader.Excused cause := by
  unfold Term.read Reading.ofLine at failed
  cases lexemes : Lexeme.ofLine line with
  | error lexical =>
      rw [lexemes] at failed
      cases failed
      simp [Reader.Excused]
  | ok lexemes' =>
      rintro defect rfl
      rw [lexemes] at failed
      exact Reader.run_ne_internal wf Reader.steady_empty 1 lexemes' defect failed

/-- The answer that a record is. -/
def Answer.ofRecord : Option Record → Answer
  | none => .silent
  | some (.term t) => .term t
  | some (.complaint number cause) => .complaint number cause

theorem Answer.ofLine_eq (wf : table.WellFormed) (number : Nat) (line : String) :
    Answer.ofLine table number (some line) = .ofRecord (Record.ofLine? table line number) := by
  simp only [Answer.ofLine, Record.ofLine?, Table.isSkipped_iff]
  split
  · rfl
  · cases read : Term.read table (Text.trim line) with
    | ok t => rfl
    | error cause =>
        have excused := read_excused wf read
        cases cause with
        | failed failure =>
            cases failure with
            | internal defect => exact absurd rfl (excused defect)
            | rejected cause => rfl
        | _ => rfl

namespace Answer

theorem isFatal_ofRecord (record : Option Record) : (ofRecord record).isFatal = false := by
  rcases record with _ | _ | _ <;> rfl

theorem stdout_ofRecord (record : Option Record) :
    (ofRecord record).stdout = (record.map Record.stdout).getD "" := by
  rcases record with _ | _ | _ <;> rfl

theorem stderr_ofRecord (record : Option Record) :
    (ofRecord record).stderr = (record.map Record.stderr).getD "" := by
  rcases record with _ | _ | _ <;> rfl

/-- No line ends the run, so all lines are answered. -/
theorem ofLines_eq (wf : table.WellFormed) (number : Nat) (lines : List String) :
    ofLines table number (lines.map some) = (lines.zipIdx number).map fun (line, number) =>
      ofRecord (Record.ofLine? table line number) := by
  induction lines generalizing number with
  | nil => rfl
  | cons line rest ih =>
      simp only [List.map_cons, List.zipIdx_cons, ofLines, ofLine_eq wf, isFatal_ofRecord, ih]
      rfl

end Answer

/-- What puts nothing on a stream may be left out. -/
theorem join_filterMap {α β : Type} {f : α → Option β} {g : β → String} {h : α → String}
    (written : ∀ x, h x = ((f x).map g).getD "") (xs : List α) :
    String.join (xs.map h) = String.join ((xs.filterMap f).map g) := by
  induction xs with
  | nil => rfl
  | cons x xs ih =>
      rw [List.map_cons, String.join_cons, ih, written x, List.filterMap_cons]
      cases f x with
      | none => simp
      | some y => simp

theorem Report.ofAnswers_ofRecord {α : Type} (record : α → Option Record) (xs : List α) :
    Report.ofAnswers (xs.map fun x => .ofRecord (record x)) =
      { code := 0
        stdout := String.join ((xs.filterMap record).map Record.stdout)
        stderr := String.join ((xs.filterMap record).map Record.stderr) } := by
  have accepted : (xs.map fun x => Answer.ofRecord (record x)).any Answer.isFatal = false := by
    simp [Answer.isFatal_ofRecord]
  unfold Report.ofAnswers
  rw [accepted, List.map_map, List.map_map]
  congr 1
  · exact join_filterMap (fun x => Answer.stdout_ofRecord (record x)) xs
  · exact join_filterMap (fun x => Answer.stderr_ofRecord (record x)) xs

theorem fromUTF8?_toUTF8 (text : String) : String.fromUTF8? text.toUTF8 = some text := by
  simp only [String.fromUTF8?, String.toUTF8_eq_toByteArray, dif_pos text.isValidUTF8]
  rfl

/-- Whatever table an invocation asks for and whatever text it reads, the code is zero, and
each line that is not skipped has its one record, in the order of the lines.  The record is
made of the table, the line and its number alone. -/
theorem run_reduce {i : Invocation} {input : Option File} {text : String}
    (command : i.command = .reduce input) (asked : i.table = .ok table)
    (read : inputBytes i.stdin input = .ok text.toUTF8) :
    run i =
      { code := 0
        stdout := String.join ((Record.ofText table text).map Record.stdout)
        stderr := String.join ((Record.ofText table text).map Record.stderr) } := by
  have wf := (reachable_table asked).wellFormed
  unfold run
  rw [asked, command]
  simp only [read, decodeLines, fromUTF8?_toUTF8]
  rw [Answer.ofLines_eq wf, Report.ofAnswers_ofRecord]
  rfl

/-- A comment, a term, a malformed line, a blank one and another term. -/
theorem run_reduce_malformed_line :
    let text := "% terms\na + b\n) c +\n  \n- x\n"
    let i : Invocation :=
      { command := .reduce none, standard := true, definitions := none, stdin := text.toUTF8 }
    i.table = .ok .standard ∧ inputBytes i.stdin none = .ok text.toUTF8 ∧
      run i =
        ⟨0, "'+'(a, b).\n'-'(x).\n", "line 3: syntax error: empty term: empty term\n"⟩ := by
  intro text i
  have asked : i.table = .ok .standard := rfl
  have read : inputBytes i.stdin none = .ok text.toUTF8 := rfl
  exact ⟨asked, read, (run_reduce rfl asked read).trans (by decide +kernel)⟩

end OperatorGrammar.CommandLine
