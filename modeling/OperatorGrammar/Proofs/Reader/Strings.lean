/-
# Proofs.Reader.Strings -- strings read back as far as their escapes are known

A string is written between double quotes, in canonical text and in operator notation alike.
The writer has an escape for every character without a shape of its own.  The reader knows
those of the tab, the line feed, the quote and the backslash, and no others.

So a string is read back exactly if all its characters are legible (`Text.isLegible`); the
first one that is not stops the reader at the character behind the backslash (`read_string`).
-/
import OperatorGrammar.Layout.Text
import OperatorGrammar.Proofs.Reader.Canonical

namespace OperatorGrammar

set_option autoImplicit false

open Scan

/-- The character behind the backslash of an escape that the reader does not know. -/
def Text.escapeMark (c : Char) : Char := if c = '\x00' then '0' else if c = '\r' then 'r' else 'u'

variable {s : String} {c : Char} {cs rest : List Char}

theorem unescape?_escapeMark (c : Char) : unescape? (Text.escapeMark c) = none := by
  unfold Text.escapeMark
  split
  · decide
  · split <;> decide

theorem exists_escape (illegible : Text.isLegible c = false) :
    ∃ others, Text.escape c = '\\' :: Text.escapeMark c :: others := by
  simp only [Text.isLegible, Bool.or_eq_false_iff, decide_eq_false_iff_not,
    Bool.not_eq_false'] at illegible
  obtain ⟨⟨tab, feed⟩, unprinted⟩ := illegible
  have quote : c ≠ '\x22' := by
    rintro rfl
    exact absurd unprinted (by decide +kernel)
  have backslash : c ≠ '\\' := by
    rintro rfl
    exact absurd unprinted (by decide +kernel)
  unfold Text.escape Text.escapeMark
  simp only [tab, feed, quote, backslash, unprinted, if_false, if_true]
  split
  · exact ⟨[], rfl⟩
  · split
    · exact ⟨[], rfl⟩
    · exact ⟨_, rfl⟩

/-- An escape that is not known ends the reading. -/
theorem run_escape (illegible : Text.isLegible c = false) (read rest : List Char) :
    run (.quoted '\x22' read) (Text.escape c ++ rest) =
      .error (.unknownEscape (Text.escapeMark c)) := by
  obtain ⟨others, escaped⟩ := exists_escape illegible
  have opened : step (.quoted '\x22' read) '\\' = .ok (.escaped '\x22' read, []) := by simp [step]
  have unknown : step (.escaped '\x22' read) (Text.escapeMark c) =
      .error (.unknownEscape (Text.escapeMark c)) := by
    simp [step, unescape?_escapeMark]
  rw [escaped, List.cons_append, List.cons_append, run_cons opened, before_nil, run, unknown]
  rfl

/-- A quoted text stops the reader at its first character that is not legible. -/
theorem ofLine_quoted_of_illegible {front behind : List Char}
    (legible : ∀ c ∈ front, Text.isLegible c = true) (illegible : Text.isLegible c = false) :
    Lexeme.ofLine (Text.quoted (String.ofList (front ++ c :: behind))) =
      .error (.unknownEscape (Text.escapeMark c)) := by
  have opened : step (.between false) '\x22' = .ok (.quoted '\x22' [], []) := rfl
  rw [Lexeme.ofLine, Text.quoted, String.toList_ofList, String.toList_ofList, List.cons_append,
    run_cons opened, before_nil, List.flatMap_append, List.flatMap_cons, List.append_assoc,
    run_written front [] _ fun c listed => readsBack_text (legible c listed), List.append_assoc,
    run_escape illegible]

namespace Reader

variable {table : Table}

/-- Every string has the same canonical text and operator notation.  It is read as the string
if all its characters are legible, and only then; otherwise the first other one is why not. -/
theorem read_string (table : Table) (s : String) :
    Layout.text table (.str s) = (Term.str s).text ∧
      (Term.read table (Term.str s).text = .ok (.str s) ↔
        ∀ c ∈ s.toList, Text.isLegible c = true) ∧
      Term.read table (Term.str s).text =
        match s.toList.find? fun c => !Text.isLegible c with
        | none => .ok (.str s)
        | some c => .error (.lexical (.unknownEscape (Text.escapeMark c))) := by
  have result : Term.read table (Term.str s).text =
      match s.toList.find? fun c => !Text.isLegible c with
      | none => .ok (.str s)
      | some c => .error (.lexical (.unknownEscape (Text.escapeMark c))) := by
    cases found : s.toList.find? fun c => !Text.isLegible c with
    | none =>
        have legible : ∀ c ∈ s.toList, Text.isLegible c = true := by simpa using found
        exact (writes_str legible).tells.read
    | some c =>
        obtain ⟨illegible, front, behind, split, legible⟩ := List.find?_eq_some_iff_append.1 found
        have stops : Lexeme.ofLine (Term.str s).text =
            .error (.unknownEscape (Text.escapeMark c)) := by
          have text_eq :
              (Term.str s).text = Text.quoted (String.ofList (front ++ c :: behind)) := by
            rw [← split, String.ofList_toList]
            rfl
          rw [text_eq]
          exact ofLine_quoted_of_illegible (by simpa using legible) (by simpa using illegible)
        rw [Term.read, Reading.ofLine, stops]
  refine ⟨rfl, ?_, result⟩
  rw [result]
  cases found : s.toList.find? fun c => !Text.isLegible c with
  | none => simpa using found
  | some c =>
      have listed := List.mem_of_find?_eq_some found
      have illegible := List.find?_some found
      simp only [reduceCtorEq, false_iff, not_forall]
      exact ⟨c, listed, by simpa using illegible⟩

/-- A carriage return is written by an escape that is not read. -/
theorem read_carriageReturn :
    (Term.str "\r").text = "\"\\r\"" ∧
      Term.read .standard "\"\\r\"" = .error (.lexical (.unknownEscape 'r')) :=
  ⟨by decide +kernel, rfl⟩

end Reader

end OperatorGrammar
