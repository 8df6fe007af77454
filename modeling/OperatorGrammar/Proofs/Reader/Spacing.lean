/-
# Proofs.Reader.Spacing -- blanks part a line

A line that has pieces leaves nothing open but perhaps a word, and whether a name has just
ended.  A blank behind it closes the word and forgets the name (`run_append_blank`), and
further blanks change nothing (`run_blanks`).  So what stands behind the blanks is read as a
line of its own: its pieces follow those in front, with its calls being calls and its groups
being groups (`ofLine_append_blanks`).
-/
import OperatorGrammar.Proofs.Reader.Spelling

namespace OperatorGrammar

set_option autoImplicit false

namespace Scan

variable {scan : Scan} {c : Char} {cs blanks : List Char} {pieces : List Lexeme}

theorem before_eq_ok {reading : Except LexicalError (List Lexeme)} {all : List Lexeme}
    (read : before pieces reading = .ok all) :
    ∃ others, reading = .ok others ∧ all = pieces ++ others := by
  cases reading with
  | ok others =>
      cases read
      exact ⟨others, rfl, rfl⟩
  | error e => cases read

theorem start_blank (blank : Text.isBlank c = true) (glued : Bool) :
    start glued c = (.between false, []) := by
  rw [start, if_pos blank]

theorem endsWord_blank (blank : Text.isBlank c = true) : endsWord c = true := by
  simp [endsWord, blank]

theorem run_between_blank (blank : Text.isBlank c = true) (glued : Bool) (cs : List Char) :
    run (.between glued) (c :: cs) = run (.between false) cs := by
  have stepped : step (.between glued) c = .ok (.between false, []) := by
    rw [step, start_blank blank]
  rw [run_cons stepped, before_nil]

/-- Where the line could end, a blank leaves nothing open. -/
theorem run_blank_of_finish (finished : scan.finish = .ok pieces) (blank : Text.isBlank c = true)
    (rest : List Char) : run scan (c :: rest) = before pieces (run (.between false) rest) := by
  cases scan with
  | between glued =>
      cases finished
      rw [run_between_blank blank, before_nil]
  | word read =>
      cases finished
      have stepped : step (.word read) c =
          .ok (.between false, [.word (String.ofList read.reverse)]) := by
        simp [step, endsWord_blank blank, start_blank blank]
      exact run_cons stepped rest
  | quoted quote read => cases finished
  | escaped quote read => cases finished

/-- What the characters complete in front of a blank they complete at the end of a line. -/
theorem run_append_blank (ran : run scan cs = .ok pieces) (blank : Text.isBlank c = true)
    (rest : List Char) :
    run scan (cs ++ c :: rest) = before pieces (run (.between false) rest) := by
  induction cs generalizing scan pieces with
  | nil => exact run_blank_of_finish ran blank rest
  | cons first cs ih =>
      cases stepped : scan.step first with
      | error e =>
          rw [run, stepped] at ran
          cases ran
      | ok result =>
          obtain ⟨next, completed⟩ := result
          rw [run_cons stepped] at ran
          obtain ⟨others, behind, rfl⟩ := before_eq_ok ran
          rw [List.cons_append, run_cons stepped, ih behind, before_before]

theorem run_blanks (blank : ∀ c ∈ blanks, Text.isBlank c = true) (rest : List Char) :
    run (.between false) (blanks ++ rest) = run (.between false) rest := by
  induction blanks with
  | nil => rfl
  | cons c blanks ih =>
      obtain ⟨first, blank⟩ := List.forall_mem_cons.1 blank
      rw [List.cons_append, run_between_blank first, ih blank]

end Scan

open Scan

namespace Lexeme

variable {a w b : String} {front : List Lexeme}

/-- Behind a line that has pieces and blanks, the rest is a line of its own. -/
theorem ofLine_append_blanks (reads : ofLine a = .ok front) (nonempty : w ≠ "")
    (blank : ∀ c ∈ w.toList, Text.isBlank c = true) (b : String) :
    ofLine (a ++ w ++ b) = before front (ofLine b) := by
  have characters : (a ++ w ++ b).toList = a.toList ++ (w.toList ++ b.toList) := by simp
  rw [ofLine, characters]
  cases first : w.toList with
  | nil => exact absurd (String.toList_eq_nil_iff.1 first) nonempty
  | cons c blanks =>
      rw [first] at blank
      obtain ⟨blankFirst, blank⟩ := List.forall_mem_cons.1 blank
      rw [List.cons_append, run_append_blank reads blankFirst, run_blanks blank]
      rfl

/-- Blanks between two texts of which the first has pieces: the whole has pieces exactly if the
second has, and they are those of the first, then those of the second.  Which blanks there are
does not matter, as long as there is one. -/
theorem ofLine_spaced (reads : ofLine a = .ok front) (nonempty : w ≠ "")
    (blank : ∀ c ∈ w.toList, Text.isBlank c = true) (b : String) :
    ((∃ all, ofLine (a ++ w ++ b) = .ok all) ↔ ∃ behind, ofLine b = .ok behind) ∧
      (∀ behind, ofLine b = .ok behind → ofLine (a ++ w ++ b) = .ok (front ++ behind)) ∧
      ∀ w', w' ≠ "" → (∀ c ∈ w'.toList, Text.isBlank c = true) →
        ofLine (a ++ w' ++ b) = ofLine (a ++ w ++ b) := by
  have parted := ofLine_append_blanks reads nonempty blank b
  refine ⟨⟨?_, ?_⟩, ?_, ?_⟩
  · rintro ⟨all, whole⟩
    rw [parted] at whole
    obtain ⟨behind, read, -⟩ := before_eq_ok whole
    exact ⟨behind, read⟩
  · rintro ⟨behind, read⟩
    exact ⟨front ++ behind, by rw [parted, read, before_ok]⟩
  · intro behind read
    rw [parted, read, before_ok]
  · intro w' nonempty' blank'
    rw [parted, ofLine_append_blanks reads nonempty' blank' b]

/-- A name ends in front of a blank, so the parenthesis behind it opens no call. -/
theorem ofLine_spaced_name :
    ofLine "f('b c', g" = .ok [.word "f", .opening true, .quoted "b c", .comma, .word "g"] ∧
      ofLine "(x))" = .ok [.opening false, .word "x", .closing, .closing] ∧
      ofLine "f('b c', g\u00a0\t(x))" =
        .ok [.word "f", .opening true, .quoted "b c", .comma, .word "g", .opening false, .word "x",
          .closing, .closing] :=
  have blank : ∀ c ∈ "\u00a0\t".toList, Text.isBlank c = true := List.all_eq_true.1 rfl
  ⟨rfl, rfl, (ofLine_spaced (a := "f('b c', g") rfl (by decide) blank "(x))").2.1 _ rfl⟩

end Lexeme

end OperatorGrammar
