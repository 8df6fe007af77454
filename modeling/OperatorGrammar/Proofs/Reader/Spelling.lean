/-
# Proofs.Reader.Spelling -- texts and the lexemes they are read as

A text spells lexemes if it is read as them in front of any text that starts with a blank, a
closing parenthesis or a comma, or is empty (`Spells`); such a text decides nothing about
what stands before it.  A name spells its lexeme also in front of the opening parenthesis of
its arguments (`SpellsName`).

Words and quoted texts are names or spell a lexeme by themselves.  Spelled texts stay what
they are side by side with a blank between them, in parentheses, and between the commas
behind a name.
-/
import OperatorGrammar.Reader.Lexeme
import OperatorGrammar.Term.Text

namespace OperatorGrammar

set_option autoImplicit false

namespace Scan

variable {cs rest : List Char} {quote : Char}

/-- The reading with further pieces in front of its own. -/
def before (pieces : List Lexeme) (reading : Except LexicalError (List Lexeme)) :
    Except LexicalError (List Lexeme) :=
  reading.map (pieces ++ ·)

@[simp] theorem before_ok (pieces others : List Lexeme) :
    before pieces (.ok others) = .ok (pieces ++ others) := rfl

@[simp] theorem before_nil (reading : Except LexicalError (List Lexeme)) :
    before [] reading = reading := by
  cases reading <;> rfl

@[simp] theorem before_before (first second : List Lexeme)
    (reading : Except LexicalError (List Lexeme)) :
    before first (before second reading) = before (first ++ second) reading := by
  cases reading with
  | ok others => simp
  | error e => rfl

theorem run_cons {scan next : Scan} {c : Char} {pieces : List Lexeme}
    (stepped : scan.step c = .ok (next, pieces)) (cs : List Char) :
    run scan (c :: cs) = before pieces (run next cs) := by
  rw [run, stepped]
  change (run next cs >>= fun rest => pure (pieces ++ rest)) = _
  cases run next cs <;> rfl

/-! ## Blanks and punctuation -/

theorem run_blank (glued : Bool) (cs : List Char) :
    run (.between glued) (' ' :: cs) = run (.between false) cs :=
  (run_cons rfl cs).trans (before_nil _)

theorem run_opening (glued : Bool) (cs : List Char) :
    run (.between glued) ('(' :: cs) = before [.opening glued] (run (.between false) cs) :=
  run_cons rfl cs

theorem run_closing (glued : Bool) (cs : List Char) :
    run (.between glued) (')' :: cs) = before [.closing] (run (.between false) cs) :=
  run_cons rfl cs

theorem run_comma (glued : Bool) (cs : List Char) :
    run (.between glued) (',' :: cs) = before [.comma] (run (.between false) cs) :=
  run_cons rfl cs

/-- Nothing, or a character that neither continues what stands before it nor tells whether a
name has just ended. -/
def Separated (rest : List Char) : Prop := ∀ c ∈ rest.head?, c = ' ' ∨ c = ')' ∨ c = ','

theorem separated_nil : Separated [] := by simp [Separated]

theorem separated_blank (cs : List Char) : Separated (' ' :: cs) := by simp [Separated]

theorem separated_closing (cs : List Char) : Separated (')' :: cs) := by simp [Separated]

theorem separated_comma (cs : List Char) : Separated (',' :: cs) := by simp [Separated]

theorem Separated.run_between (separated : Separated rest) (glued : Bool) :
    run (.between glued) rest = run (.between false) rest := by
  cases rest with
  | nil => rfl
  | cons c cs =>
      rcases separated c rfl with rfl | rfl | rfl
      · rw [run_blank, run_blank]
      · rw [run_closing, run_closing]
      · rw [run_comma, run_comma]

/-! ## Words -/

/-- Nothing, or a character that ends a word. -/
def EndsWord (rest : List Char) : Prop := ∀ c ∈ rest.head?, endsWord c = true

theorem Separated.endsWord (separated : Separated rest) : EndsWord rest := by
  intro c heads
  rcases separated c heads with rfl | rfl | rfl <;> decide

theorem run_word_append (read word : List Char) (unbroken : ∀ c ∈ word, endsWord c = false)
    (ended : EndsWord rest) :
    run (.word read) (word ++ rest) =
      before [.word (String.ofList (read.reverse ++ word))] (run (.between true) rest) := by
  induction word generalizing read with
  | nil =>
      cases rest with
      | nil => simp [run, finish]
      | cons c cs =>
          have ends : endsWord c = true := ended c rfl
          have stepped : step (.word read) c =
              .ok ((start true c).1, .word (String.ofList read.reverse) :: (start true c).2) := by
            simp [step, ends]
          have started : step (.between true) c = .ok ((start true c).1, (start true c).2) := rfl
          rw [List.nil_append, run_cons stepped, run_cons started, before_before]
          simp
  | cons c word ih =>
      obtain ⟨holds, unbroken⟩ := List.forall_mem_cons.1 unbroken
      have stepped : step (.word read) c = .ok (.word (c :: read), []) := by simp [step, holds]
      rw [List.cons_append, run_cons stepped, ih (c :: read) unbroken]
      simp

theorem start_of_not_endsWord {c : Char} (holds : endsWord c = false) (glued : Bool) :
    start glued c = (.word [c], []) := by
  simp only [endsWord, Bool.or_eq_false_iff, decide_eq_false_iff_not] at holds
  obtain ⟨⟨⟨⟨⟨blank, opening⟩, closing⟩, comma⟩, single⟩, double⟩ := holds
  simp [start, blank, opening, closing, comma, single, double]

theorem run_word (word : List Char) (some_char : word ≠ [])
    (unbroken : ∀ c ∈ word, endsWord c = false) (ended : EndsWord rest) (glued : Bool) :
    run (.between glued) (word ++ rest) =
      before [.word (String.ofList word)] (run (.between true) rest) := by
  cases word with
  | nil => exact absurd rfl some_char
  | cons c word =>
      obtain ⟨holds, unbroken⟩ := List.forall_mem_cons.1 unbroken
      have stepped : step (.between glued) c = .ok (.word [c], []) := by
        rw [step, start_of_not_endsWord holds]
      rw [List.cons_append, run_cons stepped, run_word_append [c] word unbroken ended]
      simp

/-! ## Quoted texts -/

/-- The written form of `c` stands for `c` behind the quote. -/
def ReadsBack (quote : Char) (written : Char → List Char) (c : Char) : Prop :=
  ∀ read rest, run (.quoted quote read) (written c ++ rest) = run (.quoted quote (c :: read)) rest

theorem readsBack_escaped {written : Char → List Char} {c mark : Char}
    (written_eq : written c = ['\\', mark]) (apart : quote ≠ '\\')
    (unescaped : unescape? mark = some c) : ReadsBack quote written c := by
  intro read rest
  have opened : step (.quoted quote read) '\\' = .ok (.escaped quote read, []) := by
    simp [step, apart.symm]
  have stepped : step (.escaped quote read) mark = .ok (.quoted quote (c :: read), []) := by
    simp [step, unescaped]
  rw [written_eq, List.cons_append, run_cons opened, List.cons_append, run_cons stepped]
  simp

theorem readsBack_self {written : Char → List Char} {c : Char} (written_eq : written c = [c])
    (noQuote : c ≠ quote) (noEscape : c ≠ '\\') : ReadsBack quote written c := by
  intro read rest
  have stepped : step (.quoted quote read) c = .ok (.quoted quote (c :: read), []) := by
    simp [step, noQuote, noEscape]
  rw [written_eq, List.cons_append, run_cons stepped]
  simp

/-- Characters that their written forms stand for are read in front of anything. -/
theorem run_written {written : Char → List Char} (text read rest : List Char)
    (back : ∀ c ∈ text, ReadsBack quote written c) :
    run (.quoted quote read) (text.flatMap written ++ rest) =
      run (.quoted quote (text.reverse ++ read)) rest := by
  induction text generalizing read with
  | nil => rfl
  | cons c text ih =>
      obtain ⟨first, back⟩ := List.forall_mem_cons.1 back
      rw [List.flatMap_cons, List.append_assoc, first, ih (c :: read) back]
      simp

theorem run_body {written : Char → List Char} (text read : List Char)
    (back : ∀ c ∈ text, ReadsBack quote written c) :
    run (.quoted quote read) (text.flatMap written ++ quote :: rest) =
      before [piece quote (text.reverse ++ read)] (run (.between (quote = '\x27')) rest) := by
  have stepped : step (.quoted quote (text.reverse ++ read)) quote =
      .ok (.between (quote = '\x27'), [piece quote (text.reverse ++ read)]) := by simp [step]
  rw [run_written text read _ back, run_cons stepped]

end Scan

open Scan

variable {s t : String} {lexeme : Lexeme} {lexemes others : List Lexeme}

/-- The text is read as the lexeme of a name. -/
def SpellsName (text : String) (lexeme : Lexeme) : Prop :=
  ∀ rest, EndsWord rest →
    run (.between false) (text.toList ++ rest) = before [lexeme] (run (.between true) rest)

/-- The text is read as the lexemes. -/
def Spells (text : String) (lexemes : List Lexeme) : Prop :=
  ∀ rest, Separated rest →
    run (.between false) (text.toList ++ rest) = before lexemes (run (.between false) rest)

theorem SpellsName.spells (name : SpellsName s lexeme) : Spells s [lexeme] := by
  intro rest separated
  rw [name rest separated.endsWord, separated.run_between]

theorem Spells.ofLine (spells : Spells s lexemes) : Lexeme.ofLine s = .ok lexemes := by
  have read := spells [] separated_nil
  rw [List.append_nil] at read
  rw [Lexeme.ofLine, read]
  simp [run, finish]

/-! ## Single lexemes -/

theorem spellsName_word (named : s ≠ "") (unbroken : ∀ c ∈ s.toList, endsWord c = false) :
    SpellsName s (.word s) := by
  intro rest ended
  rw [run_word s.toList (by simpa using named) unbroken ended, String.ofList_toList]

theorem readsBack_atom (c : Char) : ReadsBack '\x27' Atom.escape c := by
  by_cases quote : c = '\x27'
  · subst quote
    exact readsBack_escaped rfl (by decide) rfl
  by_cases backslash : c = '\\'
  · subst backslash
    exact readsBack_escaped rfl (by decide) rfl
  by_cases feed : c = '\n'
  · subst feed
    exact readsBack_escaped rfl (by decide) rfl
  by_cases tab : c = '\t'
  · subst tab
    exact readsBack_escaped rfl (by decide) rfl
  · exact readsBack_self (by simp [Atom.escape, quote, backslash, feed, tab]) quote backslash

theorem spellsName_quoted (name : String) : SpellsName (Atom.quoted name) (.quoted name) := by
  intro rest _
  have opened : step (.between false) '\x27' = .ok (.quoted '\x27' [], []) := rfl
  rw [Atom.quoted, String.toList_ofList, List.cons_append, List.cons_append, run_cons opened,
    List.append_assoc, List.singleton_append,
    run_body name.toList [] fun c _ => readsBack_atom c]
  simp [piece]

/-- The ASCII characters with a shape, the space, the line feed and the tab. -/
def Text.isPrintable (c : Char) : Bool :=
  0x20 ≤ c.toNat && c.toNat ≤ 0x7E || c = '\n' || c = '\t'

/-- A text of printable characters. -/
def Text.Printable (text : String) : Prop := ∀ c ∈ text.toList, isPrintable c = true

instance (text : String) : Decidable (Text.Printable text) :=
  List.decidableBAll (Text.isPrintable · = true) text.toList

/-- A set has no character of a range that its runs leave out. -/
theorem Text.CharSet.not_has {set : CharSet} {low high : Nat}
    (apart : ∀ run ∈ set, run.2 < low ∨ high < run.1) {c : Char} (above : low ≤ c.toNat)
    (below : c.toNat ≤ high) : set.has c = false := by
  rw [Bool.eq_false_iff, Ne, has_iff]
  rintro ⟨run, listed, first, last⟩
  rcases apart run listed with before | behind
  · omega
  · omega

theorem unprinted_apart : ∀ run ∈ Text.unprinted, run.2 < 0x20 ∨ 0x7E < run.1 := by
  decide +kernel

/-- A character that a double-quoted text shows by itself or by an escape that is read: all but
the unprinted ones, and of these the tab and the line feed. -/
def Text.isLegible (c : Char) : Bool := c = '\t' || c = '\n' || !unprinted.has c

theorem Text.isLegible_of_isPrintable {c : Char} (printable : isPrintable c = true) :
    isLegible c = true := by
  simp only [isPrintable, Bool.or_eq_true, Bool.and_eq_true, decide_eq_true_eq] at printable
  rcases printable with (⟨above, below⟩ | rfl) | rfl
  · simp [isLegible, CharSet.not_has unprinted_apart above below]
  · rfl
  · rfl

theorem readsBack_text {c : Char} (legible : Text.isLegible c = true) :
    ReadsBack '\x22' Text.escape c := by
  by_cases tab : c = '\t'
  · subst tab
    exact readsBack_escaped rfl (by decide) rfl
  by_cases feed : c = '\n'
  · subst feed
    exact readsBack_escaped rfl (by decide) rfl
  by_cases quote : c = '\x22'
  · subst quote
    exact readsBack_escaped rfl (by decide) rfl
  by_cases backslash : c = '\\'
  · subst backslash
    exact readsBack_escaped rfl (by decide) rfl
  have shown : Text.unprinted.has c = false := by
    simpa [Text.isLegible, tab, feed] using legible
  have zero : c ≠ '\x00' := by
    rintro rfl
    exact absurd shown (by decide)
  have carriage : c ≠ '\r' := by
    rintro rfl
    exact absurd shown (by decide)
  refine readsBack_self ?_ quote backslash
  simp [Text.escape, zero, tab, feed, carriage, quote, backslash, shown]

theorem spells_str (legible : ∀ c ∈ s.toList, Text.isLegible c = true) :
    Spells (Text.quoted s) [.str s] := by
  intro rest _
  have opened : step (.between false) '\x22' = .ok (.quoted '\x22' [], []) := rfl
  rw [Text.quoted, String.toList_ofList, List.cons_append, List.cons_append, run_cons opened,
    List.append_assoc, List.singleton_append,
    run_body s.toList [] fun c listed => readsBack_text (legible c listed)]
  simp [piece]

theorem spells_comma : Spells "," [.comma] := fun rest _ => run_comma false rest

/-! ## Lexemes side by side -/

theorem Spells.beside (first : Spells s lexemes) (second : Spells t others) :
    Spells (s ++ " " ++ t) (lexemes ++ others) := by
  intro rest separated
  have split : (s ++ " " ++ t).toList ++ rest = s.toList ++ ' ' :: (t.toList ++ rest) := by simp
  rw [split, first _ (separated_blank _), run_blank, second rest separated, before_before]

theorem Spells.separatedBy (first : Spells s lexemes) (second : Spells t others) :
    Spells (s ++ ", " ++ t) (lexemes ++ .comma :: others) := by
  intro rest separated
  have split : (s ++ ", " ++ t).toList ++ rest = s.toList ++ ',' :: ' ' :: (t.toList ++ rest) := by
    simp
  rw [split, first _ (separated_comma _), run_comma, run_blank, second rest separated,
    before_before, before_before]
  simp

theorem Spells.parenthesized (inner : Spells s lexemes) :
    Spells ("(" ++ s ++ ")") (.opening false :: lexemes ++ [.closing]) := by
  intro rest separated
  have split : ("(" ++ s ++ ")").toList ++ rest = '(' :: (s.toList ++ ')' :: rest) := by simp
  rw [split, run_opening, inner _ (separated_closing _), run_closing, before_before,
    before_before]
  rfl

theorem SpellsName.application (name : SpellsName s lexeme) (inner : Spells t lexemes) :
    Spells (s ++ "(" ++ t ++ ")") (lexeme :: .opening true :: lexemes ++ [.closing]) := by
  intro rest separated
  have split : (s ++ "(" ++ t ++ ")").toList ++ rest =
      s.toList ++ '(' :: (t.toList ++ ')' :: rest) := by simp
  have ended : EndsWord ('(' :: (t.toList ++ ')' :: rest)) := by
    rintro c ⟨⟩
    decide
  rw [split, name _ ended, run_opening, inner _ (separated_closing _), run_closing,
    before_before, before_before, before_before]
  simp

end OperatorGrammar
