/-
# Proofs.Text.Codes -- texts that can be split off the front of longer ones

A code is prefix-free if it can be told where the code of one thing ends, whatever follows
it (`PrefixFree`).  A run of characters of one kind can be told apart from a text that goes
on with a character of another kind (`append_inj_of_stops`); it needs that character.

Quotes make any text prefix-free.  Between them a character stands for itself, or behind a
backslash as a mark of its own or as its code point in hexadecimal (`Escapes`), so the codes
of the characters can be split off one by one and none of them starts with the quote.  This
holds of the quoting of texts as well as of the quoting of atoms (`prefixFree_quoted`,
`prefixFree_atomQuoted`).
-/
import OperatorGrammar.Term.Atom
import OperatorGrammar.Text.Quoted

namespace OperatorGrammar.Text

set_option autoImplicit false

variable {α : Type} {a b r s : List Char}

/-- The code of one thing can be split off the front of any text. -/
def PrefixFree (code : α → List Char) : Prop :=
  ∀ x y r s, code x ++ r = code y ++ s → x = y ∧ r = s

/-! ## Runs of characters -/

/-- Nothing, or a character that the test does not pass. -/
def Stops (test : Char → Bool) (rest : List Char) : Prop := ∀ c ∈ rest.head?, test c = false

theorem append_inj_of_stops (test : Char → Bool) (runs : ∀ c ∈ a, test c = true)
    (runs' : ∀ c ∈ b, test c = true) (stops : Stops test r) (stops' : Stops test s)
    (same : a ++ r = b ++ s) : a = b ∧ r = s := by
  have first : (a ++ r).takeWhile test = a := by
    rw [List.takeWhile_append_of_pos runs]
    cases r with
    | nil => simp
    | cons c r => simp [stops c rfl]
  have second : (b ++ s).takeWhile test = b := by
    rw [List.takeWhile_append_of_pos runs']
    cases s with
    | nil => simp
    | cons c s => simp [stops' c rfl]
  have runs_eq : a = b := by rw [← first, same, second]
  subst runs_eq
  exact ⟨rfl, List.append_cancel_left same⟩

/-! ## Hexadecimal digits -/

theorem digitChar_inj : ∀ m < 16, ∀ n < 16, Nat.digitChar m = Nat.digitChar n → m = n := by
  decide

theorem digitChar_ne_brace : ∀ n < 16, Nat.digitChar n ≠ '\x7d' := by decide

/-- A number is known by its digits: the last one is its remainder, the others its quotient. -/
theorem toDigits_inj {m n : Nat} (same : Nat.toDigits 16 m = Nat.toDigits 16 n) : m = n := by
  induction m using Nat.strongRecOn generalizing n with
  | _ m ih =>
      rw [Nat.toDigits_eq_if (by decide), Nat.toDigits_eq_if (by decide) (n := n)] at same
      split at same <;> split at same
      · rename_i small small'
        exact digitChar_inj m small n small' (List.singleton_inj.1 same)
      · exact absurd (List.append_eq_singleton_iff.1 same.symm) (by simp)
      · exact absurd (List.append_eq_singleton_iff.1 same) (by simp)
      · obtain ⟨quotients, remainders⟩ := List.append_inj' same rfl
        have quotient := ih (m / 16) (by omega) quotients
        have remainder := digitChar_inj (m % 16) (Nat.mod_lt _ (by decide)) (n % 16)
          (Nat.mod_lt _ (by decide)) (List.singleton_inj.1 remainders)
        omega

theorem ne_brace_of_mem_toDigits {n : Nat} {c : Char} (digit : c ∈ Nat.toDigits 16 n) :
    c ≠ '\x7d' := by
  induction n using Nat.strongRecOn with
  | _ n ih =>
      rw [Nat.toDigits_eq_if (by decide)] at digit
      split at digit
      · rename_i small
        rw [List.mem_singleton.1 digit]
        exact digitChar_ne_brace n small
      · rcases List.mem_append.1 digit with listed | last
        · exact ih (n / 16) (by omega) listed
        · rw [List.mem_singleton.1 last]
          exact digitChar_ne_brace _ (Nat.mod_lt _ (by decide))

/-- The code point of a character, up to the brace behind it, tells the character. -/
theorem codePoint_append_inj {c d : Char}
    (same : Nat.toDigits 16 c.toNat ++ '\x7d' :: r = Nat.toDigits 16 d.toNat ++ '\x7d' :: s) :
    c = d ∧ r = s := by
  obtain ⟨digits, rest⟩ := append_inj_of_stops (· ≠ '\x7d')
    (fun x digit => by simpa using ne_brace_of_mem_toDigits digit)
    (fun x digit => by simpa using ne_brace_of_mem_toDigits digit) (by simp [Stops])
    (by simp [Stops]) same
  exact ⟨Char.toNat_inj.1 (toDigits_inj digits), (List.cons.inj rest).2⟩

/-! ## Characters between quotes -/

/-- How a character is written between quotes, given the marks that some characters have. -/
inductive Escapes (quote : Char) (marks : List (Char × Char)) (c : Char) : List Char → Prop
  | mark {m : Char} (listed : (c, m) ∈ marks) : Escapes quote marks c ['\\', m]
  | codePoint :
      Escapes quote marks c (['\\', 'u', '\x7b'] ++ Nat.toDigits 16 c.toNat ++ ['\x7d'])
  | self (noQuote : c ≠ quote) (noBackslash : c ≠ '\\') : Escapes quote marks c [c]

/-- No two characters have one mark, and none has the mark of code points. -/
structure Marks (marks : List (Char × Char)) : Prop where
  distinct : ∀ x ∈ marks, ∀ y ∈ marks, x.2 = y.2 → x.1 = y.1
  noCodePoint : ∀ x ∈ marks, x.2 ≠ 'u'

variable {quote : Char} {marks : List (Char × Char)} {code : Char → List Char}

theorem prefixFree_of_escapes (distinguishing : Marks marks)
    (escapes : ∀ c, Escapes quote marks c (code c)) : PrefixFree code := by
  intro c d r s same
  have first := escapes c
  have second := escapes d
  generalize code c = x at first same
  generalize code d = y at second same
  cases first with
  | mark listed =>
      cases second with
      | mark listed' =>
          simp only [List.cons_append, List.nil_append, List.cons.injEq, true_and] at same
          exact ⟨distinguishing.distinct _ listed _ listed' same.1, same.2⟩
      | codePoint =>
          simp only [List.cons_append, List.nil_append, List.cons.injEq, true_and] at same
          exact absurd same.1 (distinguishing.noCodePoint _ listed)
      | self _ noBackslash => exact absurd (List.cons.inj same).1.symm noBackslash
  | codePoint =>
      cases second with
      | mark listed =>
          simp only [List.cons_append, List.nil_append, List.cons.injEq, true_and] at same
          exact absurd same.1.symm (distinguishing.noCodePoint _ listed)
      | codePoint =>
          simp only [List.cons_append, List.nil_append, List.append_assoc, List.cons.injEq,
            true_and] at same
          exact codePoint_append_inj same
      | self _ noBackslash => exact absurd (List.cons.inj same).1.symm noBackslash
  | self _ noBackslash =>
      cases second with
      | mark _ => exact absurd (List.cons.inj same).1 noBackslash
      | codePoint => exact absurd (List.cons.inj same).1 noBackslash
      | self _ _ => simpa using same

theorem Escapes.append_ne_quote {c : Char} {written : List Char}
    (escapes : Escapes quote marks c written) (apart : quote ≠ '\\') :
    written ++ r ≠ quote :: s := by
  cases escapes with
  | mark _ => exact fun same => apart (List.cons.inj same).1.symm
  | codePoint => exact fun same => apart (List.cons.inj same).1.symm
  | self noQuote _ => exact fun same => noQuote (List.cons.inj same).1

/-- A rule for one character that has a mark, in front of a rule for the others. -/
theorem Escapes.ite {c d m : Char} {written : List Char} (listed : (d, m) ∈ marks)
    (otherwise : c ≠ d → Escapes quote marks c written) :
    Escapes quote marks c (if c = d then ['\\', m] else written) := by
  split
  · rename_i same
    exact .mark (same ▸ listed)
  · rename_i other
    exact otherwise other

/-- Behind the quote the codes of the characters follow, and none of them starts with the
quote that ends the text. -/
theorem prefixFree_between (free : PrefixFree code)
    (apart : ∀ c r s, code c ++ r ≠ quote :: s) :
    PrefixFree fun cs : List Char => quote :: cs.flatMap code ++ [quote] := by
  intro cs ds r s same
  simp only [List.cons_append, List.append_assoc, List.nil_append, List.cons.injEq,
    true_and] at same
  induction cs generalizing ds with
  | nil =>
      cases ds with
      | nil => exact ⟨rfl, (List.cons.inj same).2⟩
      | cons d ds =>
          rw [List.flatMap_cons, List.append_assoc] at same
          exact absurd same.symm (apart d _ _)
  | cons c cs ih =>
      cases ds with
      | nil =>
          rw [List.flatMap_cons, List.append_assoc] at same
          exact absurd same (apart c _ _)
      | cons d ds =>
          rw [List.flatMap_cons, List.flatMap_cons, List.append_assoc, List.append_assoc] at same
          obtain ⟨rfl, others⟩ := free c d _ _ same
          obtain ⟨rfl, rest⟩ := ih ds others
          exact ⟨rfl, rest⟩

theorem prefixFree_of_toList {written : String → String}
    (free : PrefixFree fun cs : List Char => (written (String.ofList cs)).toList) :
    PrefixFree fun text => (written text).toList := by
  intro x y r s same
  obtain ⟨chars, rest⟩ := free x.toList y.toList r s (by simpa using same)
  exact ⟨String.toList_inj.1 chars, rest⟩

/-! ## Quoted texts and quoted atoms -/

def textMarks : List (Char × Char) :=
  [('\x00', '0'), ('\t', 't'), ('\n', 'n'), ('\r', 'r'), ('\x22', '\x22'), ('\\', '\\')]

theorem escapes_text (c : Char) : Escapes '\x22' textMarks c (escape c) := by
  unfold escape
  refine .ite (by decide) fun _ => .ite (by decide) fun _ => .ite (by decide) fun _ => ?_
  refine .ite (by decide) fun _ => .ite (by decide) fun noQuote => ?_
  refine .ite (by decide) fun noBackslash => ?_
  split
  · exact .codePoint
  · exact .self noQuote noBackslash

/-- A text between double quotes can be split off, whatever follows it. -/
theorem prefixFree_quoted : PrefixFree fun text => (quoted text).toList := by
  apply prefixFree_of_toList
  simp only [quoted, String.toList_ofList]
  exact prefixFree_between (prefixFree_of_escapes ⟨by decide, by decide⟩ escapes_text)
    fun c _ _ => (escapes_text c).append_ne_quote (by decide)

def atomMarks : List (Char × Char) :=
  [('\x27', '\x27'), ('\\', '\\'), ('\n', 'n'), ('\t', 't')]

theorem escapes_atom (c : Char) : Escapes '\x27' atomMarks c (Atom.escape c) := by
  unfold Atom.escape
  refine .ite (by decide) fun noQuote => .ite (by decide) fun noBackslash => ?_
  exact .ite (by decide) fun _ => .ite (by decide) fun _ => .self noQuote noBackslash

/-- A name between single quotes can be split off, whatever follows it. -/
theorem prefixFree_atomQuoted : PrefixFree fun name => (Atom.quoted name).toList := by
  apply prefixFree_of_toList
  simp only [Atom.quoted, String.toList_ofList]
  exact prefixFree_between (prefixFree_of_escapes ⟨by decide, by decide⟩ escapes_atom)
    fun c _ _ => (escapes_atom c).append_ne_quote (by decide)

end OperatorGrammar.Text
