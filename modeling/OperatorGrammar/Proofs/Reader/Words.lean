/-
# Proofs.Reader.Words -- what the words of a term stand for

A word is a number, else a variable, else an operator of the table, else an atom, and which
of these it is can be said by its characters and its entry alone (`ofWord_eq_iff`).  A number
starts with a digit or a sign, so a word that starts with a letter is none
(`not_isNumber_of_letter`).

So the decimal text of an integer stands for the integer, a variable's name for the variable,
and a name that needs no quotes for the atom or, if the table knows it, for the operator.
-/
import OperatorGrammar.Proofs.Reader.Spelling
import OperatorGrammar.Proofs.Text.Numerals
import OperatorGrammar.Reader.Word

namespace OperatorGrammar

set_option autoImplicit false

open Scan

variable {table : Table} {name : String}

/-- A word without characters that would end it. -/
def Unbroken (word : String) : Prop := ∀ c ∈ word.toList, endsWord c = false

-- Through the list: there is a search through all characters, too.
instance (word : String) : Decidable (Unbroken word) :=
  List.decidableBAll (endsWord · = false) word.toList

/-! ## Characters -/

theorem blanks_apart : ∀ run ∈ Text.blanks, run.2 < 0x2D ∨ 0x7D < run.1 := by decide

/-- The characters from the minus sign to the closing brace end no word. -/
theorem endsWord_of_range {c : Char} (low : 0x2D ≤ c.toNat) (high : c.toNat ≤ 0x7D) :
    endsWord c = false := by
  have blank : Text.isBlank c = false := Text.CharSet.not_has blanks_apart low high
  have apart : ∀ d : Char, d.toNat < 0x2D → c ≠ d := by
    rintro d below rfl
    exact absurd low (Nat.not_le.2 below)
  simp [endsWord, blank, apart '(' (by decide), apart ')' (by decide), apart ',' (by decide),
    apart '\x27' (by decide), apart '\x22' (by decide)]

theorem toNat_of_isDigit {c : Char} (digit : c.isDigit = true) :
    0x30 ≤ c.toNat ∧ c.toNat ≤ 0x39 := by
  have bounds : (decide (0x30 ≤ c.val) && decide (c.val ≤ 0x39)) = true := digit
  simp only [Bool.and_eq_true, decide_eq_true_eq, UInt32.le_iff_toNat_le] at bounds
  exact bounds

theorem toNat_of_isLower {c : Char} (lower : c.isLower = true) :
    0x61 ≤ c.toNat ∧ c.toNat ≤ 0x7A := by
  have bounds : (decide (0x61 ≤ c.val) && decide (c.val ≤ 0x7A)) = true := lower
  simp only [Bool.and_eq_true, decide_eq_true_eq, UInt32.le_iff_toNat_le] at bounds
  exact bounds

theorem toNat_of_isUpper {c : Char} (upper : c.isUpper = true) :
    0x41 ≤ c.toNat ∧ c.toNat ≤ 0x5A := by
  have bounds : 0x41 ≤ c.val ∧ c.val ≤ 0x5A := of_decide_eq_true upper
  simp only [UInt32.le_iff_toNat_le] at bounds
  exact bounds

theorem endsWord_of_isPlainChar {c : Char} (plain : Atom.isPlainChar c = true) :
    endsWord c = false := by
  have cases : (c.isUpper || c.isLower || c.isDigit || decide (c = '_')) = true := plain
  simp only [Bool.or_eq_true, decide_eq_true_eq] at cases
  rcases cases with ((upper | lower) | digit) | rfl
  · have range := toNat_of_isUpper upper
    exact endsWord_of_range (by omega) (by omega)
  · have range := toNat_of_isLower lower
    exact endsWord_of_range (by omega) (by omega)
  · have range := toNat_of_isDigit digit
    exact endsWord_of_range (by omega) (by omega)
  · decide

theorem not_isDigit_of_letter {c : Char} (letter : 0x41 ≤ c.toNat) : c.isDigit = false := by
  rw [Bool.eq_false_iff]
  intro digit
  have := (toNat_of_isDigit digit).2
  omega

/-! ## Numbers -/

theorem unbroken_int (n : Int) : Unbroken (Text.signedDecimal n) := by
  have digits : ∀ m, ∀ c ∈ Text.digits m, endsWord c = false := by
    intro m c listed
    have range := toNat_of_isDigit (Text.isDigit_of_mem_digits listed)
    exact endsWord_of_range (by omega) (by omega)
  cases n with
  | ofNat m => simpa [Unbroken, Text.signedDecimal, Text.decimal] using digits m
  | negSucc m =>
      simpa [Unbroken, Text.signedDecimal, Text.decimal] using
        ⟨by decide, digits (m + 1)⟩

theorem signedDecimal_ne_empty (n : Int) : Text.signedDecimal n ≠ "" := by
  cases n with
  | ofNat m => simp [Text.signedDecimal, Text.decimal, Text.digits]
  | negSucc m => simp [Text.signedDecimal]

theorem int64?_signedDecimal (n : Int64) :
    Text.int64? (Text.signedDecimal n.toInt).toList = some n :=
  Text.int64?_eq_some_iff.2 (Text.isInteger_signedDecimal n.toInt)

/-- A word that writes a number: an integer of 64 bits or a decimal numeral. -/
def IsNumber (word : String) : Prop :=
  (∃ n : Int64, Text.IsInteger word.toList n.toInt) ∨ Binary64.IsDecimal word.toList

theorem isSome_number?_iff : (Term.number? name).isSome = true ↔ IsNumber name := by
  unfold Term.number? IsNumber
  rw [← Binary64.isSome_ofNumeral?_iff]
  simp only [← Text.int64?_eq_some_iff]
  cases Text.int64? name.toList with
  | some n => simp
  | none => simp

theorem number?_eq_none (numberless : ¬ IsNumber name) : Term.number? name = none :=
  Option.not_isSome_iff_eq_none.1 (mt isSome_number?_iff.1 numberless)

/-- A number starts with a digit or a sign. -/
theorem IsNumber.head (number : IsNumber name) :
    ∃ c rest, name.toList = c :: rest ∧ (c.isDigit = true ∨ c = '+' ∨ c = '-') := by
  rcases number with ⟨n, integer⟩ | decimal
  · exact integer.head
  · obtain ⟨c, rest, chars, first⟩ := decimal.head
    exact ⟨c, rest, chars, first.imp_right Or.inr⟩

/-- So with no letter. -/
theorem not_isNumber_of_letter {c : Char} {cs : List Char} (starts : name.toList = c :: cs)
    (letter : 0x41 ≤ c.toNat) : ¬ IsNumber name := by
  intro number
  obtain ⟨d, rest, chars, first⟩ := number.head
  rw [starts] at chars
  cases chars
  rcases first with digit | rfl | rfl
  · rw [not_isDigit_of_letter letter] at digit
    cases digit
  · exact absurd letter (by decide)
  · exact absurd letter (by decide)

/-! ## Variables -/

theorem capitals_letters : ∀ run ∈ Text.capitals, 0x41 ≤ run.1 := by decide +kernel

theorem capitals_apart : ∀ run ∈ Text.capitals, run.2 < 0x5B ∨ 0xBF < run.1 := by
  decide +kernel

/-- The characters in front of `A`, and those between `Z` and the letters beyond ASCII,
the underscore excepted. -/
def isUncapital (c : Char) : Bool :=
  (c.toNat < 0x41 || 0x5B ≤ c.toNat && c.toNat ≤ 0xBF) && c ≠ '_'

theorem not_isCapital {c : Char} (uncapital : isUncapital c = true) :
    Text.isCapital c = false := by
  simp only [isUncapital, Bool.and_eq_true, Bool.or_eq_true, decide_eq_true_eq] at uncapital
  rcases uncapital.1 with below | ⟨low, high⟩
  · rw [Bool.eq_false_iff, Ne, Text.isCapital, Text.CharSet.has_iff]
    rintro ⟨run, listed, first, -⟩
    have letter := capitals_letters run listed
    omega
  · exact Text.CharSet.not_has capitals_apart low high

theorem not_isVariableName (starts : name.toList.head?.all isUncapital = true) :
    isVariableName name = false := by
  unfold isVariableName
  split
  · rename_i c cs chars
    have uncapital : isUncapital c = true := by simpa [chars] using starts
    have underscore : c ≠ '_' := by
      rintro rfl
      cases uncapital
    simp [not_isCapital uncapital, underscore]
  · rfl

/-- A capital or an underscore comes first. -/
def StartsCapital (word : String) : Prop :=
  ∃ c rest, word.toList = c :: rest ∧ (Text.isCapital c = true ∨ c = '_')

theorem isVariableName_iff : isVariableName name = true ↔ StartsCapital name := by
  unfold isVariableName StartsCapital
  cases name.toList with
  | nil => simp
  | cons c cs => simp

theorem StartsCapital.numberless (capital : StartsCapital name) : ¬ IsNumber name := by
  obtain ⟨c, rest, starts, first⟩ := capital
  refine not_isNumber_of_letter starts ?_
  rcases first with capital | rfl
  · rw [Text.isCapital, Text.CharSet.has_iff] at capital
    obtain ⟨run, listed, above, -⟩ := capital
    exact Nat.le_trans (capitals_letters run listed) above
  · decide

theorem ne_empty_of_isVariableName (capital : isVariableName name = true) : name ≠ "" := by
  rintro rfl
  cases capital

/-! ## What words stand for -/

/-- What a word stands for, by its characters and by the table. -/
inductive WordMeans (table : Table) (word : String) : Item → Prop
  | integer {n : Int64} (writes : Text.IsInteger word.toList n.toInt) :
      WordMeans table word (.operand (.int n))
  /-- A number that is no integer of 64 bits. -/
  | real {x : Binary64} (notWhole : ∀ n : Int64, ¬ Text.IsInteger word.toList n.toInt)
      (nearest : Binary64.ofNumeral? word.toList = some x) :
      WordMeans table word (.operand (.real x))
  | var (capital : StartsCapital word) : WordMeans table word (.operand (.var word))
  | operator {e : Entry} (numberless : ¬ IsNumber word) (small : ¬ StartsCapital word)
      (known : table.find? word = some e) : WordMeans table word (.operator word)
  | atom (numberless : ¬ IsNumber word) (small : ¬ StartsCapital word)
      (unknown : table.find? word = none) : WordMeans table word (.operand (.atom word))

theorem WordMeans.ofWord_eq {item : Item} (means : WordMeans table name item) :
    Item.ofWord table name = item := by
  cases means with
  | integer writes =>
      simp only [Item.ofWord, Term.number?, Text.int64?_eq_some_iff.2 writes]
  | real notWhole nearest =>
      have none : Text.int64? name.toList = none :=
        Option.eq_none_iff_forall_ne_some.2 fun n read =>
          notWhole n (Text.int64?_eq_some_iff.1 read)
      simp only [Item.ofWord, Term.number?, none, nearest, Option.map_some]
  | var capital =>
      simp only [Item.ofWord, number?_eq_none capital.numberless, isVariableName_iff.2 capital,
        if_pos]
  | operator numberless small known =>
      simp only [Item.ofWord, number?_eq_none numberless, known, Option.isSome_some, if_pos,
        if_neg (mt isVariableName_iff.1 small)]
  | atom numberless small unknown =>
      simp [Item.ofWord, number?_eq_none numberless, unknown,
        if_neg (mt isVariableName_iff.1 small)]

theorem wordMeans_number {number : Term} (written : Term.number? name = some number) :
    WordMeans table name (.operand number) := by
  unfold Term.number? at written
  cases whole : Text.int64? name.toList with
  | some n =>
      rw [whole] at written
      cases written
      exact .integer (Text.int64?_eq_some_iff.1 whole)
  | none =>
      rw [whole] at written
      obtain ⟨x, nearest, rfl⟩ := Option.map_eq_some_iff.1 written
      refine .real (fun n writes => ?_) nearest
      rw [Text.int64?_eq_some_iff.2 writes] at whole
      cases whole

/-- A word stands for a number, else for a variable, else for an operator, else for an atom. -/
theorem ofWord_eq_iff {item : Item} :
    Item.ofWord table name = item ↔ WordMeans table name item := by
  refine ⟨?_, WordMeans.ofWord_eq⟩
  rintro rfl
  unfold Item.ofWord
  cases written : Term.number? name with
  | some number => exact wordMeans_number written
  | none =>
      have numberless : ¬ IsNumber name := by
        rw [← isSome_number?_iff, written]
        simp
      simp only
      split
      · rename_i capital
        exact .var (isVariableName_iff.1 capital)
      · rename_i small
        have small := mt isVariableName_iff.2 small
        cases known : table.find? name with
        | some e => exact .operator numberless small known
        | none => exact .atom numberless small known

theorem ofWord_int (table : Table) (n : Int64) :
    Item.ofWord table (Text.signedDecimal n.toInt) = .operand (.int n) :=
  ofWord_eq_iff.2 (.integer (Text.isInteger_signedDecimal n.toInt))

theorem ofWord_var (table : Table) (capital : isVariableName name = true) :
    Item.ofWord table name = .operand (.var name) :=
  ofWord_eq_iff.2 (.var (isVariableName_iff.1 capital))

/-! ## Names -/

/-- A word that is read as a name. -/
structure IsReadable (name : String) : Prop where
  unbroken : Unbroken name
  numberless : Term.number? name = none
  noVariable : isVariableName name = false

instance (name : String) : Decidable (IsReadable name) :=
  decidable_of_iff (Unbroken name ∧ Term.number? name = none ∧ isVariableName name = false)
    ⟨fun ⟨unbroken, numberless, noVariable⟩ => ⟨unbroken, numberless, noVariable⟩,
      fun readable => ⟨readable.unbroken, readable.numberless, readable.noVariable⟩⟩

theorem IsReadable.ofWord (readable : IsReadable name) (table : Table) :
    Item.ofWord table name =
      if (table.find? name).isSome then .operator name else .operand (.atom name) := by
  simp [Item.ofWord, readable.numberless, readable.noVariable]

/-- A name that needs no quotes is readable. -/
theorem isReadable_of_isPlain (plain : Atom.isPlain name = true) : IsReadable name := by
  simp only [Atom.isPlain, Bool.or_eq_true, decide_eq_true_eq] at plain
  rcases plain with (rfl | rfl) | plain
  · decide +kernel
  · decide +kernel
  · split at plain
    · cases plain
    · rename_i c cs starts
      simp only [Bool.and_eq_true, List.all_eq_true] at plain
      obtain ⟨lower, plain⟩ := plain
      have range := toNat_of_isLower lower
      have underscore : c ≠ '_' := by
        rintro rfl
        cases lower
      have uncapital : isUncapital c = true := by
        simp only [isUncapital, Bool.and_eq_true, Bool.or_eq_true, decide_eq_true_eq]
        exact ⟨Or.inr (by omega), underscore⟩
      refine ⟨?_, number?_eq_none (not_isNumber_of_letter starts (by omega)),
        not_isVariableName ?_⟩
      · rw [Unbroken, starts]
        exact List.forall_mem_cons.2 ⟨endsWord_of_range (by omega) (by omega),
          fun c listed => endsWord_of_isPlainChar (plain c listed)⟩
      · rw [starts]
        exact uncapital

theorem ne_empty_of_isPlain (plain : Atom.isPlain name = true) : name ≠ "" := by
  rintro rfl
  cases plain

end OperatorGrammar
