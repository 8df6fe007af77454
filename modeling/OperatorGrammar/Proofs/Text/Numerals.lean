/-
# Proofs.Text.Numerals -- which texts are numbers

Each reader of numbers goes through a text from the left, and each has its own bounds.  What
they accept can be said without them: digits with an optional sign, whose value fits
(`int64?_eq_some_iff`, `word64?_eq_ok_iff`), or digits, then perhaps a point and further digits,
then perhaps an exponent (`isSome_ofNumeral?_iff`).
-/
import OperatorGrammar.Binary64.Nearest

namespace OperatorGrammar

set_option autoImplicit false

/-! ## Whole numbers -/

namespace Text

variable {cs ds : List Char} {text : String} {n m : Nat} {v : Int}

/-- The digits of the number, perhaps behind zeros. -/
structure IsNatural (cs : List Char) (n : Nat) : Prop where
  nonempty : cs ≠ []
  digits : ∀ c ∈ cs, c.isDigit = true
  value : Nat.ofDigitChars 10 cs 0 = n

/-- A natural number with an optional `+` in front. -/
inductive IsUnsigned : List Char → Nat → Prop
  | plain {ds : List Char} {n : Nat} (natural : IsNatural ds n) : IsUnsigned ds n
  | plus {ds : List Char} {n : Nat} (natural : IsNatural ds n) : IsUnsigned ('+' :: ds) n

/-- An integer with an optional sign in front. -/
inductive IsInteger : List Char → Int → Prop
  | unsigned {cs : List Char} {n : Nat} (unsigned : IsUnsigned cs n) : IsInteger cs n
  | minus {ds : List Char} {n : Nat} (natural : IsNatural ds n) : IsInteger ('-' :: ds) (-n)

theorem natural?_eq_some_iff : natural? cs = some n ↔ IsNatural cs n := by
  unfold natural?
  constructor
  · intro read
    split at read
    · cases read
    · rename_i accepted
      cases read
      simp only [Bool.or_eq_true, Bool.not_eq_true', not_or, List.isEmpty_iff,
        Bool.not_eq_false, List.all_eq_true] at accepted
      exact ⟨accepted.1, accepted.2, rfl⟩
  · rintro ⟨nonempty, digits, rfl⟩
    have all : cs.all Char.isDigit = true := List.all_eq_true.2 digits
    simp [nonempty, all]

theorem isNatural_digits (n : Nat) : IsNatural (digits n) n :=
  natural?_eq_some_iff.1 (natural?_digits n)

theorem IsNatural.head (natural : IsNatural cs n) :
    ∃ c rest, cs = c :: rest ∧ c.isDigit = true := by
  obtain ⟨c, rest, rfl⟩ := List.exists_cons_of_ne_nil natural.nonempty
  exact ⟨c, rest, rfl, natural.digits c List.mem_cons_self⟩

/-- A natural number starts with no sign. -/
theorem IsNatural.ne_sign {sign : Char} (natural : IsNatural cs n)
    (isSign : sign.isDigit = false) : cs ≠ sign :: ds := by
  rintro rfl
  rw [natural.digits sign List.mem_cons_self] at isSign
  cases isSign

theorem isUnsigned_plus_iff : IsUnsigned ('+' :: ds) n ↔ IsNatural ds n := by
  constructor
  · rintro (natural | natural)
    · exact absurd rfl (natural.ne_sign (by decide))
    · exact natural
  · exact .plus

theorem isUnsigned_plain_iff (noPlus : ∀ ds, cs ≠ '+' :: ds) :
    IsUnsigned cs n ↔ IsNatural cs n := by
  constructor
  · rintro (natural | natural)
    · exact natural
    · exact absurd rfl (noPlus _)
  · exact .plain

theorem isInteger_minus_iff : IsInteger ('-' :: ds) v ↔ ∃ n : Nat, IsNatural ds n ∧ v = -n := by
  constructor
  · rintro ((natural | natural) | natural)
    · exact absurd rfl (natural.ne_sign (by decide))
    · exact ⟨_, natural, rfl⟩
  · rintro ⟨n, natural, rfl⟩
    exact .minus natural

theorem isInteger_plus_iff : IsInteger ('+' :: ds) v ↔ ∃ n : Nat, IsNatural ds n ∧ v = n := by
  constructor
  · rintro (unsigned | natural)
    exact ⟨_, isUnsigned_plus_iff.1 unsigned, rfl⟩
  · rintro ⟨n, natural, rfl⟩
    exact .unsigned (.plus natural)

theorem isInteger_plain_iff (noMinus : ∀ ds, cs ≠ '-' :: ds) (noPlus : ∀ ds, cs ≠ '+' :: ds) :
    IsInteger cs v ↔ ∃ n : Nat, IsNatural cs n ∧ v = n := by
  constructor
  · rintro (unsigned | natural)
    · exact ⟨_, (isUnsigned_plain_iff noPlus).1 unsigned, rfl⟩
    · exact absurd rfl (noMinus _)
  · rintro ⟨n, natural, rfl⟩
    exact .unsigned (.plain natural)

/-- A digit or a sign comes first. -/
theorem IsInteger.head (integer : IsInteger cs v) :
    ∃ c rest, cs = c :: rest ∧ (c.isDigit = true ∨ c = '+' ∨ c = '-') := by
  rcases integer with (natural | natural) | natural
  · obtain ⟨c, rest, rfl, digit⟩ := natural.head
    exact ⟨c, rest, rfl, Or.inl digit⟩
  · exact ⟨'+', _, rfl, Or.inr (Or.inl rfl)⟩
  · exact ⟨'-', _, rfl, Or.inr (Or.inr rfl)⟩

theorem isInteger_signedDecimal (v : Int) : IsInteger (signedDecimal v).toList v := by
  cases v with
  | ofNat m =>
      rw [signedDecimal, decimal, String.toList_ofList]
      exact .unsigned (.plain (isNatural_digits m))
  | negSucc m =>
      have split : (signedDecimal (.negSucc m)).toList = '-' :: digits (m + 1) := by
        simp [signedDecimal, decimal]
      rw [split]
      exact .minus (isNatural_digits (m + 1))

/-! ## Numbers of 64 bits -/

/-- A reader that checks the number of the digits reads just the values of 64 bits. -/
theorem fits_iff {v : Int64} {fits : Nat → Prop} [DecidablePred fits] {value : Nat → Int}
    (range : ∀ n, fits n ↔ -9223372036854775808 ≤ value n ∧ value n < 9223372036854775808) :
    ((natural? ds).bind fun n => if fits n then some (Int64.ofInt (value n)) else none) = some v ↔
      ∃ n, IsNatural ds n ∧ v.toInt = value n := by
  constructor
  · intro read
    obtain ⟨n, natural, inside⟩ := Option.bind_eq_some_iff.1 read
    split at inside
    · rename_i holds
      obtain ⟨low, high⟩ := (range n).1 holds
      cases inside
      exact ⟨n, natural?_eq_some_iff.1 natural, Int64.toInt_ofInt_of_le low (by omega)⟩
    · cases inside
  · rintro ⟨n, natural, written⟩
    have low := v.le_toInt
    have high := v.toInt_lt
    have holds : fits n := (range n).2 (by omega)
    rw [natural?_eq_some_iff.2 natural, Option.bind_some, if_pos holds, ← written,
      Int64.ofInt_toInt]

theorem int64?_eq_some_iff {v : Int64} : int64? cs = some v ↔ IsInteger cs v.toInt := by
  have bound : Nat.pow 2 63 = 9223372036854775808 := rfl
  unfold int64?
  split
  · rw [isInteger_minus_iff]
    exact fits_iff fun n => by omega
  · rw [isInteger_plus_iff]
    exact fits_iff fun n => by omega
  · rename_i noMinus noPlus
    rw [isInteger_plain_iff noMinus noPlus]
    exact fits_iff fun n => by omega

/-- Digits never make a number smaller. -/
theorem le_ofDigitChars (cs : List Char) (n : Nat) : n ≤ Nat.ofDigitChars 10 cs n := by
  induction cs generalizing n with
  | nil => exact Nat.le_refl n
  | cons c cs ih =>
      rw [Nat.ofDigitChars_cons]
      exact Nat.le_trans (by omega) (ih _)

theorem extend64_eq_ok_iff (small : n < Nat.pow 2 64) :
    extend64 n cs = .ok m ↔
      (∀ c ∈ cs, c.isDigit = true) ∧ Nat.ofDigitChars 10 cs n = m ∧ m < Nat.pow 2 64 := by
  induction cs generalizing n with
  | nil =>
      constructor
      · rintro ⟨⟩
        exact ⟨by simp, rfl, small⟩
      · rintro ⟨-, rfl, -⟩
        rfl
  | cons c cs ih =>
      rw [extend64, Nat.ofDigitChars_cons]
      by_cases digit : c.isDigit = true
      · rw [if_pos digit]
        by_cases fits : 10 * n + (c.toNat - '0'.toNat) < Nat.pow 2 64
        · simp only [if_pos fits]
          rw [ih fits, List.forall_mem_cons, and_iff_right digit]
        · simp only [if_neg fits]
          constructor
          · rintro ⟨⟩
          · rintro ⟨-, rfl, below⟩
            exact absurd (Nat.lt_of_le_of_lt (le_ofDigitChars cs _) below) fits
      · rw [if_neg digit]
        constructor
        · rintro ⟨⟩
        · rintro ⟨digits, -⟩
          exact absurd (digits c List.mem_cons_self) digit

theorem extend64_zero_eq_ok_iff (nonempty : cs ≠ []) :
    extend64 0 cs = .ok n ↔ IsNatural cs n ∧ n < Nat.pow 2 64 := by
  rw [extend64_eq_ok_iff (by decide)]
  constructor
  · rintro ⟨digits, value, below⟩
    exact ⟨⟨nonempty, digits, value⟩, below⟩
  · rintro ⟨⟨-, digits, value⟩, below⟩
    exact ⟨digits, value, below⟩

theorem word64?_eq_ok_iff :
    word64? text = .ok n ↔ IsUnsigned text.toList n ∧ n < Nat.pow 2 64 := by
  unfold word64?
  generalize text.toList = cs
  split
  · rw [isUnsigned_plain_iff (by simp)]
    exact ⟨by simp, fun natural => absurd rfl natural.1.nonempty⟩
  · rw [isUnsigned_plus_iff]
    exact ⟨by simp, fun natural => absurd rfl natural.1.nonempty⟩
  · rename_i ds notAlone
    rw [isUnsigned_plus_iff]
    exact extend64_zero_eq_ok_iff fun none => notAlone (by rw [none])
  · rename_i nonempty _ noPlus
    rw [isUnsigned_plain_iff noPlus]
    exact extend64_zero_eq_ok_iff nonempty

end Text

/-! ## Decimal numerals -/

namespace Binary64

open Text

variable {cs ds rest : List Char}

/-- Nothing, or a point and perhaps digits. -/
inductive IsFraction : List Char → Prop
  | none : IsFraction []
  | point {ds : List Char} (digits : ∀ c ∈ ds, c.isDigit = true) : IsFraction ('.' :: ds)

/-- Nothing, or `e` or `E` and an integer. -/
inductive IsExponent : List Char → Prop
  | none : IsExponent []
  | power {mark : Char} {ds : List Char} {v : Int} (isMark : mark = 'e' ∨ mark = 'E')
      (integer : IsInteger ds v) : IsExponent (mark :: ds)

/-- Digits, a fraction and an exponent. -/
def IsMagnitude (cs : List Char) : Prop :=
  ∃ n whole fraction exponent, cs = whole ++ (fraction ++ exponent) ∧ IsNatural whole n ∧
    IsFraction fraction ∧ IsExponent exponent

/-- A magnitude with an optional minus sign in front. -/
inductive IsDecimal : List Char → Prop
  | positive {cs : List Char} (magnitude : IsMagnitude cs) : IsDecimal cs
  | negative {cs : List Char} (magnitude : IsMagnitude cs) : IsDecimal ('-' :: cs)

theorem isSome_natural?_iff : (natural? cs).isSome = true ↔ ∃ n, IsNatural cs n := by
  simp only [Option.isSome_iff_exists, natural?_eq_some_iff]

theorem isExponent_cons_iff {mark : Char} :
    IsExponent (mark :: ds) ↔ (mark = 'e' ∨ mark = 'E') ∧ ∃ v, IsInteger ds v := by
  constructor
  · rintro (_ | ⟨isMark, integer⟩)
    exact ⟨isMark, _, integer⟩
  · rintro ⟨isMark, v, integer⟩
    exact .power isMark integer

theorem exists_iff_exists_value {writes : Nat → Prop} (value : Nat → Int) :
    (∃ n, writes n) ↔ ∃ v n, writes n ∧ v = value n :=
  ⟨fun ⟨n, written⟩ => ⟨_, n, written, rfl⟩, fun ⟨_, n, written, _⟩ => ⟨n, written⟩⟩

theorem isSome_exponentPart?_iff : (exponentPart? rest).isSome = true ↔ IsExponent rest := by
  cases rest with
  | nil => exact ⟨fun _ => .none, fun _ => rfl⟩
  | cons mark ds =>
      rw [isExponent_cons_iff]
      unfold exponentPart?
      simp only [Bool.or_eq_true, decide_eq_true_eq]
      by_cases isMark : mark = 'e' ∨ mark = 'E'
      · rw [if_pos isMark, and_iff_right isMark]
        split
        · simp only [Option.isSome_map, isSome_natural?_iff, isInteger_minus_iff]
          exact exists_iff_exists_value fun n => -n
        · simp only [Option.isSome_map, isSome_natural?_iff, isInteger_plus_iff]
          exact exists_iff_exists_value fun n => n
        · rename_i noMinus noPlus
          simp only [Option.isSome_map, isSome_natural?_iff, isInteger_plain_iff noMinus noPlus]
          exact exists_iff_exists_value fun n => n
      · rw [if_neg isMark]
        simp [isMark]

/-- No exponent starts with a digit or a point. -/
theorem IsExponent.head (exponent : IsExponent cs) :
    ∀ c ∈ cs.head?, c.isDigit = false ∧ c ≠ '.' := by
  rintro c first
  cases exponent with
  | none => cases first
  | power isMark integer =>
      cases first
      rcases isMark with rfl | rfl <;> decide

theorem dropWhile_of_head (stops : ∀ c ∈ cs.head?, c.isDigit = false) :
    cs.dropWhile Char.isDigit = cs := by
  cases cs with
  | nil => rfl
  | cons c cs => rw [List.dropWhile_cons, if_neg (by simp [stops c rfl])]

theorem fractionPart_of_isExponent (exponent : IsExponent rest) :
    fractionPart rest = ([], rest) := by
  unfold fractionPart
  split
  · exact absurd rfl (exponent.head _ rfl).2
  · rfl

theorem exists_fraction (cs : List Char) :
    ∃ fraction, IsFraction fraction ∧ cs = fraction ++ (fractionPart cs).2 := by
  unfold fractionPart
  split
  · rename_i ds
    refine ⟨'.' :: ds.takeWhile Char.isDigit, .point (List.all_eq_true.1 List.all_takeWhile), ?_⟩
    rw [List.cons_append, List.takeWhile_append_dropWhile]
  · exact ⟨[], .none, rfl⟩

theorem fractionPart_append {fraction exponent : List Char} (isFraction : IsFraction fraction)
    (isExponent : IsExponent exponent) : (fractionPart (fraction ++ exponent)).2 = exponent := by
  have stops := dropWhile_of_head fun c first => (isExponent.head c first).1
  cases isFraction with
  | none => rw [List.nil_append, fractionPart_of_isExponent isExponent]
  | point digits =>
      rw [List.cons_append, fractionPart, List.dropWhile_append_of_pos digits]
      exact stops

theorem IsFraction.head_append {fraction exponent : List Char} (isFraction : IsFraction fraction)
    (isExponent : IsExponent exponent) :
    ∀ c ∈ (fraction ++ exponent).head?, c.isDigit = false := by
  intro c first
  cases isFraction with
  | none => exact (isExponent.head c first).1
  | point digits =>
      cases first
      rfl

/-- A digit comes first. -/
theorem IsMagnitude.head (magnitude : IsMagnitude cs) :
    ∃ c rest, cs = c :: rest ∧ c.isDigit = true := by
  obtain ⟨n, whole, fraction, exponent, rfl, natural, -⟩ := magnitude
  obtain ⟨c, rest, rfl, digit⟩ := natural.head
  exact ⟨c, _, rfl, digit⟩

theorem IsMagnitude.ne_minus (magnitude : IsMagnitude cs) : cs ≠ '-' :: ds := by
  rintro rfl
  obtain ⟨c, rest, same, digit⟩ := magnitude.head
  cases same
  cases digit

theorem isSome_unsigned?_iff : (unsigned? cs).isSome = true ↔ IsMagnitude cs := by
  unfold unsigned?
  constructor
  · intro read
    obtain ⟨fraction, isFraction, rest_eq⟩ := exists_fraction (cs.dropWhile Char.isDigit)
    simp only at read
    split at read
    · cases read
    · rename_i nonempty
      rw [Option.isSome_map, isSome_exponentPart?_iff] at read
      refine ⟨_, cs.takeWhile Char.isDigit, fraction, _, ?_, ⟨?_, ?_, rfl⟩, isFraction, read⟩
      · rw [← rest_eq, List.takeWhile_append_dropWhile]
      · exact fun none => nonempty (List.isEmpty_iff.2 none)
      · exact List.all_eq_true.1 List.all_takeWhile
  · rintro ⟨n, whole, fraction, exponent, rfl, natural, isFraction, isExponent⟩
    have rest_eq := dropWhile_of_head (isFraction.head_append isExponent)
    have nonempty : (whole ++ (fraction ++ exponent)).takeWhile Char.isDigit ≠ [] := by
      rw [List.takeWhile_append_of_pos natural.digits]
      exact List.append_ne_nil_of_left_ne_nil natural.nonempty _
    simp only [List.dropWhile_append_of_pos natural.digits, rest_eq]
    rw [if_neg (mt List.isEmpty_iff.1 nonempty), Option.isSome_map,
      fractionPart_append isFraction isExponent, isSome_exponentPart?_iff]
    exact isExponent

/-- A digit or a minus sign comes first. -/
theorem IsDecimal.head (decimal : IsDecimal cs) :
    ∃ c rest, cs = c :: rest ∧ (c.isDigit = true ∨ c = '-') := by
  rcases decimal with magnitude | magnitude
  · obtain ⟨c, rest, rfl, digit⟩ := magnitude.head
    exact ⟨c, rest, rfl, Or.inl digit⟩
  · exact ⟨'-', _, rfl, Or.inr rfl⟩

theorem isSome_ofNumeral?_iff : (ofNumeral? cs).isSome = true ↔ IsDecimal cs := by
  unfold ofNumeral?
  split
  · rename_i ds
    rw [Option.isSome_map, isSome_unsigned?_iff]
    constructor
    · exact .negative
    · rintro (magnitude | magnitude)
      · exact absurd rfl magnitude.ne_minus
      · exact magnitude
  · rename_i noMinus
    rw [Option.isSome_map, isSome_unsigned?_iff]
    constructor
    · exact .positive
    · rintro (magnitude | magnitude)
      · exact magnitude
      · exact absurd rfl (noMinus _)

end Binary64

end OperatorGrammar
