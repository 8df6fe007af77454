/-
# Binary64.Nearest -- the number nearest to a fraction

`nearest` takes the exact value `num / den` to the closest binary64 number; of two
that are equally close it takes the one with an even significand, and what lies
half a unit or more beyond the largest number goes to infinity.  The pattern of a
non-negative number grows with its value, so a significand that rounds up to
2^53 carries into the exponent by itself.

`ofDecimal` reads `digits · 10^exponent` that way.  Far outside the range the
answer does not need the power: it is infinity or zero.
-/
import OperatorGrammar.Binary64.Basic
import OperatorGrammar.Text.Numeral

namespace OperatorGrammar.Binary64

set_option autoImplicit false

/-- The natural number closest to `num / den`, of two the even one. -/
def roundHalfEven (num den : Nat) : Nat :=
  let below := num / den
  let twice := 2 * (num % den)
  if twice < den then below
  else if den < twice then below + 1
  else if below % 2 = 0 then below else below + 1

/-- The pattern of the non-negative number closest to `num / den`. -/
def nearest (num den : Nat) : Nat :=
  let units := num * denominator
  let whole := units / den
  let scale := if whole < Nat.pow 2 53 then 0 else whole.log2 - 52
  min (scale * Nat.pow 2 52 + roundHalfEven units (den * Nat.pow 2 scale)) infinityPattern

/-- The pattern of the number closest to `digits · 10^exponent`, where `digits`
has at most `count` decimal digits. -/
def ofDecimal (digits count : Nat) (exponent : Int) : Nat :=
  if digits = 0 then 0
  else if 400 < exponent then infinityPattern
  else if exponent < -(count + 400 : Int) then 0
  else if 0 ≤ exponent then nearest (digits * Nat.pow 10 exponent.toNat) 1
  else nearest digits (Nat.pow 10 (-exponent).toNat)

/-! ## Decimal numerals with a point and an exponent -/

/-- The value of an exponent's digits.  Beyond five digits an exponent no longer
grows: no numeral of reasonable length tells it from a larger one. -/
def exponentValue (cs : List Char) : Nat :=
  cs.foldl (fun e c => if e < 0x10000 then 10 * e + (c.toNat - '0'.toNat) else e) 0

/-- The exponent that follows the digits of a numeral: nothing, or `e` or `E`, an
optional sign, and digits. -/
def exponentPart? : List Char → Option Int
  | [] => some 0
  | mark :: rest =>
      if mark = 'e' || mark = 'E' then
        match rest with
        | '-' :: ds => (Text.natural? ds).map fun _ => -(exponentValue ds : Int)
        | '+' :: ds => (Text.natural? ds).map fun _ => (exponentValue ds : Int)
        | ds => (Text.natural? ds).map fun _ => (exponentValue ds : Int)
      else none

/-- The digits behind a point, if there is one, and what follows them. -/
def fractionPart : List Char → List Char × List Char
  | '.' :: cs => (cs.takeWhile Char.isDigit, cs.dropWhile Char.isDigit)
  | cs => ([], cs)

/-- The magnitude pattern of a numeral without sign: digits, then perhaps a point
and further digits, then perhaps an exponent. -/
def unsigned? (cs : List Char) : Option Nat :=
  let whole := cs.takeWhile Char.isDigit
  let (fraction, rest) := fractionPart (cs.dropWhile Char.isDigit)
  if whole.isEmpty then none
  else (exponentPart? rest).map fun exponent =>
    let digits := whole ++ fraction
    ofDecimal (Nat.ofDigitChars 10 digits 0) digits.length (exponent - fraction.length)

/-- The number that a numeral with an optional minus sign writes. -/
def ofNumeral? : List Char → Option Binary64
  | '-' :: cs => (unsigned? cs).map (withSign true)
  | cs => (unsigned? cs).map (withSign false)

end OperatorGrammar.Binary64
