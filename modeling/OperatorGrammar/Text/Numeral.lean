/-
# Text.Numeral -- decimal numerals

A natural number is written with the ten ASCII digits, most significant first.
Two readers share that rule:

* `word64?` reads a number below 2^64 with an optional `+` in front and says what
  is wrong with any other text, at the first place where it goes wrong;
* `int64?` reads a number of 64 bits with an optional sign.
-/

namespace OperatorGrammar.Text

set_option autoImplicit false

/-- What keeps a text from being a number below 2^64. -/
inductive NumeralError where
  | empty
  | invalidDigit
  | tooLarge
deriving DecidableEq

def NumeralError.message : NumeralError → String
  | .empty => "cannot parse integer from empty string"
  | .invalidDigit => "invalid digit found in string"
  | .tooLarge => "number too large to fit in target type"

/-- The digits of a natural number, most significant first. -/
def digits (n : Nat) : List Char := Nat.toDigits 10 n

/-- The decimal text of a natural number. -/
def decimal (n : Nat) : String := String.ofList (digits n)

/-- The decimal text of an integer; a negative one starts with `-`. -/
def signedDecimal : Int → String
  | .ofNat n => decimal n
  | .negSucc n => "-" ++ decimal (n + 1)

/-- The number that a non-empty list of digits writes. -/
def natural? (cs : List Char) : Option Nat :=
  if cs.isEmpty || !cs.all Char.isDigit then none else some (Nat.ofDigitChars 10 cs 0)

theorem isDigit_of_mem_digits {n : Nat} {c : Char} (mem : c ∈ digits n) : c.isDigit = true :=
  Nat.isDigit_of_mem_toDigits (by decide) (by decide) mem

theorem natural?_digits (n : Nat) : natural? (digits n) = some n := by
  have read : Nat.ofDigitChars 10 (digits n) 0 = n := by simp [digits]
  have some_digit : digits n ≠ [] := by simp [digits]
  simp only [natural?, read]
  simpa [some_digit] using fun c mem => isDigit_of_mem_digits mem

/-- Reads on after the number `n`, staying below 2^64. -/
def extend64 (n : Nat) : List Char → Except NumeralError Nat
  | [] => .ok n
  | c :: cs =>
      if c.isDigit then
        let next := 10 * n + (c.toNat - '0'.toNat)
        if next < Nat.pow 2 64 then extend64 next cs else .error .tooLarge
      else .error .invalidDigit

/-- The number below 2^64 that a text writes, with an optional `+` in front. -/
def word64? (text : String) : Except NumeralError Nat :=
  match text.toList with
  | [] => .error .empty
  | ['+'] => .error .invalidDigit
  | '+' :: cs => extend64 0 cs
  | cs => extend64 0 cs

/-- The 64-bit integer that a text writes, with an optional sign in front. -/
def int64? (cs : List Char) : Option Int64 :=
  match cs with
  | '-' :: ds => (natural? ds).bind fun n => if n ≤ Nat.pow 2 63 then some (.ofInt (-n)) else none
  | '+' :: ds => (natural? ds).bind fun n => if n < Nat.pow 2 63 then some (.ofInt n) else none
  | ds => (natural? ds).bind fun n => if n < Nat.pow 2 63 then some (.ofInt n) else none

end OperatorGrammar.Text
