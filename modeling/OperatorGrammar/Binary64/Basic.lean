/-
# Binary64.Basic -- real numbers of 64 bits

A `Binary64` is the bit pattern of an IEEE 754 binary64 number: one sign bit,
eleven exponent bits and fifty-two fraction bits.  All ones in the exponent mark
the infinities (fraction zero) and the values that are no number.  Every other
pattern stands for `significand · 2^scale / 2^1074`, negated if the sign is set;
both factors are natural numbers, so no rounding happens anywhere.

Keeping the pattern, and not the number, keeps the two zeros and the payloads
apart.  `same` is the comparison of the values: it identifies the zeros and
separates a non-number from everything, itself included.  Powers are written as
`Nat.pow`, which means the same whatever else a file imports.
-/

namespace OperatorGrammar

set_option autoImplicit false

structure Binary64 where
  bits : UInt64
deriving DecidableEq

namespace Binary64

/-- The exponent bits of infinities and non-numbers. -/
def specialExponent : Nat := 2047

def negative (x : Binary64) : Bool := Nat.pow 2 63 ≤ x.bits.toNat

def exponent (x : Binary64) : Nat := x.bits.toNat / Nat.pow 2 52 % Nat.pow 2 11

def fraction (x : Binary64) : Nat := x.bits.toNat % Nat.pow 2 52

def isNaN (x : Binary64) : Bool := x.exponent = specialExponent && x.fraction != 0

def isInfinite (x : Binary64) : Bool := x.exponent = specialExponent && x.fraction = 0

/-- The significand, with the leading bit that normal numbers leave out. -/
def significand (x : Binary64) : Nat :=
  if x.exponent = 0 then x.fraction else Nat.pow 2 52 + x.fraction

/-- The power of two of the significand's unit, above that of the least number. -/
def scale (x : Binary64) : Nat := x.exponent - 1

/-- The denominator that all magnitudes share. -/
def denominator : Nat := Nat.pow 2 1074

/-- The magnitude of a finite number in units of `1 / denominator`. -/
def magnitude (x : Binary64) : Nat := x.significand * Nat.pow 2 x.scale

/-- Whether a finite number has no fractional part. -/
def isIntegral (x : Binary64) : Bool := x.magnitude % denominator = 0

/-- Equality of values: the zeros are equal, and a non-number equals nothing. -/
def same (x y : Binary64) : Bool :=
  !x.isNaN && !y.isNaN &&
    (x.bits = y.bits || (x.bits ||| y.bits) <<< 1 = 0)

/-- The number with the given sign whose other bits are `pattern`. -/
def withSign (negative : Bool) (pattern : Nat) : Binary64 :=
  ⟨.ofNat (if negative then Nat.pow 2 63 + pattern else pattern)⟩

/-- The pattern of positive infinity. -/
def infinityPattern : Nat := specialExponent * Nat.pow 2 52

end Binary64

end OperatorGrammar
