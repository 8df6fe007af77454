/-
# Binary64.Shortest -- the fewest decimal places that read back

The real numbers that round to a finite number `x` form an interval around it.
With the magnitude counted in quarters of the significand's unit, the interval
reaches two quarters up and two down, but only one down from the least
significand of its scale, where the numbers below lie twice as close.  The ends
belong to the interval when the significand is even.

`places` is the least number of decimal places for which some decimal with that
many places lies in the interval, and `shortest` the decimal closest to `x` among
those; of two equally close ones it is the larger.
-/
import OperatorGrammar.Binary64.Basic

namespace OperatorGrammar.Binary64

set_option autoImplicit false

/-- An interval of non-negative reals in units of `1 / unit`. -/
structure Interval where
  low : Nat
  high : Nat
  closed : Bool
  unit : Nat

/-- Whether `n / 10^places` lies in the interval. -/
def Interval.holds (i : Interval) (places n : Nat) : Bool :=
  let value := n * i.unit
  let low := i.low * Nat.pow 10 places
  let high := i.high * Nat.pow 10 places
  if i.closed then low ≤ value && value ≤ high else low < value && value < high

/-- The magnitudes that round to a finite number. -/
def interval (x : Binary64) : Interval :=
  let step := Nat.pow 2 x.scale
  let centre := 4 * x.magnitude
  let below := if x.significand = Nat.pow 2 52 && 0 < x.scale then step else 2 * step
  { low := centre - below, high := centre + 2 * step
    closed := x.significand % 2 = 0, unit := 4 * denominator }

/-- The decimal with the given number of places that is closest to the magnitude
and rounds to the number, if there is one. -/
def candidate? (x : Binary64) (places : Nat) : Option Nat :=
  let scaled := x.magnitude * Nat.pow 10 places
  let below := scaled / denominator
  let above := if scaled % denominator = 0 then below else below + 1
  let nearer := if 2 * (scaled % denominator) < denominator then below else above
  let farther := if nearer = below then above else below
  if x.interval.holds places nearer then some nearer
  else if x.interval.holds places farther then some farther
  else none

/-- The first decimal found from `places` on, within `fuel` further places. -/
def search (x : Binary64) : Nat → Nat → Nat × Nat
  | 0, places => (places, x.magnitude * Nat.pow 10 places / denominator)
  | fuel + 1, places =>
      match x.candidate? places with
      | some n => (places, n)
      | none => search x fuel (places + 1)

/-- The least number of places, and the decimal counted in its last place.  With
1074 places every finite number is a decimal itself. -/
def shortest (x : Binary64) : Nat × Nat := search x 1074 0

end OperatorGrammar.Binary64
