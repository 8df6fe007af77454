/-
# Binary64.Text -- the decimal text of a number

A finite number without fractional part is written as that integer, in full, with
`.0` behind it.  Any other finite number has the fewest decimal places that read
back, always in positional notation.  Negative numbers, the negative zero among
them, start with `-`.
-/
import OperatorGrammar.Binary64.Shortest
import OperatorGrammar.Text.Numeral

namespace OperatorGrammar.Binary64

set_option autoImplicit false

/-- The text of `n / 10^places` with all its places. -/
def positional (places n : Nat) : String :=
  let fraction := Text.digits (n % Nat.pow 10 places)
  Text.decimal (n / Nat.pow 10 places) ++ "." ++
    String.ofList (List.replicate (places - fraction.length) '0' ++ fraction)

/-- The text of a finite number's magnitude. -/
def magnitudeText (x : Binary64) : String :=
  if x.isIntegral then Text.decimal (x.magnitude / denominator) ++ ".0"
  else positional x.shortest.1 x.shortest.2

def text (x : Binary64) : String :=
  if x.isNaN then "NaN"
  else
    let sign := if x.negative then "-" else ""
    sign ++ (if x.isInfinite then "inf" else x.magnitudeText)

end OperatorGrammar.Binary64
