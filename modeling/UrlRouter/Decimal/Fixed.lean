/-
Decimals with a fixed number of places.

The exact quantity is rounded to the nearest decimal, a half to the even neighbour.
-/
import UrlRouter.Decimal.Shortest

namespace UrlRouter.Decimal

/-- a quotient rounded to the nearest whole number, a half to the even one -/
def roundedQuotient (n d : Nat) : Nat :=
  let low := n / d
  let rest := n % d
  if d < 2 * rest || (2 * rest = d && low % 2 = 1) then low + 1 else low

/-- a whole number of units of ten to the power `-places`, with a point -/
def fixedText (places : Nat) (n : Nat) : String :=
  let digits := toString n
  let padded := zeros (places + 1 - digits.length) ++ digits
  let chars := padded.toList
  if places = 0 then padded
  else String.ofList (chars.take (chars.length - places)) ++ "." ++
    String.ofList (chars.drop (chars.length - places))

/-- A fraction with a fixed number of places. -/
def fixedFraction (places : Nat) (n d : Nat) : String :=
  fixedText places (roundedQuotient (n * Nat.pow 10 places) d)

def floatFixed (places : Nat) (x : Float) : String :=
  match Reading.ofFloat x with
  | .notANumber => "nan"
  | .infinite negative => if negative then "-inf" else "inf"
  | .finite q =>
    let (n, d) := binaryRatio q.units 1 q.exponent
    (if q.negative then "-" else "") ++ fixedFraction places n d

end UrlRouter.Decimal
