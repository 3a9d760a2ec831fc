/-
Decimals with an exponent.

A quantity is written with one digit before the point, so many behind it, and a power of ten. It is rounded to the
nearest such decimal, a half to the even neighbour.
-/
import UrlRouter.Decimal.Fixed

namespace UrlRouter.Decimal

/-- The power of ten just below a positive fraction, or at it. -/
def decadeOf (n d : Nat) : Int :=
  if d ≤ n then ((toString (n / d)).length : Int) - 1 else -((toString ((d - 1) / n)).length : Int)

/-- A fraction rounded to `places + 1` digits, as a whole number, and the power of ten of its first digit. -/
def roundedDigits (places : Nat) (n d : Nat) : Nat × Int :=
  if n = 0 then (0, 0)
  else
    let decade := decadeOf n d
    let shift := (places : Int) - decade
    let (a, b) := scaled 1 10 shift
    let rounded := roundedQuotient (n * a) (d * b)
    if rounded = Nat.pow 10 (places + 1) then (Nat.pow 10 places, decade + 1) else (rounded, decade)

/-- The point that ends a number without a fraction, if it is wanted. -/
def withPoint (wanted : Bool) (text : String) : String := if wanted && !text.contains '.' then text ++ "." else text

def trimFraction (text : String) : String :=
  if text.contains '.' then
    String.ofList ((text.toList.reverse.dropWhile (· = '0')).dropWhile (· = '.')).reverse
  else text

/-- `keepPoint` writes a point even without a fraction. -/
def scientificText (keepPoint : Bool) (places : Nat) (n d : Nat) : String :=
  let (digits, e) := roundedDigits places n d
  withPoint keepPoint (fixedText places digits) ++ "e" ++ exponentText e

/-- The shorter of the plain and the scientific form with so many digits; without `keepZeros` a fraction ends in none. -/
def generalText (keepZeros : Bool) (precision : Nat) (n d : Nat) : String :=
  let places := max precision 1 - 1
  let (digits, e) := roundedDigits places n d
  let finish (text : String) : String := if keepZeros then withPoint true text else trimFraction text
  if -4 ≤ e && e ≤ (places : Int) then
    let behind := ((places : Int) - e).toNat
    finish (fixedFraction behind n d)
  else finish (fixedText places digits) ++ "e" ++ exponentText e

end UrlRouter.Decimal
