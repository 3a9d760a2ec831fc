/-
The shortest decimal that reads back.

For a positive quantity the numbers of one digit are tried, then those of two, and so on up to seventeen: on each grid
only the two neighbours of the quantity matter. The first that rounds back to the quantity is taken, the nearer of two.
-/
import UrlRouter.Decimal.Binary

namespace UrlRouter.Decimal

/-- `digits` times ten to the power `exponent` -/
structure Digits where
  digits : Nat
  exponent : Int
  deriving DecidableEq, Repr

namespace Digits

def count (d : Digits) : Nat := (Nat.toDigits 10 d.digits).length

/-- where the decimal point stands, counted from the first digit -/
def point (d : Digits) : Int := d.count + d.exponent

/-- the digits as a fraction -/
def ratio (d : Digits) : Nat × Nat := scaled d.digits 10 d.exponent

/-- The same number without zeros at the end. -/
def stripped (d : Digits) : Nat → Digits
  | 0 => d
  | limit + 1 => if d.digits % 10 = 0 && d.digits ≠ 0 then stripped ⟨d.digits / 10, d.exponent + 1⟩ limit else d

end Digits

/-- Whether a decimal rounds to the quantity; the ends of the interval do so for an even number of units. -/
def readsBack (q : Quantity) (d : Digits) : Bool :=
  let (n, m) := d.ratio
  let (lowN, lowD) := binaryRatio (4 * q.units - if q.tightBelow then 1 else 2) 4 q.exponent
  let (highN, highD) := binaryRatio (4 * q.units + 2) 4 q.exponent
  if q.units % 2 = 0 then ratioLe lowN lowD n m && ratioLe n m highN highD
  else !ratioLe n m lowN lowD && !ratioLe highN highD n m

/-- The greatest power of ten that is not above the quantity, found from below. -/
def leadingPower (n d : Nat) (power : Int) : Nat → Int
  | 0 => power
  | limit + 1 =>
    let (a, b) := scaled 1 10 (power + 1)
    if ratioLe a b n d then leadingPower n d (power + 1) limit else power

/-- an estimate of the leading power that is never too great and at most three too small -/
def leadingEstimate (q : Quantity) : Int :=
  (((q.units.log2 : Int) + q.exponent) * 30103 - 30103) / 100000 - 1

/-- the quantity on the grid of ten to the power `exponent`: the decimal below, and whether the one above is nearer -/
def gridFloor (q : Quantity) (exponent : Int) : Nat × Bool :=
  let (n, d) := binaryRatio q.units 1 q.exponent
  let (a, b) := scaled 1 10 exponent
  let low := n * b / (d * a)
  let rest := n * b % (d * a)
  (low, d * a < 2 * rest || (2 * rest = d * a && low % 2 = 1))

/-- the decimal of the grid that reads back, if there is one -/
def onGrid? (q : Quantity) (exponent : Int) : Option Digits :=
  let (low, upNearer) := gridFloor q exponent
  let below : Digits := ⟨low, exponent⟩
  let above : Digits := ⟨low + 1, exponent⟩
  let belowReads := low ≠ 0 && readsBack q below
  let aboveReads := readsBack q above
  if belowReads && aboveReads then some (if upNearer then above else below)
  else if belowReads then some below
  else if aboveReads then some above
  else none

/-- tries grids of `count`, `count + 1`, … digits -/
def shortestFrom (q : Quantity) (power : Int) (count : Nat) : Nat → Digits
  | 0 => ⟨(gridFloor q (power - 16)).1, power - 16⟩
  | limit + 1 =>
    match onGrid? q (power - count + 1) with
    | some d => d.stripped d.count
    | none => shortestFrom q power (count + 1) limit

/-- the fewest digits that read back as the positive quantity -/
def shortest (q : Quantity) : Digits :=
  let (n, d) := binaryRatio q.units 1 q.exponent
  shortestFrom q (leadingPower n d (leadingEstimate q) 8) 1 17

/-- How the text of a number looks: below `positionalEnd` digits before the point, and from `positionalStart` on,
it is written with a point, elsewhere with an exponent. -/
structure Style where
  positionalStart : Int
  positionalEnd : Int

def zeros (n : Nat) : String := String.ofList (List.replicate n '0')

def exponentText (e : Int) : String :=
  let digits := toString e.natAbs
  (if e < 0 then "-" else "+") ++ zeros (2 - digits.length) ++ digits

def Digits.text (style : Style) (d : Digits) : String :=
  let digits := toString d.digits
  let point := d.point
  if style.positionalStart ≤ point && point ≤ style.positionalEnd then
    if point ≤ 0 then "0." ++ zeros (-point).toNat ++ digits
    else if d.count ≤ point.toNat then digits ++ zeros (point.toNat - d.count) ++ ".0"
    else String.ofList (digits.toList.take point.toNat) ++ "." ++ String.ofList (digits.toList.drop point.toNat)
  else
    let mantissa :=
      match digits.toList with
      | [] => ""
      | [c] => String.ofList [c]
      | c :: rest => String.ofList (c :: '.' :: rest)
    mantissa ++ "e" ++ exponentText (point - 1)

/-- Numbers have a point from 0.0001 up to below ten to the sixteenth. -/
def plainStyle : Style := ⟨-3, 16⟩

/-- the text of any floating-point number -/
def floatText (x : Float) : String :=
  match Reading.ofFloat x with
  | .notANumber => "nan"
  | .infinite negative => if negative then "-inf" else "inf"
  | .finite q =>
    (if q.negative then "-" else "") ++
      if q.units = 0 then "0.0" else (shortest q).text plainStyle

end UrlRouter.Decimal
