/-
Finite floating-point numbers as exact quantities.

A finite number is a whole number of units, each unit a power of two. `Quantity` keeps sign, units and exponent, so
that rounding to decimals is exact arithmetic.
-/
namespace UrlRouter.Decimal

/-- `units` times two to the power `exponent`, negative or not -/
structure Quantity where
  negative : Bool
  units : Nat
  exponent : Int
  /-- whether the next smaller number is only half a unit away -/
  tightBelow : Bool
  deriving DecidableEq, Repr

inductive Reading where
  | finite (quantity : Quantity)
  | infinite (negative : Bool)
  | notANumber
  deriving DecidableEq, Repr

/-- the leading bit of a number, which is not stored: two to the power 52 -/
def leadingBit : Nat := 0x10000000000000

/-- the parts of a double-precision number, from its bits: a sign, eleven bits of exponent and the fraction -/
def Reading.ofBits (bits : UInt64) : Reading :=
  let n : Nat := bits.toNat
  let negative := n / leadingBit / 2048 = 1
  let biased : Nat := n / leadingBit % 2048
  let fraction : Nat := n % leadingBit
  if biased = 2047 then if fraction = 0 then .infinite negative else .notANumber
  else if biased = 0 then .finite ⟨negative, fraction, -1074, false⟩
  else .finite ⟨negative, leadingBit + fraction, (biased : Int) - 1075, fraction = 0 && 1 < biased⟩

def Reading.ofFloat (x : Float) : Reading := .ofBits x.toBits

/-- two fractions compared: `a / b ≤ c / d` -/
def ratioLe (a b c d : Nat) : Bool := a * d ≤ c * b

/-- `n` times `base` to the power `e`, as a fraction -/
def scaled (n base : Nat) (e : Int) : Nat × Nat :=
  if 0 ≤ e then (n * Nat.pow base e.toNat, 1) else (n, Nat.pow base (-e).toNat)

/-- the quantity `units / parts` times two to the power `exponent`, as a fraction -/
def binaryRatio (units parts : Nat) (exponent : Int) : Nat × Nat :=
  let (n, d) := scaled units 2 exponent
  (n, d * parts)

end UrlRouter.Decimal
