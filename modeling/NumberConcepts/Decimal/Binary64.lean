/-!
# Exact values of doubles

A finite double is a natural significand times a power of two. This module
reads that exact value off the bits, compares it with decimals, and rounds
exact quotients, so that decimal text never depends on floating-point
arithmetic.
-/

namespace NumberConcepts.Decimal

/-- The absolute value `significand * 2 ^ exponent` of a finite double. -/
structure Binary64 where
  significand : Nat
  exponent : Int
  /-- The next smaller double is half as far away as the next greater one. -/
  narrowBelow : Bool

/-- The exact absolute value of a finite double. -/
def Binary64.ofFloat (x : Float) : Binary64 :=
  let bits : Nat := x.toBits.toNat
  let biased : Nat := bits / Nat.pow 2 52 % Nat.pow 2 11
  let fraction : Nat := bits % Nat.pow 2 52
  if biased = 0 then
    { significand := fraction, exponent := -1074, narrowBelow := false }
  else
    { significand := Nat.pow 2 52 + fraction
      exponent := biased - 1075
      narrowBelow := fraction == 0 && biased != 1 }

/-- The sign bit of a double is set. -/
def isNegative (x : Float) : Bool := x.toBits.toNat / Nat.pow 2 63 == 1

/-- The quotient of two naturals rounded to the nearest natural, a half to the even neighbour. -/
def roundDiv (numerator denominator : Nat) : Nat :=
  let quotient := numerator / denominator
  let twice := 2 * (numerator % denominator)
  if twice < denominator then quotient
  else if denominator < twice then quotient + 1
  else quotient + quotient % 2

namespace Binary64

/-- The natural number that the value is, if it has no fraction. -/
def whole? (x : Binary64) : Option Nat :=
  let unit := Nat.pow 2 (-x.exponent).toNat
  if x.significand % unit = 0 then some (x.significand / unit * Nat.pow 2 x.exponent.toNat)
  else none

/-- The value times `10 ^ power` as an exact quotient of naturals. -/
def scaled (x : Binary64) (power : Int) : Nat × Nat :=
  (x.significand * Nat.pow 2 x.exponent.toNat * Nat.pow 10 power.toNat,
    Nat.pow 2 (-x.exponent).toNat * Nat.pow 10 (-power).toNat)

/-- The value times `10 ^ power`, rounded to the nearest natural, a half to the even neighbour. -/
def roundScaled (x : Binary64) (power : Int) : Nat :=
  let (numerator, denominator) := x.scaled power
  roundDiv numerator denominator

/-- The value is less than `10 ^ power`. -/
def ltPowerOfTen (x : Binary64) (power : Int) : Bool :=
  let (numerator, denominator) := x.scaled (-power)
  decide (numerator < denominator)

/-- Raises `power`, at most `steps` times, until the value is less than `10 ^ power`. -/
def raiseScale (x : Binary64) : Nat → Int → Int
  | 0, power => power
  | steps + 1, power => if x.ltPowerOfTen power then power else raiseScale x steps (power + 1)

/-- The least power of ten above a positive value. The binary logarithm gives a power of ten that
is at most two below the least one above the value. -/
def scale (x : Binary64) : Int :=
  let binary := (x.significand.log2 : Int) + x.exponent
  x.raiseScale 4 (binary * 30103 / 100000 - 1)

end Binary64

/-- The integer that a double is, if it is finite and has no fraction. -/
def integer? (x : Float) : Option Int :=
  if x.isFinite then
    (Binary64.ofFloat x).whole?.map fun n => if isNegative x then -(n : Int) else (n : Int)
  else
    none

end NumberConcepts.Decimal
