import NumberConcepts.Decimal.Places
/-!
# The shortest decimal that identifies a double

Every real near a double rounds to it. Among the decimals with the fewest
digits that do, `shortest` writes the nearest one: positionally when its leading
digit has an exponent from -4 to 15, else with an exponent.
-/

namespace NumberConcepts.Decimal

/-- The decimal `digits * 10 ^ power`. -/
structure Numeral where
  digits : Nat
  power : Int

namespace Binary64

/-- The decimal `digits * 10 ^ power` lies among the reals that round to the value: between the
midpoints to its neighbours, which count when the significand is even. -/
def roundsFrom (x : Binary64) (digits : Nat) (power : Int) : Bool :=
  let quarter := { x with exponent := x.exponent - 2 }
  let low := if x.narrowBelow then 4 * x.significand - 1 else 4 * x.significand - 2
  let (lowNumerator, lowDenominator) := { quarter with significand := low }.scaled (-power)
  let (highNumerator, highDenominator) :=
    { quarter with significand := 4 * x.significand + 2 }.scaled (-power)
  let lowSide := digits * lowDenominator
  let highSide := digits * highDenominator
  if x.significand % 2 = 0 then
    decide (lowNumerator ≤ lowSide) && decide (highSide ≤ highNumerator)
  else
    decide (lowNumerator < lowSide) && decide (highSide < highNumerator)

/-- The decimal nearest to the value on the grid of multiples of `10 ^ power`, if one of the
value's two neighbours there identifies it; of two that do, the nearer, and the even one of a
tie. -/
def onGrid? (x : Binary64) (power : Int) : Option Numeral :=
  let (numerator, denominator) := x.scaled (-power)
  let below := numerator / denominator
  let nearest := roundDiv numerator denominator
  let other := if nearest = below then below + 1 else below
  if x.roundsFrom nearest power then some { digits := nearest, power }
  else if x.roundsFrom other power then some { digits := other, power }
  else none

/-- The shortest decimal that identifies a positive value. Seventeen digits always do; the exact
value stands behind them. -/
def shortestDecimal (x : Binary64) : Numeral :=
  let scale := x.scale
  match (List.range 17).findSome? fun count => x.onGrid? (scale - (count + 1 : Nat)) with
  | some decimal => decimal
  | none =>
    { digits := x.significand * Nat.pow 2 x.exponent.toNat * Nat.pow 5 (-x.exponent).toNat
      power := min x.exponent 0 }

end Binary64

/-- The decimal without trailing zeros in its digits. -/
def Numeral.stripped (decimal : Numeral) : Nat → Numeral
  | 0 => decimal
  | steps + 1 =>
    if decimal.digits ≠ 0 ∧ decimal.digits % 10 = 0 then
      Numeral.stripped { digits := decimal.digits / 10, power := decimal.power + 1 } steps
    else
      decimal

/-- Positional notation for leading digits with an exponent from -4 to 15, and always a digit
after the point; scientific notation for the others, with a point only before further digits. -/
def Numeral.layout (decimal : Numeral) : String :=
  let digits := (toString decimal.digits).toList
  let exponent := decimal.power + digits.length - 1
  if -4 ≤ exponent ∧ exponent < 16 then
    if 0 ≤ decimal.power then
      String.ofList (digits ++ List.replicate decimal.power.toNat '0') ++ ".0"
    else
      withPoint (-decimal.power).toNat decimal.digits
  else
    withPoint (digits.length - 1) decimal.digits ++ exponentText exponent

/-- The shortest text of a finite number. -/
def shortestFinite (x : Float) : String :=
  let value := Binary64.ofFloat x
  if value.significand = 0 then
    signed x "0.0"
  else
    let decimal := value.shortestDecimal
    signed x (decimal.stripped (toString decimal.digits).length).layout

/-- The shortest text of a number. -/
def shortest (x : Float) : String :=
  if x.isFinite then shortestFinite x else special x

end NumberConcepts.Decimal
