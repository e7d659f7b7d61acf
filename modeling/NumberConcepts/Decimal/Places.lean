import NumberConcepts.Decimal.Binary64
/-!
# Decimal text with a given number of places

`fixed` writes a number with a given number of digits after the point,
`scientific` with a given number of digits after the leading one and an
exponent. Both round the exact value of the double, a half to the even
neighbour.
-/

namespace NumberConcepts.Decimal

/-- The text of a number that is not finite. -/
def special (x : Float) : String :=
  if x.isNaN then "nan" else if isNegative x then "-inf" else "inf"

/-- Decimal digits of `n`, with zeros in front to make at least `width` characters. -/
def digitsPadded (width n : Nat) : String :=
  let digits := (toString n).toList
  String.ofList (List.replicate (width - digits.length) '0' ++ digits)

/-- A natural number of units of `10 ^ -places`, with its point. -/
def withPoint (places units : Nat) : String :=
  let digits := (digitsPadded (places + 1) units).toList
  let cut := digits.length - places
  String.ofList (digits.take cut) ++
    (if places = 0 then "" else "." ++ String.ofList (digits.drop cut))

/-- The sign in front of the text of the absolute value. -/
def signed (x : Float) (text : String) : String :=
  if isNegative x then "-" ++ text else text

/-- Positional notation with `places` digits after the point. -/
def fixed (places : Nat) (x : Float) : String :=
  if x.isFinite then
    signed x (withPoint places ((Binary64.ofFloat x).roundScaled places))
  else
    special x

/-- An exponent with its sign and at least two digits. -/
def exponentText (exponent : Int) : String :=
  (if exponent < 0 then "e-" else "e+") ++ digitsPadded 2 exponent.natAbs

/-- Scientific notation with `places` digits after the leading one. -/
def scientific (places : Nat) (x : Float) : String :=
  if x.isFinite then
    let value := Binary64.ofFloat x
    if value.significand = 0 then
      signed x (withPoint places 0 ++ exponentText 0)
    else
      let exponent := value.scale - 1
      let units := value.roundScaled (places - exponent)
      -- rounding up to the next power of ten moves the point
      if units = Nat.pow 10 (places + 1) then
        signed x (withPoint places (Nat.pow 10 places) ++ exponentText (exponent + 1))
      else
        signed x (withPoint places units ++ exponentText exponent)
  else
    special x

end NumberConcepts.Decimal
