import NumberConcepts.Text.Integer
/-!
# Reading decimals

The double nearest to a decimal, and the grammar of decimals in free text: an
optional sign, digits with single underscores between them, a point, an
exponent, or the words for infinity and for an undefined value.
-/

namespace NumberConcepts.Decimal

/-- The double nearest to `digits * 10 ^ power`. Decimals far outside the range of doubles are
settled by their magnitude alone. -/
def nearestFloat (digits : Nat) (power : Int) : Float :=
  let magnitude := (toString digits).length + power
  if digits = 0 || magnitude < -400 then 0.0
  else if 400 < magnitude then 1.0 / 0.0
  else Float.ofScientific digits (decide (power < 0)) power.natAbs

/-- The characters up to the first that is not a digit or an underscore, and the rest. -/
def spanDigits (text : List Char) : List Char × List Char :=
  text.span fun c => c == '_' || (Text.digitValue? c).isSome

/-- The digit values of a digit sequence, which may be empty but has no loose underscore. -/
def digitValues? : List Char → Option (List Nat)
  | [] => some []
  | c :: rest => do return (← Text.digitValue? c) :: (← Text.readDigits? rest)

/-- An exponent after its mark: an optional sign and at least one digit. -/
def readExponent? : List Char → Option Int
  | [] => some 0
  | mark :: rest =>
    if mark = 'e' ∨ mark = 'E' then
      let (sign, digits) : Int × List Char :=
        match rest with
        | '-' :: digits => (-1, digits)
        | '+' :: digits => (1, digits)
        | digits => (1, digits)
      match digitValues? digits with
      | some (first :: others) => some (sign * (Text.ofDigits (first :: others) : Int))
      | _ => none
    else
      none

/-- The value of an unsigned decimal. -/
def readUnsigned? (text : List Char) : Option Float := do
  let (whole, afterWhole) := spanDigits text
  let (fraction, afterFraction) :=
    match afterWhole with
    | '.' :: rest => spanDigits rest
    | rest => ([], rest)
  let wholeDigits ← digitValues? whole
  let fractionDigits ← digitValues? fraction
  let exponent ← readExponent? afterFraction
  let digits := wholeDigits ++ fractionDigits
  if digits.isEmpty then none
  else some (nearestFloat (Text.ofDigits digits) (exponent - fractionDigits.length))

/-- The value of an unsigned decimal or word. -/
def readMagnitude? (text : List Char) : Option Float :=
  let word := String.ofList (text.map Char.toLower)
  if word = "inf" ∨ word = "infinity" then some (1.0 / 0.0)
  else if word = "nan" then some (0.0 / 0.0)
  else readUnsigned? text

/-- The value of a decimal text; white space around it does not count. -/
def read? (text : String) : Option Float :=
  match Text.trim Text.isWhite text.toList with
  | '-' :: rest => (readMagnitude? rest).map (- ·)
  | '+' :: rest => readMagnitude? rest
  | rest => readMagnitude? rest

end NumberConcepts.Decimal
