import NumberConcepts.Text.Basic
/-!
# Integers written in decimal

An integer is an optional sign followed by decimal digits of any script, with
single underscores allowed between digits. `readIntegers?` reads a list of them
separated by commas and white space; `writeIntegers` writes one with commas.
-/

namespace NumberConcepts.Text

/-- The most digits that an integer may be written with. -/
def maxDigits : Nat := 4300

/-- The digit values of a numeral after its first digit, which an underscore may precede. -/
def readDigits? : List Char → Option (List Nat)
  | [] => some []
  | '_' :: c :: rest => do return (← digitValue? c) :: (← readDigits? rest)
  | c :: rest => do return (← digitValue? c) :: (← readDigits? rest)

/-- The number that digits denote, the highest first. -/
def ofDigits (digits : List Nat) : Nat :=
  digits.foldl (fun value digit => 10 * value + digit) 0

/-- The number that a numeral without sign denotes: a digit, then further digits. -/
def readNatural? : List Char → Option Nat
  | [] => none
  | c :: rest => do
    let digits := (← digitValue? c) :: (← readDigits? rest)
    if digits.length ≤ maxDigits then some (ofDigits digits) else none

/-- The integer that a numeral with an optional sign denotes. -/
def readInteger? : List Char → Option Int
  | '-' :: rest => (readNatural? rest).map fun n => -(n : Int)
  | '+' :: rest => (readNatural? rest).map fun n => (n : Int)
  | numeral => (readNatural? numeral).map fun n => (n : Int)

/-- Commas and white space stand between integers. -/
def separatesIntegers (c : Char) : Bool := c == ',' || isSpace c

/-- The integers of a text, or nothing if a word of it is not an integer. -/
def readIntegers? (text : String) : Option (List Int) :=
  (splitWords separatesIntegers text.toList).mapM readInteger?

/-- The integers in decimal, separated by commas. -/
def writeIntegers (numbers : List Int) : String :=
  ",".intercalate (numbers.map toString)

end NumberConcepts.Text
