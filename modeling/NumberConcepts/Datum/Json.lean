import NumberConcepts.Datum
import NumberConcepts.Decimal.Reading
import NumberConcepts.Decimal.Shortest
import NumberConcepts.Text.Quoted
/-!
# Data as JSON text

`Json.read?` reads a JSON document. A number with a point or an exponent is a
float and every other number an integer. `Json.write` writes ASCII text: other
characters are escaped as UTF-16 units, and floats have their shortest form.
-/

namespace NumberConcepts.Json

/-- White space between tokens. -/
def isBlank (c : Char) : Bool := c == ' ' || c == '\n' || c == '\t' || c == '\r'

/-- The text from its first character that is not white space. -/
def skipBlank (text : List Char) : List Char := text.dropWhile isBlank

/-- The value of a digit of base sixteen. -/
def hexValue? (c : Char) : Option Nat :=
  if '0' ≤ c ∧ c ≤ '9' then some (c.toNat - '0'.toNat)
  else if 'a' ≤ c ∧ c ≤ 'f' then some (c.toNat - 'a'.toNat + 10)
  else if 'A' ≤ c ∧ c ≤ 'F' then some (c.toNat - 'A'.toNat + 10)
  else none

/-- The number that digits of base sixteen denote. -/
def ofHex? (digits : List Char) : Option Nat :=
  digits.foldlM (fun value c => (hexValue? c).map (16 * value + ·)) 0

/-- The character that a letter after a backslash stands for. -/
def unescape? (c : Char) : Option Char :=
  match c with
  | '"' => some '"'
  | '\\' => some '\\'
  | '/' => some '/'
  | 'b' => some '\x08'
  | 'f' => some '\x0c'
  | 'n' => some '\n'
  | 'r' => some '\r'
  | 't' => some '\t'
  | _ => none

/-- The UTF-16 units and code points of a text up to its closing quote, and what follows. -/
def readUnits? : List Char → Option (List Nat × List Char)
  | [] => none
  | '"' :: rest => some ([], rest)
  | '\\' :: 'u' :: a :: b :: c :: d :: rest => do
    let unit ← ofHex? [a, b, c, d]
    let (units, after) ← readUnits? rest
    return (unit :: units, after)
  | '\\' :: c :: rest => do
    let plain ← unescape? c
    let (units, after) ← readUnits? rest
    return (plain.toNat :: units, after)
  | c :: rest => do
    let (units, after) ← readUnits? rest
    return (c.toNat :: units, after)

/-- A high unit followed by a low one is one character beyond the first plane. -/
def joinUnits : List Nat → List Char
  | high :: low :: rest =>
    if 0xd800 ≤ high ∧ high < 0xdc00 ∧ 0xdc00 ≤ low ∧ low < 0xe000 then
      Char.ofNat (0x10000 + (high - 0xd800) * 0x400 + (low - 0xdc00)) :: joinUnits rest
    else
      Char.ofNat high :: joinUnits (low :: rest)
  | [unit] => [Char.ofNat unit]
  | [] => []

/-- A text after its opening quote. -/
def readText? (text : List Char) : Option (String × List Char) :=
  (readUnits? text).map fun (units, rest) => (String.ofList (joinUnits units), rest)

/-- The characters of numbers. -/
def isNumeric (c : Char) : Bool :=
  c.isDigit || c == '-' || c == '+' || c == '.' || c == 'e' || c == 'E'

/-- A number: with a point or an exponent a float, otherwise an integer. -/
def readNumber? (numeral : List Char) : Option Datum :=
  if numeral.any fun c => c == '.' || c == 'e' || c == 'E' then
    (Decimal.read? (String.ofList numeral)).map .float
  else
    (Text.readInteger? numeral).map .int

/-- A value that is not nested: a number or one of the three words. -/
def readPlain? (text : List Char) : Option (Datum × List Char) :=
  match text with
  | 'n' :: 'u' :: 'l' :: 'l' :: rest => some (.null, rest)
  | 't' :: 'r' :: 'u' :: 'e' :: rest => some (.bool true, rest)
  | 'f' :: 'a' :: 'l' :: 's' :: 'e' :: rest => some (.bool false, rest)
  | _ =>
    let (numeral, rest) := text.span isNumeric
    (readNumber? numeral).map fun number => (number, rest)

mutual

/-- A value at the start of a text, nested no deeper than the fuel allows. -/
def readValue? : Nat → List Char → Option (Datum × List Char)
  | 0, _ => none
  | fuel + 1, text =>
    match skipBlank text with
    | '"' :: rest => (readText? rest).map fun (value, after) => (.text value, after)
    | '[' :: rest =>
      match skipBlank rest with
      | ']' :: after => some (.list [], after)
      | items => (readItems? fuel items).map fun (values, after) => (.list values, after)
    | '{' :: rest =>
      match skipBlank rest with
      | '}' :: after => some (.record [], after)
      | fields => (readFields? fuel fields).map fun (values, after) => (.record values, after)
    | plain => readPlain? plain

/-- The values of a list up to its closing bracket. -/
def readItems? : Nat → List Char → Option (List Datum × List Char)
  | 0, _ => none
  | fuel + 1, text => do
    let (value, rest) ← readValue? fuel text
    match skipBlank rest with
    | ']' :: after => return ([value], after)
    | ',' :: more =>
      let (values, after) ← readItems? fuel more
      return (value :: values, after)
    | _ => none

/-- The fields of a record up to its closing brace. -/
def readFields? : Nat → List Char → Option (List (String × Datum) × List Char)
  | 0, _ => none
  | fuel + 1, text =>
    match skipBlank text with
    | '"' :: quoted => do
      let (name, afterName) ← readText? quoted
      match skipBlank afterName with
      | ':' :: afterColon =>
        let (value, rest) ← readValue? fuel afterColon
        match skipBlank rest with
        | '}' :: after => return ([(name, value)], after)
        | ',' :: more =>
          let (fields, after) ← readFields? fuel more
          return ((name, value) :: fields, after)
        | _ => none
      | _ => none
    | _ => none

end

/-- The value of a whole document. -/
def read? (text : String) : Option Datum := do
  let chars := text.toList
  let (value, rest) ← readValue? (chars.length + 1) chars
  if (skipBlank rest).isEmpty then some value else none

/-- A UTF-16 unit as an escape. -/
def writeUnit (unit : Nat) : List Char := '\\' :: 'u' :: Text.hexDigits 4 unit

/-- A character between quotes. -/
def writeChar (c : Char) : List Char :=
  if c = '"' then ['\\', '"']
  else if c = '\\' then ['\\', '\\']
  else if c = '\n' then ['\\', 'n']
  else if c = '\r' then ['\\', 'r']
  else if c = '\t' then ['\\', 't']
  else if c = '\x08' then ['\\', 'b']
  else if c = '\x0c' then ['\\', 'f']
  else if ' ' ≤ c ∧ c ≤ '~' then [c]
  else if c.toNat < 0x10000 then writeUnit c.toNat
  else
    let beyond := c.toNat - 0x10000
    writeUnit (0xd800 + beyond / 0x400) ++ writeUnit (0xdc00 + beyond % 0x400)

/-- A text in quotes. -/
def writeText (text : String) : String :=
  String.ofList ('"' :: text.toList.flatMap writeChar ++ ['"'])

/-- A float; the infinities and the undefined value have words. -/
def writeFloat (x : Float) : String :=
  if x.isFinite then Decimal.shortest x
  else if x.isNaN then "NaN"
  else if Decimal.isNegative x then "-Infinity"
  else "Infinity"

mutual

/-- A value on one line. -/
def write : Datum → String
  | .null => "null"
  | .bool value => if value then "true" else "false"
  | .int value => toString value
  | .float value => writeFloat value
  | .text value => writeText value
  | .list items => "[" ++ ", ".intercalate (writeItems items) ++ "]"
  | .record fields => "\x7b" ++ ", ".intercalate (writeFields fields) ++ "\x7d"

/-- The values of a list. -/
def writeItems : List Datum → List String
  | [] => []
  | item :: rest => write item :: writeItems rest

/-- The fields of a record with their names. -/
def writeFields : List (String × Datum) → List String
  | [] => []
  | (name, value) :: rest => (writeText name ++ ": " ++ write value) :: writeFields rest

end

/-- One line of text for each value. -/
def writeLines (values : List Datum) : String :=
  String.join (values.map fun value => write value ++ "\n")

end NumberConcepts.Json
