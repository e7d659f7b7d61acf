import NumberConcepts.Datum
import NumberConcepts.Decimal.Reading
import NumberConcepts.Settings.Checked
/-!
# Lenient readers of single values

Settings often come from text, so a reader takes what clearly means a value of
its kind: an integer may be a float without fraction or a numeral, a truth value
one of a few words.
-/

namespace NumberConcepts.Lax

/-- The text without its underscores, which stand alone between other characters. -/
def withoutUnderscores? : List Char → Option (List Char)
  | [] => some []
  | ['_'] => none
  | '_' :: '_' :: _ => none
  | '_' :: c :: rest => (withoutUnderscores? (c :: rest))
  | c :: rest => (withoutUnderscores? rest).map (c :: ·)

/-- The text without its underscores, if they stand alone inside it. -/
def stripUnderscores? : List Char → Option (List Char)
  | '_' :: _ => none
  | text => withoutUnderscores? text

/-- Some digits, and nothing else. -/
def asciiDigits? (text : List Char) : Option (List Nat) :=
  if text.isEmpty || !text.all Char.isDigit then none
  else some (text.map fun c => c.toNat - '0'.toNat)

/-- The number that a nonempty row of digits denotes. -/
def ofAsciiDigits? (text : List Char) : Option Nat :=
  (asciiDigits? text).bind fun digits =>
    if digits.length ≤ Text.maxDigits then some (Text.ofDigits digits) else none

/-- A numeral without the point and zeros at its end. -/
def dropFraction (text : List Char) : List Char :=
  match text.span (· != '.') with
  | (whole, '.' :: zeros) => if zeros.all (· == '0') then whole else text
  | _ => text

/-- A numeral without leading zeros, among which underscores may stand. -/
def dropLeadingZeros : List Char → List Char
  | '0' :: rest =>
    match rest.dropWhile fun c => c == '0' || c == '_' with
    | [] => if rest.getLast? == some '_' then ['_'] else ['0']
    | '.' :: fraction => '0' :: '.' :: fraction
    | digits => digits
  | text => text

/-- An unsigned numeral: digits with single underscores, and perhaps a point and zeros. -/
def readNatural? (text : List Char) : Option Nat :=
  (stripUnderscores? text).bind fun plain => ofAsciiDigits? (dropFraction plain)

/-- A numeral for an integer, with white space around it allowed. A negative one has no leading
zeros. -/
def readInteger? (text : String) : Option Int :=
  match Text.trim Text.isWhite text.toList with
  | '-' :: '0' :: c :: rest =>
    if dropFraction ('0' :: c :: rest) == ['0'] then some 0 else none
  | '-' :: rest => (readNatural? rest).map fun n => -(n : Int)
  | '+' :: rest => (readNatural? (dropLeadingZeros rest)).map Int.ofNat
  | rest => (readNatural? (dropLeadingZeros rest)).map Int.ofNat

/-- An integer. -/
def integer : Datum → Checked Int
  | .int value => .valid value
  | .bool value => .valid value.toNat
  | .float value =>
    if !value.isFinite then .fail "finite_number"
    else
      match Decimal.integer? value with
      | none => .fail "int_from_float"
      | some whole => if whole.natAbs < Nat.pow 2 63 then .valid whole else .fail "int_parsing_size"
  | .text text =>
    match readInteger? text with
    | some value => .valid value
    | none => .fail "int_parsing"
  | _ => .fail "int_type"

/-- The characters of plain numerals and of the words for floats. -/
def isPlain (c : Char) : Bool := c.isAlphanum || c == '.' || c == '+' || c == '-'

/-- A numeral or a word for a float, without underscores. -/
def readPlainFloat? (text : List Char) : Option Float :=
  if text.all isPlain then Decimal.read? (String.ofList text) else none

/-- A numeral for a float, with white space around it or underscores inside it allowed. -/
def readFloat? (text : String) : Option Float :=
  match readPlainFloat? (Text.trim Text.isWhite text.toList) with
  | some value => some value
  | none => (stripUnderscores? text.toList).bind readPlainFloat?

/-- A floating-point number. -/
def float : Datum → Checked Float
  | .float value => .valid value
  | .int value =>
    let nearest := Decimal.nearestFloat value.natAbs 0
    if nearest.isFinite then .valid (if value < 0 then -nearest else nearest)
    else .fail "float_type"
  | .bool value => .valid (if value then 1.0 else 0.0)
  | .text text =>
    match readFloat? text with
    | some value => .valid value
    | none => .fail "float_parsing"
  | _ => .fail "float_type"

/-- The truth value that a word stands for. -/
def readBool? (text : String) : Option Bool :=
  let word := String.ofList (text.toList.map Char.toLower)
  if ["1", "on", "t", "true", "y", "yes"].contains word then some true
  else if ["0", "off", "f", "false", "n", "no"].contains word then some false
  else none

/-- The truth value that an integer stands for. -/
def boolOfInteger (value : Int) : Checked Bool :=
  if value = 0 then .valid false else if value = 1 then .valid true else .fail "bool_parsing"

/-- A truth value. -/
def bool : Datum → Checked Bool
  | .bool value => .valid value
  | .int value => if value.natAbs < Nat.pow 2 63 then boolOfInteger value else .fail "bool_type"
  | .float value =>
    match Decimal.integer? value with
    | some whole => if whole.natAbs < Nat.pow 2 63 then boolOfInteger whole else .fail "bool_type"
    | none => .fail "bool_type"
  | .text text =>
    match readBool? text with
    | some value => .valid value
    | none => .fail "bool_parsing"
  | _ => .fail "bool_type"

/-- A text. -/
def text : Datum → Checked String
  | .text value => .valid value
  | _ => .fail "string_type"

/-- A list whose items are read alike. -/
def list {β : Type} (read : Datum → Checked β) : Datum → Checked (List β)
  | .list items => .all (items.mapIdx fun position item => (read item).inside (toString position))
  | _ => .fail "list_type"

/-- A pair of integers. -/
def pair : Datum → Checked (Int × Int)
  | .list items =>
    if 2 < items.length then .fail "too_long"
    else
      let part (position : Nat) : Checked Int :=
        Checked.inside (toString position)
          (match items[position]? with
          | some item => integer item
          | none => .fail "missing")
      Checked.both (part 0) (part 1)
  | _ => .fail "tuple_type"

/-- An integer that is at least `least` and, if there is such a bound, at most `greatest`. -/
def bounded (least : Int) (greatest : Option Int) (value : Datum) : Checked Nat :=
  (integer value).andThen fun n =>
    if greatest.any (· < n) then .fail "less_than_equal"
    else if n < least then .fail "greater_than_equal"
    else .valid n.toNat

/-- The fields of a record. -/
def record : Datum → Checked (List (String × Datum))
  | .record fields => .valid fields
  | _ => .fail "model_type"

/-- A field, or its default when it is absent. -/
def field {β : Type} (fields : List (String × Datum)) (name : String) (read : Datum → Checked β)
    (default : β) : Checked β :=
  match fields.lookup name with
  | some value => (read value).inside name
  | none => .valid default

end NumberConcepts.Lax
