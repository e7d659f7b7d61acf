import NumberConcepts.Decimal.Binary64
/-!
# Data of unknown shape

Settings, records and the arguments of unchecked constructors arrive as a
`Datum`: a number, a text, a list or a record of such. Whole numbers and floats
stay apart, and records keep the order of their fields.
-/

namespace NumberConcepts

/-- A value whose shape is not known beforehand. -/
inductive Datum where
  | null
  | bool (value : Bool)
  /-- An integer of any size. -/
  | int (value : Int)
  | float (value : Float)
  | text (value : String)
  | list (items : List Datum)
  /-- Named values in order. -/
  | record (fields : List (String × Datum))
deriving Inhabited

/-- Named values in order. -/
abbrev Fields := List (String × Datum)

namespace Datum

/-- The value of a field of a record. -/
def field? (name : String) : Datum → Option Datum
  | .record fields => fields.lookup name
  | _ => none

/-- A list of integers. -/
def ofInts (numbers : List Int) : Datum := .list (numbers.map .int)

/-- The shape of the value, as messages name it. -/
def shape : Datum → String
  | .null => "NoneType"
  | .bool _ => "bool"
  | .int _ => "int"
  | .float _ => "float"
  | .text _ => "str"
  | .list _ => "list"
  | .record _ => "dict"

/-- The integer that a value equals as a number: truth values count as zero and one, and a float
without fraction as its integer. -/
def asInteger? : Datum → Option Int
  | .int value => some value
  | .bool value => some value.toNat
  | .float value => Decimal.integer? value
  | _ => none

mutual

/-- All texts in a value, but not the names of fields. -/
def texts : Datum → List String
  | .text value => [value]
  | .list items => textsOfItems items
  | .record fields => textsOfFields fields
  | _ => []

/-- All texts in the values of a list. -/
def textsOfItems : List Datum → List String
  | [] => []
  | item :: rest => texts item ++ textsOfItems rest

/-- All texts in the values of fields. -/
def textsOfFields : List (String × Datum) → List String
  | [] => []
  | (_, value) :: rest => texts value ++ textsOfFields rest

end

end Datum

end NumberConcepts
