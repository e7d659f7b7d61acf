import NumberConcepts.Datum
import NumberConcepts.Decimal.Shortest
import NumberConcepts.Text.Quoted
/-!
# Data in messages

A message shows the value it is about: texts in quotes, lists in brackets,
records in braces, and words for the truth values and for no value.
-/

namespace NumberConcepts.Datum

mutual

/-- The value as a message shows it. -/
def display : Datum → String
  | .null => "None"
  | .bool value => if value then "True" else "False"
  | .int value => toString value
  | .float value => Decimal.shortest value
  | .text value => Text.quoted value
  | .list items => Text.bracketed (displayItems items)
  | .record fields => "\x7b" ++ ", ".intercalate (displayFields fields) ++ "\x7d"

/-- The values of a list. -/
def displayItems : List Datum → List String
  | [] => []
  | item :: rest => display item :: displayItems rest

/-- The fields of a record with their names. -/
def displayFields : List (String × Datum) → List String
  | [] => []
  | (name, value) :: rest => (Text.quoted name ++ ": " ++ display value) :: displayFields rest

end

/-- The value as it stands inside a sentence: a text without its quotes. -/
def plain : Datum → String
  | .text value => value
  | value => value.display

end NumberConcepts.Datum
