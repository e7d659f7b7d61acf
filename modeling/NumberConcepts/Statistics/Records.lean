import NumberConcepts.Decimal.Reading
import NumberConcepts.Fault
import NumberConcepts.Statistics.Samples
/-!
# Groups of records

Records of any shape are grouped by one of their fields, and another field is
summarized. Keys are the same when they are equal as numbers or as texts; keys
of different kinds have no order.
-/

namespace NumberConcepts.Statistics

/-- The exact value of a number as a quotient with a positive denominator. -/
def ratio? : Datum → Option (Int × Nat)
  | .bool value => some (value.toNat, 1)
  | .int value => some (value, 1)
  | .float value =>
    if value.isFinite then
      let exact := Decimal.Binary64.ofFloat value
      let numerator := exact.significand * Nat.pow 2 exact.exponent.toNat
      some (if Decimal.isNegative value then -(numerator : Int) else numerator,
        Nat.pow 2 (-exact.exponent).toNat)
    else
      none
  | _ => none

/-- The first number is less than the second. -/
def ratioLess (a b : Int × Nat) : Bool := decide (a.1 * b.2 < b.1 * a.2)

/-- Two keys are equal. -/
def sameKey (a b : Datum) : Bool :=
  match a, b with
  | .null, .null => true
  | .text a, .text b => a == b
  | a, b =>
    match ratio? a, ratio? b with
    | some a, some b => !ratioLess a b && !ratioLess b a
    | _, _ => false

/-- The first key does not come after the second. -/
def keyPrecedes (a b : Datum) : Bool :=
  match a, b with
  | .text a, .text b => !decide (b < a)
  | a, b =>
    match ratio? a, ratio? b with
    | some a, some b => !ratioLess b a
    | _, _ => false

/-- Keys that all have an order among themselves; a single key needs none. -/
def ordered (keys : List Datum) : Bool :=
  keys.length < 2 || keys.all (fun key => (ratio? key).isSome) ||
    keys.all fun key => match key with
      | .text _ => true
      | _ => false

/-- A key that records can be grouped by; lists and records are none. -/
def checkKey : Datum → Except Fault Datum
  | .list _ => .error .wrongShape
  | .record _ => .error .wrongShape
  | key => .ok key

/-- A value as a float; a text counts as the number that it denotes. -/
def toFloat : Datum → Except Fault Float
  | .bool value => .ok (if value then 1.0 else 0.0)
  | .int value =>
    let nearest := Decimal.nearestFloat value.natAbs 0
    if nearest.isFinite then .ok (if value < 0 then -nearest else nearest) else .error .overflow
  | .float value => .ok value
  | .text text =>
    match Decimal.read? text with
    | some value => .ok value
    | none => .error (.notNumber text)
  | _ => .error .wrongShape

/-- The field of a record. -/
def requiredField (record : Datum) (name : String) : Except Fault Datum :=
  match record.field? name with
  | some value => .ok value
  | none => .error (.missingField name)

section Summaries

variable {α : Type} (number : Datum → Except Fault α) (keyName valueName : String)

/-- The key and the value of a record, given how values are read; the key is looked at first. -/
def entryOf (record : Datum) : Except Fault (Datum × α) := do
  let key ← checkKey (← requiredField record keyName)
  let value ← number (← requiredField record valueName)
  return (key, value)

/-- The summaries of a field of records, grouped by another one and sorted by it, given how values
are read. -/
def summarizeRead [Scalar α] (records : List Datum) :
    Except Fault (List (GroupSummary Datum α)) := do
  let entries ← records.mapM (entryOf number keyName valueName)
  if ordered ((groups sameKey entries).map Prod.fst) then
    return summarize sameKey keyPrecedes entries
  else
    throw .wrongShape

end Summaries

/-- The summaries of a field of records, grouped by another one and sorted by it. -/
def summarizeRecords (keyName valueName : String) (records : List Datum) :
    Except Fault (List (GroupSummary Datum Float)) :=
  summarizeRead toFloat keyName valueName records

end NumberConcepts.Statistics
