import NumberConcepts.Datum.Display
import NumberConcepts.Prior
import NumberConcepts.Settings.Lax
/-!
# Priors in settings

A prior is named, or described by its weights. A record that holds a name and
nothing else stands for the prior of that name.
-/

namespace NumberConcepts.PriorReading

/-- The preferred size and its spread; both are positive. -/
def positive (value : Datum) : Checked Float :=
  (Lax.float value).andThen fun x => if x ≤ 0.0 then .fail "greater_than" else .valid x

/-- A number that is not negative. -/
def nonNegative (value : Datum) : Checked Float :=
  (Lax.float value).andThen fun x => if x < 0.0 then .fail "greater_than_equal" else .valid x

/-- A preference for a size. -/
def sizePreference (value : Datum) : Checked (SizePreference Float) :=
  (Lax.record value).andThen fun fields =>
    SizePreference.mk <$> Lax.field fields "preferred_size" positive 20.0
      <*> Lax.field fields "spread" positive 1.0

/-- A preference for a size, or none. -/
def optionalPreference : Datum → Checked (Option (SizePreference Float))
  | .null => .valid none
  | value => (sizePreference value).map some

/-- What the weight of intervals is divided by: a positive number, or the word for the number of
intervals. -/
def divisor (value : Datum) : Checked (IntervalDivisor Float) :=
  match value, Lax.float value with
  | .text "exact", _ => .valid .exact
  | _, .valid x =>
    if x ≤ 0.0 then
      .broken ("interval_divisor must be positive, got " ++ Decimal.shortest x)
    else
      .valid (.fixed x)
  | _, .flawed flaws =>
    .flawed (flaws.map (fun flaw => { flaw with place := "float" :: flaw.place }) ++
      [⟨["literal['exact']"], "literal_error"⟩])

/-- The weight of a kind of node, which is named and not negative. -/
def acceptWeight (name : String) (weight : Float) : Checked (Tag × Float) :=
  match Tag.ofName? name with
  | none =>
    .broken ("Unknown concept type: " ++ name ++ ". Available: " ++
      Fault.choices (Tag.all.map Tag.name))
  | some tag =>
    if weight < 0.0 || weight.isNaN then
      .broken ("Weight for " ++ name ++ " must be non-negative, got " ++ Decimal.shortest weight)
    else
      .valid (tag, weight)

/-- Weights, of which the first bad one counts. -/
def acceptWeights : List (String × Float) → Checked (List (Tag × Float))
  | [] => .valid []
  | (name, weight) :: rest =>
    (acceptWeight name weight).andThen fun first => (acceptWeights rest).map (first :: ·)

/-- The weights of some kinds of nodes. -/
def weights : Datum → Checked (List (Tag × Float))
  | .record fields =>
    (Checked.all (fields.map fun (name, value) =>
      ((Lax.float value).inside name).map fun weight => (name, weight))).andThen acceptWeights
  | _ => .fail "dict_type"

/-- A prior described field by field. -/
def described (fields : List (String × Datum)) : Checked (Prior Float) :=
  Prior.mk <$> Lax.field fields "name" Lax.text "custom"
    <*> Lax.field fields "weights" weights []
    <*> Lax.field fields "default_weight" nonNegative 1.0
    <*> Lax.field fields "interval_divisor" divisor Prior.defaultDivisor
    <*> Lax.field fields "size_preference" optionalPreference none

/-- The prior of a given name. A list or a record cannot be looked up as a name at all. -/
def named : Datum → Except Fault (Checked (Prior Float))
  | .list _ => .error .wrongShape
  | .record _ => .error .wrongShape
  | name =>
    .ok (match name with
      | .text text =>
        match Prior.named? text with
        | some prior => .valid prior
        | none => .broken (Fault.unknownPrior text).message
      | other => .broken (Fault.unknownPrior other.plain).message)

/-- A prior from a name or a description. -/
def read : Datum → Except Fault (Checked (Prior Float))
  | .text name => named (.text name)
  | .record [("name", name)] => named name
  | .record fields => .ok (described fields)
  | _ => .ok (.fail "model_type")

end NumberConcepts.PriorReading
