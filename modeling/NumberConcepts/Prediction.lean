import NumberConcepts.Belief.Vector
/-!
# Prediction

The probability that a number belongs with the examples is the sum of the
probabilities of the hypotheses that contain it. A `Curve` gives it for a list
of numbers.
-/

namespace NumberConcepts

variable {α : Type} [Scalar α]

/-- The probability under a posterior that a number belongs with its examples. An example always
belongs, for every candidate of positive probability contains it. -/
def Posterior.predict {size : Nat} (posterior : Posterior α size) (number : Int) : α :=
  if (posterior.examples.map Int.ofNat).contains number then Scalar.one
  else
    let mass := Scalar.sum
      ((posterior.entries.filter fun entry => entry.hypothesis.members.containsInt number).map
        Ranked.probability)
    Scalar.min Scalar.one (Scalar.max Scalar.zero mass)

/-- Numbers with their probabilities, each number once. -/
abbrev Curve (α : Type) := List (Int × α)

namespace HypothesisSpace

variable (space : HypothesisSpace)

/-- The probabilities of some numbers, in the order in which they first occur. -/
def curve (prior : Prior α) (examples : List Nat) (numbers : List Int) :
    Except Fault (Explained (Curve α)) := do
  let posterior ← space.posterior prior examples
  return posterior.map fun posterior =>
    numbers.eraseDups.map fun number => (number, posterior.predict number)

/-- The probabilities of all numbers of the domain. -/
def fullCurve (prior : Prior α) (examples : List Nat) : Except Fault (Explained (Curve α)) :=
  space.curve prior examples (indexedNumbers space.domain)

/-- The probabilities of all numbers of the domain, without the numbers. -/
def predictions (prior : Prior α) (examples : List Nat) : Except Fault (Explained (List α)) := do
  return (← space.fullCurve prior examples).map fun curve => curve.map Prod.snd

/-- The first point stands before the second: it is more probable, or as probable and not
greater. -/
def pointPrecedes (a b : Int × α) : Bool :=
  if Scalar.lt b.2 a.2 then true
  else if Scalar.lt a.2 b.2 then false
  else decide (a.1 ≤ b.1)

/-- The numbers of the domain that most probably belong, by a count that may be negative. -/
def mostLikely (prior : Prior α) (examples : List Nat) (count : Int) :
    Except Fault (Explained (Curve α)) := do
  return (← space.fullCurve prior examples).map fun curve =>
    Sequence.first count (curve.mergeSort pointPrecedes)

/-- The probabilities of some numbers, a repeated number repeatedly. -/
def curveAlong (prior : Prior α) (examples : List Nat) (numbers : List Int) :
    Except Fault (Explained (Curve α)) := do
  return (← space.curve prior examples numbers).map fun curve =>
    numbers.map fun number => (number, (curve.lookup number).getD Scalar.zero)

/-- What the probabilities of all numbers say in short. -/
structure CurveStatistics (α : Type) where
  greatest : α
  least : α
  mean : α
  aboveHalf : Nat
  aboveTenth : Nat
  aboveHundredth : Nat
  /-- The sum of the probabilities, which is the expected number of members. -/
  effectiveSize : α

/-- The statistics of probabilities. -/
def CurveStatistics.ofList (values : List α) : CurveStatistics α :=
  let total := Scalar.sum values
  let above (denominator : Nat) : Nat :=
    (values.filter fun p => Scalar.lt (Scalar.one / Scalar.ofNat denominator) p).length
  { greatest := (LogWeights.greatest? values).getD Scalar.zero
    least := match values with
      | [] => Scalar.zero
      | value :: rest => rest.foldl Scalar.min value
    mean := total / Scalar.ofNat values.length
    aboveHalf := above 2
    aboveTenth := above 10
    aboveHundredth := above 100
    effectiveSize := total }

/-- The statistics of the probabilities of all numbers of the domain. -/
def curveStatistics (prior : Prior α) (examples : List Nat) :
    Except Fault (Explained (CurveStatistics α)) := do
  return (← space.predictions prior examples).map CurveStatistics.ofList

/-- The probability of one number of any shape; it must lie in the domain, but that matters only
if something explains the examples. -/
def predictOne (prior : Prior α) (examples : List Nat) (number : Datum) :
    Except Fault (Explained α) := do
  match ← space.posterior prior examples with
  | .error missing => return .error missing
  | .ok posterior =>
    let checked ← space.domain.validate [number]
    return .ok (posterior.predict (checked.headD 0))

/-- The probabilities of all numbers of the domain after each nonempty initial part of the
examples. -/
def predictionHistory (prior : Prior α) (examples : List Nat) :
    Except Fault (List (Explained (List α))) :=
  (List.range examples.length).mapM fun index => do
    let beliefs ← space.posteriorBeliefs prior (examples.take (index + 1))
    return beliefs.map fun entries => space.predict entries (indexedNumbers space.domain)

end HypothesisSpace

end NumberConcepts
