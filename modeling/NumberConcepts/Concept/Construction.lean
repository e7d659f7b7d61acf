import NumberConcepts.Concept.Tree
import NumberConcepts.Fault
/-!
# Checked construction

Terminals are built from data that may have any shape, and combinations from
parts that may not be concepts. What is built is legal; what is not has a fault
that names its cause.
-/

namespace NumberConcepts

/-- The value of a parameter: an integer in its range. -/
def Parameter.check (parameter : Parameter) : Datum → Except Fault Nat
  | .int value =>
    if parameter.least ≤ value ∧ value ≤ parameter.greatest then .ok value.toNat
    else .error (.parameterOutOfRange parameter value)
  | given => .error (.parameterNotInteger parameter given)

namespace Terminal

/-- The property of a given name. Lists and records are no names at all. -/
def checkPrimitive : Datum → Except Fault Terminal
  | .text name =>
    match Primitive.ofName? name with
    | some property => .ok (.primitive property)
    | none => .error (.unknownPrimitive (.text name))
  | .list _ => .error .wrongShape
  | .record _ => .error .wrongShape
  | given => .error (.unknownPrimitive given)

/-- The powers of a base. -/
def checkPowerOf (base : Datum) : Except Fault Terminal :=
  (Parameter.powerBase.check base).map .powerOf

/-- The multiples of a step. -/
def checkMultipleOf (step : Datum) : Except Fault Terminal :=
  (Parameter.multipleStep.check step).map .multipleOf

/-- The numbers with a last digit. -/
def checkEndsIn (digit : Datum) : Except Fault Terminal :=
  (Parameter.endingDigit.check digit).map .endsIn

/-- An interval; the lower bound is checked before the upper one and both before their order. -/
def checkInterval (low high : Datum) : Except Fault Terminal := do
  let low ← Parameter.intervalLow.check low
  let high ← Parameter.intervalHigh.check high
  if low ≤ high then return .interval low high else throw (.intervalReversed low high)

end Terminal

/-- What is given as a part of a combination. -/
inductive Part where
  | concept (value : Concept)
  | other (given : Datum)

/-- The concept that a part is. -/
def Part.check : Part → Except Fault Concept
  | .concept value => .ok value
  | .other given => .error (.partNotConcept given)

namespace Concept

/-- Two concepts under an operation, unless they are too deep for it. -/
def checkCombine (operation : Operation) (left right : Concept) : Except Fault Concept :=
  let combined := combine operation left right
  if combined.depth ≤ maxDepth then .ok combined else .error (.tooDeep combined.depth)

/-- Two parts under an operation; the left part is checked first. -/
def checkParts (operation : Operation) (left right : Part) : Except Fault Concept := do
  checkCombine operation (← left.check) (← right.check)

end Concept

end NumberConcepts
