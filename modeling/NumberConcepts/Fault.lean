import NumberConcepts.Concept.Terminal
import NumberConcepts.Datum.Display
/-!
# Faults

A `Fault` is the reason why an operation has no answer. `Fault.message` is its
text.
-/

namespace NumberConcepts

/-- The reason why an operation has no answer. -/
inductive Fault where
  | parameterNotInteger (parameter : Parameter) (given : Datum)
  | parameterOutOfRange (parameter : Parameter) (given : Int)
  /-- The least number of an interval is above its greatest. -/
  | intervalReversed (low high : Nat)
  | unknownPrimitive (given : Datum)
  | partNotConcept (given : Datum)
  | tooDeep (depth : Nat)
  | notConcept (given : Datum)
  | domainSize (given : Int)
  /-- Some examples are not numbers of the domain. -/
  | outsideDomain (size : Nat) (strays : List Datum)
  | noExamples
  | notIntegers (text : String)
  | unknownStrategy (name : String)
  | unknownPrior (name : String)
  | searchDepth (given : Int)
  /-- There is no example at this position. -/
  | noSuchStep (step : Int) (count : Nat)
  /-- There is no hypothesis at this position. -/
  | noSuchHypothesis
  | leastOfNone
  /-- The square root of a negative integer is asked for. -/
  | negativeRoot
  | zeroStep
  | zeroModulus
  | logarithmDomain
  | zeroDivisor
  /-- A number has no floating-point approximation. -/
  | overflow
  /-- A distribution gives weight to nothing. -/
  | weightless
  | emptyChoice
  /-- Two samples that belong together have different lengths. -/
  | lengthsDiffer
  /-- Two distributions over the same outcomes have different lengths. -/
  | shapesDiffer (first second : Nat)
  | missingField (name : String)
  | notNumber (text : String)
  /-- A value has a shape that the operation does not take. -/
  | wrongShape
  | missingFile (path : String)
  /-- There is something at this path that cannot be read. -/
  | unreadableFile (path : String)
  /-- Settings fail their checks; each item is a place and what is wrong there. -/
  | invalidSettings (items : List String)

namespace Fault

/-- The names of the search strategies in messages. -/
def strategyNames : List String := ["exact", "guided", "indexed"]

/-- The names of the priors in messages. -/
def priorNames : List String := ["uniform", "rule-biased", "type-weighted", "size-biased"]

/-- Names in brackets, each in quotes. -/
def choices (names : List String) : String := Text.bracketed (names.map Text.quoted)

/-- The text of a fault; an empty one for those that have none. -/
def message : Fault → String
  | parameterNotInteger parameter given =>
    parameter.label ++ " must be an integer, got " ++ given.display
  | parameterOutOfRange parameter given =>
    parameter.label ++ " must be in [" ++ toString parameter.least ++ ", " ++
      toString parameter.greatest ++ "], got " ++ toString given
  | intervalReversed low high =>
    "Interval lo (" ++ toString low ++ ") must not exceed hi (" ++ toString high ++ ")"
  | unknownPrimitive given =>
    "Unknown primitive: " ++ given.display ++ ". Available: " ++
      choices (Primitive.all.map Primitive.name)
  | partNotConcept given => "Not a concept: " ++ given.display
  | tooDeep depth => "Concept depth " ++ toString depth ++ " exceeds maximum of 3"
  | notConcept given => "Unknown concept type: " ++ given.shape
  | domainSize given =>
    "Domain size must be between 1 and " ++ toString largestDomain ++ ", got " ++ toString given
  | outsideDomain size strays =>
    "Examples outside the domain 1.." ++ toString size ++ ": " ++
      Text.bracketed (strays.map Datum.display)
  | noExamples => "At least one example is required"
  | notIntegers text => "Examples must be integers, got " ++ Text.quoted text
  | unknownStrategy name => "Unknown strategy: " ++ name ++ ". Available: " ++ choices strategyNames
  | unknownPrior name => "Unknown prior: " ++ name ++ ". Available: " ++ choices priorNames
  | searchDepth given => "max_depth must be in [0, 3], got " ++ toString given
  | noSuchStep step count =>
    "step_idx " ++ toString step ++ " out of range for " ++ toString count ++ " examples"
  | noSuchHypothesis => "tuple index out of range"
  | leastOfNone => "min() arg is an empty sequence"
  | negativeRoot => "isqrt() argument must be nonnegative"
  | zeroStep => "range() arg 3 must not be zero"
  | zeroModulus => "integer modulo by zero"
  | logarithmDomain => "math domain error"
  | zeroDivisor => "float division by zero"
  | overflow => ""
  | weightless => "Cannot sample from an all-zero distribution"
  | emptyChoice => "Cannot choose from an empty sequence"
  | lengthsDiffer => "\x60x\x60 and \x60y\x60 must be broadcastable."
  | shapesDiffer first second =>
    "Shape mismatch: (" ++ toString first ++ ",) vs (" ++ toString second ++ ",)"
  | missingField name => Text.quoted name
  | notNumber text => "could not convert string to float: " ++ Text.quoted text
  | wrongShape => ""
  | missingFile path => "Config file not found: " ++ path
  | unreadableFile path => "Config file cannot be read: " ++ path
  | invalidSettings _ => ""

end Fault

end NumberConcepts
