/-!
# Terminals

The sets of numbers that concepts are built from: four properties without a
parameter, and the powers of a base, the multiples of a step, the numbers of an
interval and the numbers that end in a digit. Every parameter has its range.
-/

namespace NumberConcepts

/-- The greatest number of the largest domain. -/
def largestDomain : Nat := 100

/-- A property of numbers without a parameter. -/
inductive Primitive where
  | prime
  | square
  | even
  | odd
deriving DecidableEq, Hashable, Repr, Inhabited

namespace Primitive

/-- All properties in their fixed order. -/
def all : List Primitive := [prime, square, even, odd]

/-- The name of the property. -/
def name : Primitive → String
  | prime => "prime"
  | square => "square"
  | even => "even"
  | odd => "odd"

/-- The property with a given name. -/
def ofName? (text : String) : Option Primitive := all.find? fun property => property.name == text

end Primitive

/-- What the parameter of a terminal stands for. -/
inductive Parameter where
  | powerBase
  | multipleStep
  | intervalLow
  | intervalHigh
  | endingDigit
deriving DecidableEq, Repr, Inhabited

namespace Parameter

/-- The parameter as messages name it. -/
def label : Parameter → String
  | powerBase => "PowerOf base"
  | multipleStep => "MultipleOf k"
  | intervalLow => "Interval lo"
  | intervalHigh => "Interval hi"
  | endingDigit => "EndsIn digit"

/-- The least value. -/
def least : Parameter → Nat
  | powerBase => 2
  | multipleStep => 2
  | intervalLow => 1
  | intervalHigh => 1
  | endingDigit => 0

/-- The greatest value. -/
def greatest : Parameter → Nat
  | powerBase => 10
  | multipleStep => 20
  | intervalLow => largestDomain
  | intervalHigh => largestDomain
  | endingDigit => 9

/-- The value lies in the parameter's range. -/
def Admits (parameter : Parameter) (value : Nat) : Prop :=
  parameter.least ≤ value ∧ value ≤ parameter.greatest

instance (parameter : Parameter) (value : Nat) : Decidable (parameter.Admits value) :=
  inferInstanceAs (Decidable (_ ∧ _))

/-- All values in increasing order. -/
def values (parameter : Parameter) : List Nat :=
  (List.range (parameter.greatest + 1 - parameter.least)).map (parameter.least + ·)

end Parameter

/-- A concept without parts. -/
inductive Terminal where
  | primitive (property : Primitive)
  /-- The powers of a base, from one upward. -/
  | powerOf (base : Nat)
  /-- The positive multiples of a step. -/
  | multipleOf (step : Nat)
  | interval (low high : Nat)
  | endsIn (digit : Nat)
deriving DecidableEq, Hashable, Repr, Inhabited

namespace Terminal

/-- The parameters lie in their ranges, and an interval's bounds are in order. -/
def Legal : Terminal → Prop
  | primitive _ => True
  | powerOf base => Parameter.powerBase.Admits base
  | multipleOf step => Parameter.multipleStep.Admits step
  | interval low high =>
    Parameter.intervalLow.Admits low ∧ Parameter.intervalHigh.Admits high ∧ low ≤ high
  | endsIn digit => Parameter.endingDigit.Admits digit

instance : DecidablePred Legal := fun terminal => by
  cases terminal <;> unfold Legal <;> infer_instance

/-- The written form. -/
def key : Terminal → String
  | primitive property => property.name
  | powerOf base => "power-of(" ++ toString base ++ ")"
  | multipleOf step => "multiple-of(" ++ toString step ++ ")"
  | interval low high => "interval(" ++ toString low ++ "," ++ toString high ++ ")"
  | endsIn digit => "ends-in(" ++ toString digit ++ ")"

/-- An interval of numbers. -/
def isInterval : Terminal → Bool
  | interval _ _ => true
  | _ => false

end Terminal

end NumberConcepts
