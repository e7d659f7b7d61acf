import NumberConcepts.Concept.Tree
import NumberConcepts.Fault
import NumberConcepts.Scalar
/-!
# Priors

A prior gives each kind of node a weight. A node counts with its share of the
total weight, and a concept with the product over its nodes, so that larger
concepts cost more. The weight of intervals is divided first, because there are
thousands of them and only a few dozen rules. A prior may also prefer concepts
of a certain size.
-/

namespace NumberConcepts

variable {α : Type} [Scalar α]

/-- The logarithm of a scalar that is not zero or less. -/
def Scalar.checkedLog (x : α) : Except Fault α :=
  if Scalar.le x Scalar.zero then .error .logarithmDomain else .ok (Scalar.log x)

/-- A preference for sizes near a given one, on a logarithmic scale. -/
structure SizePreference (α : Type) where
  preferredSize : α
  spread : α

/-- The logarithm of the factor for a size; sizes below one count as one. -/
def SizePreference.logWeight (preference : SizePreference α) (size : Int) : Except Fault α := do
  let difference :=
    Scalar.log (Scalar.ofNat (max 1 size.toNat)) - Scalar.log preference.preferredSize
  let scale := Scalar.ofNat 2 * preference.spread * preference.spread
  if Scalar.beq scale Scalar.zero then throw .zeroDivisor
  return -(difference * difference) / scale

/-- What the weight of intervals is divided by. -/
inductive IntervalDivisor (α : Type) where
  | fixed (value : α)
  /-- The number of intervals of the domain. -/
  | exact

/-- The divisor in a domain of a given size. -/
def IntervalDivisor.value (divisor : IntervalDivisor α) (size : Nat) : α :=
  match divisor with
  | fixed value => value
  | exact => Scalar.ofNat (size * (size + 1) / 2)

/-- Weights for the kinds of nodes. -/
structure Prior (α : Type) where
  name : String
  weights : List (Tag × α)
  defaultWeight : α
  divisor : IntervalDivisor α
  sizePreference : Option (SizePreference α)

namespace Prior

/-- The divisor of intervals where nothing else is said. -/
def defaultDivisor : IntervalDivisor α := .fixed (Scalar.ofNat 5000)

/-- The prior where nothing else is said. -/
def custom : Prior α where
  name := "custom"
  weights := []
  defaultWeight := Scalar.one
  divisor := defaultDivisor
  sizePreference := none

/-- Equal weights and no division. -/
def uniform : Prior α := { custom with name := "uniform", divisor := .fixed Scalar.one }

/-- Rules weigh ten times as much as intervals and combinations. -/
def ruleBiased : Prior α :=
  { custom with
    name := "rule-biased"
    weights := [Tag.interval, .combination .union, .combination .intersect].map fun tag =>
      (tag, Scalar.one)
    defaultWeight := Scalar.ofNat 10 }

/-- Rules weigh ten, parity five, intervals and combinations one. -/
def typeWeighted : Prior α :=
  { custom with
    name := "type-weighted"
    weights :=
      [(.powerOf, Scalar.ofNat 10), (.multipleOf, Scalar.ofNat 10),
       (.primitive .prime, Scalar.ofNat 10), (.primitive .square, Scalar.ofNat 10),
       (.primitive .even, Scalar.ofNat 5), (.primitive .odd, Scalar.ofNat 5),
       (.endsIn, Scalar.ofNat 10), (.interval, Scalar.one),
       (.combination .union, Scalar.one), (.combination .intersect, Scalar.one)] }

/-- Equal weights and a preference for about twenty members. -/
def sizeBiased : Prior α :=
  { uniform with
    name := "size-biased"
    sizePreference := some ⟨Scalar.ofNat 20, Scalar.one⟩ }

/-- The prior of a given name. -/
def named? (name : String) : Option (Prior α) :=
  [uniform, ruleBiased, typeWeighted, sizeBiased].find? fun prior => prior.name == name

/-- The prior of a given name, or the fault that there is none. -/
def ofName (name : String) : Except Fault (Prior α) :=
  match named? name with
  | some prior => .ok prior
  | none => .error (.unknownPrior name)

variable (prior : Prior α)

/-- The weight of a kind of node in a domain of a given size. -/
def tagWeight (size : Nat) (tag : Tag) : α :=
  let weight := (prior.weights.lookup tag).getD prior.defaultWeight
  if tag = .interval then weight / prior.divisor.value size else weight

/-- The sum of the weights of all kinds. -/
def totalWeight (size : Nat) : α := Scalar.sum (Tag.all.map (prior.tagWeight size))

/-- The logarithm of the product of the shares of some kinds, added to a logarithm at hand. There
is none as soon as a kind has no weight. -/
def logShares (size : Nat) (total : α) (logarithm : α) : List Tag → Except Fault (Option α)
  | [] => .ok (some logarithm)
  | tag :: rest =>
    let weight := prior.tagWeight size tag
    if Scalar.le weight Scalar.zero then .ok none
    else do
      let share ← Scalar.checkedLog (weight / total)
      logShares size total (logarithm + share) rest

/-- The logarithm of the product of the shares of all nodes. There is none when some node has no
weight or no kind of node has any. -/
def logStructure (size : Nat) (concept : Concept) : Except Fault (Option α) :=
  let total := prior.totalWeight size
  if Scalar.le total Scalar.zero then .ok none
  else prior.logShares size total Scalar.zero concept.tags

/-- The logarithm of the weight of a concept, with the factor for its number of members if that is
given and the prior prefers a size; minus infinity for a concept without weight. -/
def logPrior (size : Nat) (concept : Concept) (count : Option Int) : Except Fault α := do
  match ← prior.logStructure size concept with
  | none => return Scalar.negInf
  | some logarithm =>
    match prior.sizePreference, count with
    | some preference, some count => return logarithm + (← preference.logWeight count)
    | _, _ => return logarithm

end Prior

end NumberConcepts
