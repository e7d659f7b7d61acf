import NumberConcepts.Concept.Construction
import NumberConcepts.Hypothesis
import NumberConcepts.Search.Discovery
/-!
# Terminals of a search

The exhaustive search uses all terminals of a grammar, the guided one those that
cover all or some of the numbers it has to explain. Intervals are never listed
all: only those around the examples are, the smallest first.
-/

namespace NumberConcepts.Terminals

variable {size : Nat}

/-- The first interval is smaller than the second, or of the same size and not above it. -/
def intervalPrecedes (a b : Int × Int) : Bool :=
  let (widthA, widthB) := (a.2 - a.1, b.2 - b.1)
  decide (widthA < widthB) || (decide (widthA = widthB) && decide (a.1 ≤ b.1))

/-- The bounds of the intervals of a domain that contain all examples, the smallest first. -/
def intervalBounds (size : Int) (least greatest : Int) : List (Int × Int) :=
  ((Grammar.span 1 least).flatMap fun low =>
    (Grammar.span greatest size).map fun high => (low, high)).mergeSort intervalPrecedes

/-- The smallest intervals that contain all examples, by a count that may be negative. -/
def intervals (size : Int) (limit : Int) (examples : List Int) : Except Fault (List Terminal) := do
  let (least, greatest) ← Discovery.bounds examples
  (Sequence.first limit (intervalBounds size least greatest)).mapM fun (low, high) =>
    Terminal.checkInterval (.int low) (.int high)

/-- The properties as terminals. -/
def properties : List Terminal := Primitive.all.map .primitive

/-- Terminals for some bases. -/
def powers (bases : List Int) : Except Fault (List Terminal) :=
  bases.mapM fun base => Terminal.checkPowerOf (.int base)

/-- Terminals for some steps. -/
def multiples (steps : List Int) : Except Fault (List Terminal) :=
  steps.mapM fun step => Terminal.checkMultipleOf (.int step)

/-- Terminals for some last digits. -/
def endings (digits : List Nat) : List Terminal := digits.map .endsIn

/-- All terminals of a grammar in their fixed order. -/
def ofGrammar (size : Int) (grammar : Grammar) (examples : List Int) :
    Except Fault (List Terminal) := do
  let powers ← powers grammar.powerBases
  let multiples ← multiples grammar.multiples
  let endings := if grammar.includeEndings then endings (List.range 10) else []
  let intervals ← intervals size grammar.maxIntervals examples
  return properties ++ powers ++ multiples ++ endings ++ intervals

/-- The members of a set as integers. -/
def integers (target : NatSet) : List Int := target.toList.map Int.ofNat

/-- The last digits of the members of a set, in increasing order. -/
def lastDigits (target : NatSet) : List Nat :=
  (List.range 10).filter fun digit => target.toList.any fun n => n % 10 == digit

/-- The terminals that contain a whole target: the properties, the bases and steps that fit, the
last digit if there is only one, and the intervals around the examples. -/
def covering (grammar : Grammar) (intervals : List (Hypothesis size)) (target : NatSet) :
    Except Fault (List (Hypothesis size)) := do
  let numbers := integers target
  let fitting := (properties.map (Hypothesis.ofTerminal size)).filter fun property =>
    target ⊆ property.members
  let powers ← powers (← Discovery.fittingBases grammar numbers)
  let multiples ← multiples (← Discovery.fittingSteps grammar numbers)
  let endings :=
    match grammar.includeEndings, lastDigits target with
    | true, [digit] => endings [digit]
    | _, _ => []
  let found := fitting ++ (powers ++ multiples ++ endings).map (Hypothesis.ofTerminal size) ++
    intervals
  return found.filter fun hypothesis => !hypothesis.members.isEmpty

/-- The bases that fit some number of a target above one. -/
def partialBases (grammar : Grammar) (target : List Int) : Except Fault (List Int) := do
  let bases ← (target.filter (1 < ·)).mapM fun n => Discovery.fittingBases grammar [n]
  return Discovery.sortedDistinct bases.flatten

/-- The steps that fit some number of a target. -/
def partialMultiples (grammar : Grammar) (target : List Int) : Except Fault (List Int) := do
  let steps ← target.mapM fun n => Discovery.fittingSteps grammar [n]
  return Discovery.sortedDistinct steps.flatten

/-- The terminals other than intervals that contain a part of a target but not all of it. -/
def partlyCovering (grammar : Grammar) (target : NatSet) :
    Except Fault (List (Hypothesis size)) := do
  let numbers := integers target
  let bases ← partialBases grammar numbers
  let steps ← partialMultiples grammar numbers
  let powers ← powers bases
  let multiples ← multiples steps
  let endings := if grammar.includeEndings then endings (lastDigits target) else []
  let found := (properties ++ powers ++ multiples ++ endings).map (Hypothesis.ofTerminal size)
  return found.filter fun hypothesis =>
    let hit := hypothesis.members ∩ target
    !hit.isEmpty && hit != target

end NumberConcepts.Terminals
