import NumberConcepts.Belief.Posterior
/-!
# Elimination

Each example eliminates the hypotheses that lack it. This module records how the
consistent set shrinks, which hypotheses an example eliminates, and which
further example would eliminate most.
-/

namespace NumberConcepts

/-- The hypotheses before and after one more example. -/
structure EliminationStep (α : Type) (size : Nat) where
  step : Nat
  /-- The last example seen, unless none has been. -/
  after : Option Nat
  remaining : Nat
  eliminated : Nat
  /-- The part of what was left before that the last example eliminated. -/
  rate : α
  /-- The most probable of those that are left, unless no example has been seen. -/
  top : Option (List (Ranked α size))

/-- How the consistent set shrinks as examples arrive. -/
structure Trajectory (α : Type) (size : Nat) where
  examples : List Nat
  /-- A step for each initial part of the examples, the empty part first. -/
  steps : List (EliminationStep α size)
  initial : Nat
  final : Nat

namespace Trajectory

variable {α : Type} [Scalar α] {size : Nat}

/-- How many hypotheses are not consistent with all examples. -/
def eliminated (trajectory : Trajectory α size) : Int := trajectory.initial - trajectory.final

/-- The ratio of the first and the last number of hypotheses, where none counts as one. -/
def gain (trajectory : Trajectory α size) : α :=
  Scalar.ofNat trajectory.initial / Scalar.ofNat (max 1 trajectory.final)

end Trajectory

namespace HypothesisSpace

variable {α : Type} [Scalar α] (space : HypothesisSpace)

/-- The consistent positions after each initial part of the examples. -/
def consistentSteps (examples : List Nat) : List NatSet :=
  space.index.stages (examples.map Int.ofNat)

/-- The share that a count is of a total; zero of none. -/
def share (count total : Nat) : α :=
  if total = 0 then Scalar.zero else Scalar.ofNat count / Scalar.ofNat total

/-- The step to the set left after the first `seen + 1` examples. -/
def eliminationStep (prior : Prior α) (examples : List Nat) (topCount : Int) (seen : Nat)
    (before after : NatSet) : Except Fault (EliminationStep α space.domain.size) := do
  let posterior ← space.posterior prior (examples.take (seen + 1))
  let eliminated := before.size - after.size
  return {
    step := seen + 1
    after := examples[seen]?
    remaining := after.size
    eliminated
    rate := share eliminated before.size
    top := some (match posterior with
      | .ok posterior => posterior.top topCount
      | .error _ => []) }

/-- The record of all steps. -/
def trajectory (prior : Prior α) (examples : List Nat) (topCount : Int) :
    Except Fault (Trajectory α space.domain.size) := do
  let sets := space.consistentSteps examples
  let start : EliminationStep α space.domain.size := {
    step := 0
    after := none
    remaining := space.index.all.size
    eliminated := 0
    rate := Scalar.zero
    top := none }
  let later ← ((sets.zip sets.tail).zipIdx).mapM fun ((before, after), seen) =>
    space.eliminationStep prior examples topCount seen before after
  return {
    examples
    steps := start :: later
    initial := space.count
    final := (sets.getLastD space.index.all).size }

/-- The positions that the example at a step eliminates. -/
def eliminatedAt (examples : List Nat) (step : Int) : Except Fault NatSet :=
  if 0 ≤ step ∧ step < examples.length then
    let sets := space.consistentSteps (examples.take (step.toNat + 1))
    .ok (sets.getD step.toNat ∅ \ sets.getD (step.toNat + 1) ∅)
  else
    .error (.noSuchStep step examples.length)

/-- The written forms of hypotheses that the example at a step eliminates, by a count that may be
negative. -/
def eliminatedKeys (examples : List Nat) (step count : Int) : Except Fault (List String) := do
  let positions ← space.eliminatedAt examples step
  return Sequence.first count ((space.select positions).map Hypothesis.key)

/-- How many of the positions one more number would eliminate. -/
def eliminationCount (current : NatSet) (number : Int) : Nat :=
  current.size - (current ∩ space.index.containing number).size

/-- The numbers that belong to a consistent hypothesis, with how many of these they would
eliminate; those that eliminate most first, then the lesser ones. -/
def informativeNumbers (examples : List Nat) (count : Int) : List (Nat × Nat) :=
  let remaining := space.consistent examples
  let candidates := (space.select remaining).foldl
    (fun union hypothesis => union ∪ hypothesis.members) ∅
  let scored := candidates.toList.map fun (n : Nat) =>
    (n, space.eliminationCount remaining n)
  Sequence.first count (scored.mergeSort fun a b =>
    decide (b.2 < a.2) || (decide (a.2 = b.2) && decide (a.1 ≤ b.1)))

end HypothesisSpace

end NumberConcepts
