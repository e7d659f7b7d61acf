import NumberConcepts.Belief.Vector
import NumberConcepts.Concept.Construction
import NumberConcepts.Random.Source
import NumberConcepts.Search.Grammar
import NumberConcepts.Search.Roster
/-!
# Simulation

The generative story: a hypothesis is drawn from the prior, and examples are
drawn from its members. `recover` tells the story and then infers the hypothesis
back. `sampledPosterior` draws random concepts from the grammar instead of
listing them, and weighs those that fit by how often they were drawn.
-/

namespace NumberConcepts

variable {α σ : Type} [Scalar α] [RandomSource α σ]

namespace Simulation

/-- Members of a set, drawn with replacement; none from an empty set. -/
def drawMembers (α : Type) [RandomSource α σ] (members : NatSet) (count : Nat) :
    Draw σ (List Nat) :=
  let items := members.toList
  if items.isEmpty then return [] else Draw.times (Draw.choice α items) count

/-- A position of a list of logarithmic weights. -/
def drawPosition (logWeights : List α) : Draw σ Nat :=
  match LogWeights.normalize? logWeights with
  | none => throw .weightless
  | some probabilities => Draw.weighted probabilities

/-- A terminal of the grammar, each family as probable; the last digits are a family only where the
grammar includes them. -/
def drawTerminal (α : Type) [RandomSource α σ] (grammar : Grammar) (size : Nat) :
    Draw σ Terminal := do
  let family ← Draw.below α (if grammar.includeEndings then 5 else 4)
  match family with
  | 0 => return .primitive (← Draw.choice α Primitive.all)
  | 1 =>
    let base ← Draw.choice α grammar.powerBases
    Draw.ofExcept (Terminal.checkPowerOf (.int base))
  | 2 =>
    let step ← Draw.choice α grammar.multiples
    Draw.ofExcept (Terminal.checkMultipleOf (.int step))
  | 4 =>
    let digit ← Draw.between α 0 9
    Draw.ofExcept (Terminal.checkEndsIn (.int digit))
  | _ =>
    let low ← Draw.between α 1 size
    let high ← Draw.between α low size
    Draw.ofExcept (Terminal.checkInterval (.int low) (.int high))

/-- The probability of a terminal at a depth: none at depth zero, and ever more below. -/
def stopProbability (depth : Int) : Except Fault α :=
  if depth = -2 then .error .zeroDivisor
  else .ok (Scalar.ofInt depth / (Scalar.ofInt depth + Scalar.ofNat 2))

/-- A concept with at most `remaining` operations above each terminal, at a depth of its own. The
deeper it lies, the more probably it is a terminal. -/
def drawConceptAbove (α : Type) [Scalar α] [RandomSource α σ] (grammar : Grammar) (size : Nat) :
    Nat → Draw σ Concept
  | 0 => return .terminal (← drawTerminal α grammar size)
  | remaining + 1 => do
    let depth := Concept.maxDepth - ((remaining + 1 : Nat) : Int)
    let stop : α ← Draw.ofExcept (stopProbability depth)
    if Scalar.lt (← Draw.unit α) stop then
      return .terminal (← drawTerminal α grammar size)
    let coin ← Draw.unit α
    let half : α := Scalar.one / Scalar.ofNat 2
    let operation := if Scalar.lt coin half then Operation.union else Operation.intersect
    let left ← drawConceptAbove α grammar size remaining
    let right ← drawConceptAbove α grammar size remaining
    Draw.ofExcept (Concept.checkCombine operation left right)

/-- A random concept that starts at a depth. -/
def drawConcept (α : Type) [Scalar α] [RandomSource α σ] (grammar : Grammar) (size : Nat)
    (depth : Int) : Draw σ Concept :=
  drawConceptAbove α grammar size (Concept.maxDepth - depth).toNat

end Simulation

/-- A drawn hypothesis with examples drawn from it. -/
structure SimulatedExamples (size : Nat) where
  position : Nat
  hypothesis : Hypothesis size
  examples : List Nat

/-- What was inferred from drawn examples. -/
structure RecoveryOutcome (α : Type) where
  best : String
  bestProbability : α
  trueProbability : α
  recovered : Bool
  recoveredMembers : Bool

/-- A drawn hypothesis, examples drawn from it, and what was inferred from them. -/
structure RecoveryTrial (α : Type) where
  trueKey : String
  trueSize : Nat
  examples : List Nat
  /-- How many examples were asked for. -/
  asked : Int
  /-- What was inferred, unless nothing explains the examples. -/
  outcome : Option (RecoveryOutcome α)

/-- The posterior over random concepts. -/
structure SampledPosterior (α : Type) (size : Nat) where
  /-- How many concepts were asked for. -/
  samples : Int
  accepted : Nat
  posterior : Explained (Posterior α size)

namespace SampledPosterior

variable {size : Nat}

/-- The share of the concepts that fit; zero of none. -/
def acceptance (sampled : SampledPosterior α size) : α :=
  if sampled.samples = 0 then Scalar.zero
  else Scalar.ofNat sampled.accepted / Scalar.ofInt sampled.samples

/-- How often each concept occurs in a list. -/
def tally (hypotheses : List (Hypothesis size)) : Std.HashMap Concept Nat :=
  hypotheses.foldl (fun counts hypothesis =>
    counts.insert hypothesis.concept (counts.getD hypothesis.concept 0 + 1)) ∅

/-- A drawn concept that fits, weighted by how often it was drawn. -/
def assess (samples : Int) (examples : List Nat) (count : Nat) (hypothesis : Hypothesis size) :
    Assessment α size where
  hypothesis
  position := none
  logPrior := Scalar.log (Scalar.ofNat count / Scalar.ofInt samples)
  logLikelihood := LogWeights.logLikelihood hypothesis.count examples.length true

/-- The posterior over drawn concepts. -/
def ofDrawn (samples : Int) (examples : List Nat) (drawn : List (Hypothesis size)) :
    SampledPosterior α size :=
  let accepted := drawn.filter fun hypothesis =>
    !hypothesis.members.isEmpty && hypothesis.containsAll (examples.map Int.ofNat)
  let counts := tally accepted
  let distinct := (Roster.empty.insertAll accepted).toList
  let assessments := distinct.map fun hypothesis =>
    assess samples examples (counts.getD hypothesis.concept 0) hypothesis
  { samples
    accepted := accepted.length
    posterior :=
      match Posterior.ofAssessments? examples assessments with
      | some posterior => .ok posterior
      | none => .error { examples, samples := some samples } }

end SampledPosterior

namespace HypothesisSpace

variable (space : HypothesisSpace)

/-- The position of a hypothesis drawn from the prior. -/
def drawHypothesis (prior : Prior α) : Draw σ Nat := do
  let logPriors ← Draw.ofExcept (space.logPriors prior)
  Simulation.drawPosition logPriors

/-- A hypothesis drawn from the prior, with examples drawn from its members. -/
def simulate (prior : Prior α) (count : Int) :
    Draw σ (SimulatedExamples space.domain.size) := do
  let position ← space.drawHypothesis prior
  let hypothesis ← Draw.ofExcept (space.hypothesis position)
  let examples ← Simulation.drawMembers α hypothesis.members count.toNat
  return { position, hypothesis, examples }

/-- What a posterior says about the hypothesis that the examples were drawn from. -/
def compareTruth {size : Nat} (truth : Hypothesis size) (posterior : Posterior α size) :
    Option (RecoveryOutcome α) :=
  posterior.best?.map fun best => {
    best := best.hypothesis.key
    bestProbability := best.probability
    trueProbability := posterior.probabilityOf truth.concept
    recovered := best.hypothesis.concept == truth.concept
    recoveredMembers := best.hypothesis.members == truth.members }

/-- A trial of recovery: examples are drawn from a hypothesis, which is inferred back. -/
def recover (prior : Prior α) (count : Int) : Draw σ (RecoveryTrial α) := do
  let drawn ← space.simulate prior count
  let posterior ← Draw.ofExcept (space.posterior prior drawn.examples)
  return {
    trueKey := drawn.hypothesis.key
    trueSize := drawn.hypothesis.count
    examples := drawn.examples
    asked := count
    outcome :=
      match posterior with
      | .ok posterior => compareTruth drawn.hypothesis posterior
      | .error _ => none }

/-- The posterior over random concepts. -/
def sampledPosterior (α : Type) [Scalar α] [RandomSource α σ] (grammar : Grammar) (samples : Int)
    (examples : List Nat) : Draw σ (SampledPosterior α space.domain.size) := do
  let size := space.domain.size
  let drawn ← Draw.times (Simulation.drawConcept α grammar size 0) samples.toNat
  return SampledPosterior.ofDrawn samples examples (drawn.map (Hypothesis.ofConcept size))

end HypothesisSpace

end NumberConcepts
