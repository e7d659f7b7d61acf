import NumberConcepts.Belief.Information
import NumberConcepts.Belief.LogWeights
import NumberConcepts.Hypothesis.Space
import NumberConcepts.Prior
/-!
# Ranked posteriors

Candidates are weighted by their prior and by the likelihood of the examples
under random draws from their members, so that of two concepts that fit the
smaller one gains with every example. A `Posterior` lists them with their
probabilities, the most probable first. When no candidate has any weight there
is a `NoExplanation` instead; that is an answer and not a fault.
-/

namespace NumberConcepts

/-- No candidate explains the examples. -/
structure NoExplanation where
  examples : List Nat
  /-- How many candidates were drawn at random, if they were. -/
  samples : Option Int
deriving DecidableEq, Repr

namespace NoExplanation

/-- What reports say. -/
def reason (missing : NoExplanation) : String :=
  match missing.samples with
  | none => "No consistent hypotheses"
  | some samples => "No consistent programs in " ++ toString samples ++ " samples"

end NoExplanation

/-- An answer, or that nothing explains the examples. -/
abbrev Explained (β : Type) := Except NoExplanation β

/-- A candidate with its weight. -/
structure Assessment (α : Type) (size : Nat) where
  hypothesis : Hypothesis size
  /-- Its position in a hypothesis space, if it was taken from there. -/
  position : Option Int
  logPrior : α
  logLikelihood : α

/-- A candidate with its probability. -/
structure Ranked (α : Type) (size : Nat) extends Assessment α size where
  probability : α

/-- Candidates by decreasing probability, then by increasing size, then by written form. -/
structure Posterior (α : Type) (size : Nat) where
  examples : List Nat
  entries : List (Ranked α size)
  logNormalizer : α

variable {α : Type} [Scalar α] {size : Nat}

namespace Assessment

/-- A candidate assessed by examples; one without members is none. -/
def ofHypothesis (prior : Prior α) (examples : List Nat) (position : Option Int)
    (hypothesis : Hypothesis size) : Except Fault (Option (Assessment α size)) :=
  if hypothesis.members.isEmpty then .ok none
  else do
    let logPrior ← prior.logPrior size hypothesis.concept (some hypothesis.count)
    let consistent := hypothesis.containsAll (examples.map Int.ofNat)
    let logLikelihood := LogWeights.logLikelihood hypothesis.count examples.length consistent
    return some { hypothesis, position, logPrior, logLikelihood }

/-- The logarithm of the weight. -/
def logWeight (assessment : Assessment α size) : α :=
  assessment.logPrior + assessment.logLikelihood

end Assessment

namespace Ranked

/-- The first candidate stands before the second, or they are alike. -/
def precedes (a b : Ranked α size) : Bool :=
  if Scalar.lt b.probability a.probability then true
  else if Scalar.lt a.probability b.probability then false
  else if a.hypothesis.count < b.hypothesis.count then true
  else if b.hypothesis.count < a.hypothesis.count then false
  else !decide (b.hypothesis.key < a.hypothesis.key)

end Ranked

namespace Posterior

/-- The posterior of assessed candidates. -/
def ofAssessments? (examples : List Nat) (assessments : List (Assessment α size)) :
    Option (Posterior α size) :=
  let logWeights := assessments.map Assessment.logWeight
  (LogWeights.normalize? logWeights).map fun probabilities => {
    examples
    entries := (List.zipWith (fun assessment probability => { assessment with probability })
      assessments probabilities).mergeSort Ranked.precedes
    logNormalizer := LogWeights.logTotal logWeights }

/-- The posterior of assessed candidates, or that there is none. -/
def ofAssessments (examples : List Nat) (assessments : List (Assessment α size)) :
    Explained (Posterior α size) :=
  match ofAssessments? examples assessments with
  | some posterior => .ok posterior
  | none => .error { examples, samples := none }

/-- Candidates ranked by examples. -/
def rank (prior : Prior α) (candidates : List (Hypothesis size)) (examples : List Nat) :
    Except Fault (Explained (Posterior α size)) := do
  let assessments ← candidates.mapM (Assessment.ofHypothesis prior examples none)
  return ofAssessments examples (assessments.filterMap id)

variable (posterior : Posterior α size)

/-- The probabilities in order. -/
def probabilities : List α := posterior.entries.map Ranked.probability

/-- The first candidates, by a count that may be negative. -/
def top (count : Int) : List (Ranked α size) := Sequence.first count posterior.entries

/-- The most probable candidate. -/
def best? : Option (Ranked α size) := posterior.entries.head?

/-- The probability of a concept, zero when it is no candidate. -/
def probabilityOf (concept : Concept) : α :=
  Scalar.sum ((posterior.entries.filter fun entry => entry.hypothesis.concept == concept).map
    Ranked.probability)

/-- The entropy of the posterior. -/
def entropy : α := Information.entropy posterior.probabilities

end Posterior

namespace HypothesisSpace

variable (space : HypothesisSpace)

/-- The hypotheses at some positions ranked by examples. The positions are taken in increasing
order, and negative ones count from the end. -/
def rankPositions (prior : Prior α) (positions : List Int) (examples : List Nat) :
    Except Fault (Explained (Posterior α space.domain.size)) := do
  let assessments ← (positions.mergeSort (· ≤ ·)).mapM fun position => do
    let hypothesis ← space.hypothesis position
    Assessment.ofHypothesis prior examples (some position) hypothesis
  return Posterior.ofAssessments examples (assessments.filterMap id)

/-- The hypotheses that the index finds consistent with the examples, ranked by them. -/
def posterior (prior : Prior α) (examples : List Nat) :
    Except Fault (Explained (Posterior α space.domain.size)) :=
  let remaining := space.consistent examples
  if remaining.isEmpty then .ok (.error { examples, samples := none })
  else space.rankPositions prior (remaining.toList.map Int.ofNat) examples

end HypothesisSpace

end NumberConcepts
