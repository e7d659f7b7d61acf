import NumberConcepts.Elimination
import NumberConcepts.Prediction
import NumberConcepts.Search.Synthesis
import NumberConcepts.Settings.Basic
import NumberConcepts.Simulation
import NumberConcepts.Text.Integer
/-!
# Trajectory surveys

A survey looks at several sequences of examples from all sides: how they
eliminate hypotheses, which numbers they predict, which concept found for them is
best, how far the prior matters, and what random concepts say.
-/

namespace NumberConcepts

variable {α σ : Type} [Scalar α] [RandomSource α σ]

/-- The concepts found for some examples in short. -/
structure FoundConcepts (α : Type) where
  count : Nat
  /-- The best of them and its probability, unless none has any. -/
  best : Option (String × α)

/-- What a survey says about one sequence of examples. -/
structure SurveyEntry (α : Type) (size : Nat) where
  position : Nat
  trajectory : Trajectory α size
  predictions : Explained (List α)
  found : FoundConcepts α
  /-- How far the posterior is from the one under the uniform prior, where both exist. -/
  divergence : Option α
  sampled : SampledPosterior α size

namespace SurveyEntry

variable {size : Nat} (entry : SurveyEntry α size)

/-- The written form of the examples. -/
def label : String := Text.writeIntegers (entry.trajectory.examples.map Int.ofNat)

/-- The expected number of members, where something explains the examples. -/
def effectiveSize : Option α :=
  entry.predictions.toOption.map fun values =>
    (HypothesisSpace.CurveStatistics.ofList values).effectiveSize

/-- The best of the random concepts. -/
def bestSample : Option String :=
  (entry.sampled.posterior.toOption.bind Posterior.best?).map fun best => best.hypothesis.key

end SurveyEntry

/-- The search that the settings ask for. -/
def Settings.synthesis (settings : Settings α) : Synthesis where
  strategy := settings.search.strategy
  grammar := settings.searchGrammar
  depth := settings.search.maxDepth
  limit := settings.search.maxResults

namespace TrajectorySurvey

variable (space : HypothesisSpace) (settings : Settings α)

/-- The concepts found for some examples, of which there must be one. -/
def findConcepts (examples : List Nat) : Except Fault (FoundConcepts α) := do
  if examples.isEmpty then throw .noExamples
  let found ← space.synthesize settings.synthesis examples
  let ranked ← Posterior.rank settings.prior found examples
  return {
    count := found.length
    best := (ranked.toOption.bind Posterior.best?).map fun best =>
      (best.hypothesis.key, best.probability) }

/-- How far the posterior is from the one under the uniform prior. -/
def divergenceFromUniform (examples : List Nat) : Except Fault (Option α) := do
  let beliefs ← space.posteriorBeliefs settings.prior examples
  let uniformBeliefs ← space.posteriorBeliefs .uniform examples
  match beliefs, uniformBeliefs with
  | .ok beliefs, .ok uniformBeliefs =>
    return some (← Information.divergence beliefs uniformBeliefs)
  | _, _ => return none

/-- What the survey says about a sequence of examples. -/
def entry (given : List Int) (position : Nat) : Draw σ (SurveyEntry α space.domain.size) := do
  let examples ← Draw.ofExcept (space.domain.validate (given.map .int))
  let trajectory ← Draw.ofExcept
    (space.trajectory settings.prior examples settings.study.topCount)
  let predictions ← Draw.ofExcept (space.predictions settings.prior examples)
  let found ← Draw.ofExcept (findConcepts space settings examples)
  let divergence ← Draw.ofExcept (divergenceFromUniform space settings examples)
  let sampled ← space.sampledPosterior α settings.searchGrammar settings.study.samples examples
  return { position, trajectory, predictions, found, divergence, sampled }

/-- The entries for all sequences of examples that the settings list. -/
def run : Draw σ (List (SurveyEntry α space.domain.size)) :=
  settings.study.exampleSets.zipIdx.mapM fun (given, position) =>
    entry space settings given position

end TrajectorySurvey

end NumberConcepts
