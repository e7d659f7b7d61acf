import NumberConcepts.Proofs.CommandLine.Session
import NumberConcepts.Proofs.Elimination
import NumberConcepts.Proofs.Prediction
import NumberConcepts.Proofs.Sampling
import NumberConcepts.Proofs.Search.Budget
/-!
# What a survey covers

Under valid settings a survey fails only where a sequence of examples is empty or leaves the
domain: `entry_yields` and `entry_fails` are the step and `run_settles` the run. Otherwise no part
of it can fail, whatever is drawn, and there is an entry for each sequence.
-/

namespace NumberConcepts

namespace TrajectorySurvey

variable {settings : Settings Exact} {examples : List Nat} {given : List Int}

/-- The concepts found for examples of the domain are ranked, and the best is known unless nothing
explains the examples. -/
theorem findConcepts_eq_ok (valid : settings.Valid) (finite : settings.prior.FinitelyWeighted)
    (admitted : settings.domain.HasExamples examples) :
    ∃ concepts answer found,
      (HypothesisSpace.base settings.domain).synthesize settings.synthesis examples =
        .ok concepts ∧
      Posterior.rank settings.prior concepts examples = .ok answer ∧
      findConcepts (.base settings.domain) settings examples = .ok found ∧
      found.count = concepts.length ∧ (found.best = none ↔ answer.toOption = none) := by
  obtain ⟨concepts, searched, _⟩ := HypothesisSpace.synthesize_within settings.domain
    settings.synthesis valid.inRange admitted
  have notEmpty : examples.isEmpty = false := by simpa using admitted.given
  let assessments : List (Assessment Exact settings.domain.size) :=
    (concepts.filter fun hypothesis => hypothesis.members ≠ ∅).map
      (.assess settings.prior examples none)
  let answer := Posterior.ofAssessments examples assessments
  have ranked : Posterior.rank settings.prior concepts examples = .ok answer :=
    Posterior.rank_eq_ok finite concepts examples
  let found : FoundConcepts Exact := {
    count := concepts.length
    best := (answer.toOption.bind Posterior.best?).map fun best =>
      (best.hypothesis.key, best.probability) }
  have succeeds : findConcepts (.base settings.domain) settings examples = .ok found := by
    simp only [findConcepts, notEmpty, searched, ranked, bind, Except.bind]
    rfl
  refine ⟨concepts, answer, found, searched, ranked, succeeds, rfl, ?_⟩
  rw [Option.map_eq_none_iff]
  exact Posterior.best?_ofAssessments_eq_none_iff assessments

/-- How far the prior matters can always be said. -/
theorem divergenceFromUniform_eq_ok (finite : settings.prior.FinitelyWeighted)
    (examples : List Nat) :
    ∃ divergence, divergenceFromUniform (.base settings.domain) settings examples =
      .ok divergence := by
  have sound := HypothesisSpace.sound_base settings.domain
  have named : Prior.named? "uniform" = some (Prior.uniform : Prior Exact) := rfl
  have believed := sound.posteriorBeliefs_eq_ok finite examples
  have uniform := sound.posteriorBeliefs_eq_ok (.of_named named) examples
  simp only [divergenceFromUniform, believed, uniform, bind, Except.bind]
  split
  next beliefs uniformBeliefs explained explainedToo =>
    have same : beliefs.length = uniformBeliefs.length := by
      rw [HypothesisSpace.length_of_bayes explained, HypothesisSpace.length_of_bayes explainedToo]
    rw [Information.divergence, if_pos same]
    exact ⟨_, rfl⟩
  next => exact ⟨_, rfl⟩

/-- What an entry says about the sequence of examples at a position. -/
structure Covers (settings : Settings Exact) (given : List Int × Nat)
    (entry : SurveyEntry Exact (HypothesisSpace.base settings.domain).domain.size) : Prop where
  position : entry.position = given.2
  examples : entry.trajectory.examples.map Int.ofNat = given.1
  steps : entry.trajectory.steps.length = given.1.length + 1
  predictions : ∀ values, entry.predictions = .ok values → values.length = settings.domain.size
  found : ∃ concepts answer,
    (HypothesisSpace.base settings.domain).synthesize settings.synthesis
      entry.trajectory.examples = .ok concepts ∧
    Posterior.rank settings.prior concepts entry.trajectory.examples = .ok answer ∧
    entry.found.count = concepts.length ∧ (entry.found.best = none ↔ answer.toOption = none)
  /-- Random concepts that fit are legal and were drawn, so they have a prior weight. -/
  sampled : ∀ posterior, entry.sampled.posterior = .ok posterior →
    ∀ candidate ∈ posterior.entries, candidate.hypothesis.concept.Legal ∧
      ∃ logarithm : ℝ, candidate.logPrior = .real logarithm

section Draws

variable {σ : Type} [RandomSource Exact σ]

/-- A sequence of examples of the domain has its entry. -/
theorem entry_yields (valid : settings.Valid) (finite : settings.prior.FinitelyWeighted)
    (bounded : RandomSource.Bounded Exact σ) (accepts : settings.domain.Accepts given)
    (position : Nat) :
    (entry (.base settings.domain) settings given position : Draw σ _).Yields
      (Covers settings (given, position)) := by
  obtain ⟨examples, rfl, admitted⟩ := accepts.exists_examples
  have sound := HypothesisSpace.sound_base settings.domain
  have validated : (HypothesisSpace.base settings.domain).domain.validate
      ((examples.map Int.ofNat).map .int) = .ok examples := by
    rw [List.map_map]
    exact Domain.validate_eq_ok admitted.inside
  obtain ⟨trajectory, recorded, isFor, steps⟩ :=
    sound.trajectory_eq_ok finite examples settings.study.topCount
  obtain ⟨predictions, predicted, length⟩ := sound.exists_predictions finite examples
  obtain ⟨concepts, answer, found, searched, ranked, finds, count, best⟩ :=
    findConcepts_eq_ok valid finite admitted
  obtain ⟨divergence, diverges⟩ := divergenceFromUniform_eq_ok finite examples
  have sampled := HypothesisSpace.sampledPosterior_yields bounded valid.drawable
    (.base settings.domain) settings.study.samples examples
  have positive : (0 : ℝ) < settings.study.samples := by exact_mod_cast valid.study.samples
  rw [entry, Draw.ofExcept_bind validated, Draw.ofExcept_bind recorded,
    Draw.ofExcept_bind predicted, Draw.ofExcept_bind finds, Draw.ofExcept_bind diverges]
  refine sampled.bind fun sampled fits => .pure ?_
  constructor
  case position => rfl
  case examples => exact congrArg (List.map Int.ofNat) isFor
  case steps => rw [steps, List.length_map]
  case predictions => exact length
  case found => exact ⟨concepts, answer, isFor ▸ searched, isFor ▸ ranked, count, best⟩
  case sampled =>
    intro posterior explained candidate isCandidate
    obtain ⟨legal, _, times, drawn, weighed⟩ := fits posterior explained candidate isCandidate
    have some : (0 : ℝ) < times := by exact_mod_cast drawn
    rw [weighed, Exact.ofNat_eq, Exact.ofInt_eq, Int.cast_natCast, Exact.real_div_real positive.ne',
      Exact.log_real (div_pos some positive)]
    exact ⟨legal, _, rfl⟩

/-- Where every sequence is one of examples of the domain, each has its entry. -/
theorem run_yields (valid : settings.Valid) (finite : settings.prior.FinitelyWeighted)
    (bounded : RandomSource.Bounded Exact σ)
    (accepts : ∀ given ∈ settings.study.exampleSets, settings.domain.Accepts given) :
    (run (.base settings.domain) settings : Draw σ _).Yields
      (List.Forall₂ (Covers settings) settings.study.exampleSets.zipIdx) :=
  Draw.Yields.mapM fun entry listed =>
    entry_yields valid finite bounded (accepts entry.1 (List.fst_mem_of_mem_zipIdx listed)) entry.2

end Draws

end TrajectorySurvey

end NumberConcepts
