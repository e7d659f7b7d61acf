import Mathlib.Algebra.BigOperators.Field
import NumberConcepts.Proofs.Belief.Vector
/-!
# The evidence of examples

The probability of the examples before any is seen is the mean likelihood under
the prior. Over everything that may be drawn next it sums to the probability of
the examples at hand, and so to one over all sequences of a length.
-/

namespace NumberConcepts.HypothesisSpace

open LogWeights Exact

variable {space : HypothesisSpace} {prior : Prior Exact}

/-- The probability of the examples before any is seen; zero for a prior without any weight. -/
noncomputable def evidence (space : HypothesisSpace) (prior : Prior Exact) (examples : List Nat) :
    ℝ :=
  (space.jointWeights prior examples).sum / space.priorTotal prior

/-- Sums of evidence are taken for each hypothesis on its own. -/
theorem sum_evidence_eq {ι : Type} (indices : Finset ι) (examples : ι → List Nat) :
    ∑ index ∈ indices, space.evidence prior (examples index) =
      (space.hypotheses.toList.map fun hypothesis =>
        prior.weightOf hypothesis * ∑ index ∈ indices, hypothesis.likelihood (examples index)).sum /
          space.priorTotal prior := by
  have exchanged : ∑ index ∈ indices, (space.jointWeights prior (examples index)).sum =
      (space.hypotheses.toList.map fun hypothesis =>
        ∑ index ∈ indices, prior.weightAfter (examples index) hypothesis).sum := by
    simp only [jointWeights, ← Multiset.sum_coe, ← Multiset.map_coe, Multiset.sum_map_sum]
  simp only [evidence, ← Finset.sum_div, exchanged, Prior.weightAfter, Finset.mul_sum]

/-- Without examples the evidence is one, if there is any prior weight. -/
theorem evidence_nil (some : space.priorTotal prior ≠ 0) : space.evidence prior [] = 1 :=
  div_self some

/-- A hypothesis whose prior weight has a logarithm gives the prior some weight. -/
theorem priorTotal_ne_zero (finite : prior.FinitelyWeighted)
    {hypothesis : Hypothesis space.domain.size} (listed : hypothesis ∈ space.hypotheses)
    {logarithm : ℝ} (hasWeight : prior.logPrior space.domain.size hypothesis.concept
      (some hypothesis.count) = .ok (.real logarithm)) :
    space.priorTotal prior ≠ 0 := by
  have some := finite.weightOf_pos hasWeight
  rw [← Prior.weightAfter_nil] at some
  exact sum_jointWeights_ne_zero finite listed some

namespace Sound

variable (sound : space.Sound)

include sound

/-- The marginal likelihood is the logarithm of the evidence. -/
theorem exp_logMarginal (finite : prior.FinitelyWeighted) (examples : List Nat) :
    ∃ logarithm, space.logMarginal prior examples = .ok logarithm ∧
      Scalar.exp logarithm = .real (space.evidence prior examples) := by
  obtain ⟨entries, succeeds, weights⟩ := sound.logBeliefs_eq_ok finite examples
  refine ⟨logTotal entries, ?_, ?_⟩
  · rw [logMarginal, succeeds]
    rfl
  · rw [exp_logTotal, weights, List.sum_map_mul_right, List.map_id', ← div_eq_mul_inv, evidence]

/-- Over all numbers that may be drawn next the evidence sums to that of the examples. -/
theorem sum_evidence_append (examples : List Nat) :
    ∑ n ∈ Finset.Icc 1 space.domain.size, space.evidence prior (examples ++ [n]) =
      space.evidence prior examples := by
  rw [sum_evidence_eq, evidence, jointWeights]
  congr 2
  refine List.map_congr_left fun hypothesis listed => ?_
  have member := Array.mem_toList_iff.1 listed
  rw [Hypothesis.sum_likelihood_append (sound.inhabited _ member) (sound.inside _ member),
    Prior.weightAfter]

/-- Over all sequences of a length the evidence sums to that of no examples. -/
theorem sum_evidence (length : Nat) :
    ∑ draws ∈ Fintype.piFinset fun _ : Fin length => Finset.Icc 1 space.domain.size,
      space.evidence prior (List.ofFn draws) = space.evidence prior [] := by
  rw [sum_evidence_eq, evidence, jointWeights]
  congr 2
  refine List.map_congr_left fun hypothesis listed => ?_
  have member := Array.mem_toList_iff.1 listed
  rw [Hypothesis.sum_likelihood (sound.inhabited _ member) (sound.inside _ member), mul_one,
    Prior.weightAfter_nil]

end Sound

/-- Over the base space of a domain, the exponentials of the marginal likelihoods are
probabilities: they stay in sum when one more number is drawn. If some hypothesis has a prior
weight, no examples have the probability one, and so have all sequences of a length together. -/
theorem marginal_is_distribution (domain : Domain) (finite : prior.FinitelyWeighted) :
    ∃ probability : List Nat → ℝ,
      (∀ examples, ∃ logarithm, (base domain).logMarginal prior examples = .ok logarithm ∧
        Scalar.exp logarithm = .real (probability examples)) ∧
      (∀ examples, ∑ n ∈ Finset.Icc 1 domain.size, probability (examples ++ [n]) =
        probability examples) ∧
      ((∃ hypothesis ∈ (base domain).hypotheses, ∃ logarithm : ℝ,
        prior.logPrior domain.size hypothesis.concept (some hypothesis.count) =
          .ok (.real logarithm)) →
        probability [] = 1 ∧
        ∀ length, ∑ draws ∈ Fintype.piFinset fun _ : Fin length => Finset.Icc 1 domain.size,
          probability (List.ofFn draws) = 1) := by
  have sound := sound_base domain
  refine ⟨(base domain).evidence prior, sound.exp_logMarginal finite,
    sound.sum_evidence_append, ?_⟩
  rintro ⟨hypothesis, listed, logarithm, hasWeight⟩
  have none := evidence_nil (priorTotal_ne_zero finite listed hasWeight)
  exact ⟨none, fun length => (sound.sum_evidence length).trans none⟩

/-- Over six numbers the uniform prior makes all sequences of a length certain together. -/
theorem uniform_marginal_is_distribution_over_six :
    ∃ probability : List Nat → ℝ,
      (∀ examples, ∃ logarithm : Exact,
        (base ⟨6, by decide⟩).logMarginal .uniform examples = .ok logarithm ∧
          Scalar.exp logarithm = .real (probability examples)) ∧
      (∀ examples, ∑ n ∈ Finset.Icc 1 6, probability (examples ++ [n]) = probability examples) ∧
      probability [] = 1 ∧
      ∀ length, ∑ draws ∈ Fintype.piFinset fun _ : Fin length => Finset.Icc 1 6,
        probability (List.ofFn draws) = 1 := by
  let domain : Domain := ⟨6, by decide⟩
  let even : Hypothesis 6 := .ofTerminal 6 (.primitive .even)
  have named : Prior.named? "uniform" = some (Prior.uniform : Prior Exact) := rfl
  have listed : even ∈ (base domain).hypotheses :=
    mem_ofConcepts.2 ⟨by decide, NatSet.ne_empty_of_mem (n := 2) (by decide)⟩
  obtain ⟨probability, isMarginal, next, certain⟩ :=
    marginal_is_distribution domain (.of_named named)
  exact ⟨probability, isMarginal, next,
    certain ⟨even, listed, _, Prior.logPrior_uniform_terminal 6 _ _⟩⟩

end NumberConcepts.HypothesisSpace
