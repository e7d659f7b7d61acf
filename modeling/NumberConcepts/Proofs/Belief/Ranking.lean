import NumberConcepts.Proofs.Belief.Posterior
/-!
# The rule of Bayes for a list of concepts

A ranking shares probability out over the concepts with members, in proportion to
their weights: the prior weight times one chance in the size for each example, and
nothing for a concept that lacks an example. It ends without a posterior exactly
when no concept has any weight.
-/

namespace NumberConcepts

open Exact

variable {size : Nat} {prior : Prior Exact} {examples : List Nat}

namespace Prior

/-- The weight of a concept after the examples: the shares of its nodes and the factor for its size,
times one chance in its size for each example. A concept without members or without one of the
examples has no weight. -/
noncomputable def candidateWeight (prior : Prior Exact) (size : Nat) (examples : List Nat)
    (concept : Concept) : ℝ :=
  let members := concept.extension size
  if members ≠ ∅ ∧ ∀ n ∈ examples, n ∈ members then
    (concept.tags.map (prior.share size)).prod * prior.sizeFactor members.size *
      (members.size : ℝ)⁻¹ ^ examples.length
  else 0

theorem candidateWeight_of_empty {concept : Concept} (empty : concept.extension size = ∅) :
    prior.candidateWeight size examples concept = 0 :=
  if_neg fun both => both.1 empty

/-- With members, a concept has the weight of its hypothesis. -/
theorem candidateWeight_of_inhabited {concept : Concept}
    (inhabited : concept.extension size ≠ ∅) :
    prior.candidateWeight size examples concept =
      prior.weightAfter examples (.ofConcept size concept) := by
  have isMembers : (Hypothesis.ofConcept size concept).members = concept.extension size := rfl
  rw [candidateWeight, weightAfter, weightOf, Hypothesis.likelihood_eq, Hypothesis.count_eq,
    Hypothesis.concept_ofConcept, isMembers]
  by_cases contains : ∀ n ∈ examples, n ∈ concept.extension size
  · rw [if_pos ⟨inhabited, contains⟩, if_pos contains]
  · rw [if_neg fun both => contains both.2, if_neg contains, mul_zero]

theorem FinitelyWeighted.candidateWeight_nonneg (finite : prior.FinitelyWeighted)
    (concept : Concept) : 0 ≤ prior.candidateWeight size examples concept := by
  by_cases empty : concept.extension size = ∅
  · rw [candidateWeight_of_empty empty]
  · rw [candidateWeight_of_inhabited empty]
    exact finite.weightAfter_nonneg

end Prior

namespace Posterior

/-- The probability of one is shared out over the concepts of a list that have members, in
proportion to their weights. -/
structure Apportions (posterior : Posterior Exact size) (weight : Concept → ℝ)
    (concepts : List Concept) : Prop where
  shares : (posterior.entries.map fun entry => (entry.hypothesis.concept, entry.probability)).Perm
    ((concepts.filter fun concept => concept.extension size ≠ ∅).map fun concept =>
      (concept, .real (weight concept / (concepts.map weight).sum)))
  /-- A share is a probability, and zero only for a concept without weight. -/
  probability : ∀ entry ∈ posterior.entries, ∃ p : ℝ, entry.probability = .real p ∧ 0 ≤ p ∧ p ≤ 1 ∧
    (p = 0 ↔ weight entry.hypothesis.concept = 0)
  total : Scalar.sum posterior.probabilities = .real 1
  best : ∃ best, posterior.best? = some best ∧ ∃ p : ℝ, best.probability = .real p ∧ 0 < p

/-- Concepts without members and without weight add nothing to a sum of weights. -/
theorem sum_map_inhabited {weight : Concept → ℝ}
    (empties : ∀ concept : Concept, concept.extension size = ∅ → weight concept = 0)
    (concepts : List Concept) :
    ((concepts.filter fun concept => concept.extension size ≠ ∅).map weight).sum =
      (concepts.map weight).sum := by
  rw [Sequence.sum_map_filter]
  refine congrArg List.sum (List.map_congr_left fun concept _ => ?_)
  split
  next => rfl
  next empty => exact (empties concept (by simpa using empty)).symm

/-- Where weights do not sum to zero, some concept has a weight. -/
theorem exists_weight {weight : Concept → ℝ} {concepts : List Concept}
    (some : (concepts.map weight).sum ≠ 0) : ∃ concept ∈ concepts, weight concept ≠ 0 := by
  obtain ⟨_, listed, hasWeight⟩ := List.exists_mem_ne_zero_of_sum_ne_zero some
  obtain ⟨concept, given, rfl⟩ := List.mem_map.1 listed
  exact ⟨concept, given, hasWeight⟩

section Shares

variable {posterior : Posterior Exact size} {weight : Concept → ℝ} {concepts : List Concept}
  (shares : (posterior.entries.map fun entry =>
    (entry.hypothesis.concept, entry.probability)).Perm
      ((concepts.filter fun concept => concept.extension size ≠ ∅).map fun concept =>
        (concept, .real (weight concept / (concepts.map weight).sum))))

include shares

/-- A candidate has the share of its weight. -/
theorem probability_of_shares {entry : Ranked Exact size} (isEntry : entry ∈ posterior.entries) :
    entry.hypothesis.concept ∈ concepts ∧
      entry.probability =
        .real (weight entry.hypothesis.concept / (concepts.map weight).sum) := by
  have listed := shares.mem_iff.1 (List.mem_map.2 ⟨entry, isEntry, rfl⟩)
  obtain ⟨concept, kept, same⟩ := List.mem_map.1 listed
  obtain ⟨rfl, isShare⟩ := Prod.mk.inj same
  exact ⟨List.mem_of_mem_filter kept, isShare.symm⟩

/-- A concept with members is a candidate. -/
theorem exists_entry_of_shares {concept : Concept} (given : concept ∈ concepts)
    (inhabited : concept.extension size ≠ ∅) :
    ∃ entry ∈ posterior.entries, entry.hypothesis.concept = concept := by
  have kept : concept ∈ concepts.filter fun concept => concept.extension size ≠ ∅ :=
    List.mem_filter.2 ⟨given, decide_eq_true inhabited⟩
  obtain ⟨entry, isEntry, same⟩ :=
    List.mem_map.1 (shares.mem_iff.2 (List.mem_map.2 ⟨concept, kept, rfl⟩))
  exact ⟨entry, isEntry, (Prod.mk.inj same).1⟩

/-- All shares together are one, if concepts without members have no weight. -/
theorem sum_of_shares
    (empties : ∀ concept : Concept, concept.extension size = ∅ → weight concept = 0)
    (some : (concepts.map weight).sum ≠ 0) : Scalar.sum posterior.probabilities = .real 1 := by
  have probabilities : posterior.probabilities.Perm
      (((concepts.filter fun concept => concept.extension size ≠ ∅).map fun concept =>
        weight concept / (concepts.map weight).sum).map real) := by
    simpa [Posterior.probabilities, List.map_map, Function.comp_def] using shares.map Prod.snd
  rw [sum_perm probabilities, sum_map_real]
  simp only [div_eq_mul_inv]
  rw [List.sum_map_mul_right, sum_map_inhabited empties, mul_inv_cancel₀ some]

/-- Sorted candidates with their shares of weights that are not negative, and not all zero,
apportion the probability. -/
theorem apportions_of_shares (nonnegative : ∀ concept, 0 ≤ weight concept)
    (empties : ∀ concept : Concept, concept.extension size = ∅ → weight concept = 0)
    (some : (concepts.map weight).sum ≠ 0)
    (sorted : posterior.entries.Pairwise fun a b => a.place ≤ b.place) :
    posterior.Apportions weight concepts := by
  have weights : ∀ w ∈ concepts.map weight, 0 ≤ w := by
    rw [List.forall_mem_map]
    exact fun concept _ => nonnegative concept
  have positive : 0 < (concepts.map weight).sum :=
    lt_of_le_of_ne (List.sum_nonneg weights) some.symm
  refine ⟨shares, ?_, sum_of_shares shares empties some, ?_⟩
  · intro entry isEntry
    obtain ⟨given, isShare⟩ := probability_of_shares shares isEntry
    have part : weight entry.hypothesis.concept ≤ (concepts.map weight).sum :=
      List.single_le_sum weights _ (List.mem_map_of_mem given)
    refine ⟨_, isShare, div_nonneg (nonnegative _) positive.le, (div_le_one positive).2 part, ?_⟩
    rw [div_eq_zero_iff, or_iff_left some]
  · obtain ⟨concept, given, hasWeight⟩ := exists_weight some
    have inhabited : concept.extension size ≠ ∅ := fun empty => hasWeight (empties concept empty)
    obtain ⟨entry, isEntry, rfl⟩ := exists_entry_of_shares shares given inhabited
    have isShare := (probability_of_shares shares isEntry).2
    have someShare : 0 < entry.probability.value := by
      rw [isShare, value]
      exact div_pos (lt_of_le_of_ne (nonnegative _) hasWeight.symm) positive
    -- The first candidate is at least as probable as the one with a weight.
    obtain ⟨first, isEntry', isFirst, most⟩ := Ranked.exists_first_of_mem sorted isEntry
    have firstShare := (probability_of_shares shares isEntry').2
    refine ⟨first, isFirst, _, firstShare, ?_⟩
    rw [firstShare, value] at most
    exact someShare.trans_le most

end Shares

/-- A ranking of concepts ends without a posterior exactly when none of them has any weight, and
otherwise apportions the probability to their weights. -/
theorem rank_follows_bayes (finite : prior.FinitelyWeighted) (size : Nat) (concepts : List Concept)
    (examples : List Nat) :
    ∃ answer, rank prior (concepts.map (.ofConcept size)) examples = .ok answer ∧
      match answer with
      | .error missing => missing = { examples, samples := none } ∧
          ∀ concept ∈ concepts, prior.candidateWeight size examples concept = 0
      | .ok posterior =>
          (∃ concept ∈ concepts, prior.candidateWeight size examples concept ≠ 0) ∧
          posterior.Apportions (prior.candidateWeight size examples) concepts := by
  refine ⟨_, rank_eq_ok finite _ examples, ?_⟩
  let weight := prior.candidateWeight size examples
  let inhabited := concepts.filter fun concept => concept.extension size ≠ ∅
  have nonnegative : ∀ concept, 0 ≤ weight concept := finite.candidateWeight_nonneg
  have empties : ∀ concept : Concept, concept.extension size = ∅ → weight concept = 0 :=
    fun _ => Prior.candidateWeight_of_empty
  have candidates : ((concepts.map (Hypothesis.ofConcept size)).filter
      fun hypothesis => hypothesis.members ≠ ∅).map (Assessment.assess prior examples none) =
        inhabited.map fun concept =>
          Assessment.assess prior examples none (.ofConcept size concept) := by
    rw [List.filter_map, List.map_map]
    rfl
  have weights : ∀ concept ∈ inhabited,
      (Assessment.assess prior examples none (.ofConcept size concept)).logWeight.weight =
        weight concept := by
    intro concept kept
    have someMember := of_decide_eq_true (List.mem_filter.1 kept).2
    rw [Assessment.weight_assess finite someMember]
    exact (Prior.candidateWeight_of_inhabited someMember).symm
  have total : ((inhabited.map fun concept =>
      Assessment.assess prior examples none (.ofConcept size concept)).map fun candidate =>
        candidate.logWeight.weight).sum = (concepts.map weight).sum := by
    rw [List.map_map, ← sum_map_inhabited empties]
    exact congrArg List.sum (List.map_congr_left weights)
  rw [candidates]
  by_cases weightless : (concepts.map weight).sum = 0
  · rw [ofAssessments_eq_error examples (total.trans weightless)]
    refine ⟨rfl, fun concept given => ?_⟩
    exact List.all_zero_of_le_zero_le_of_sum_eq_zero
      (by simpa using fun concept _ => nonnegative concept) weightless
      (List.mem_map_of_mem given)
  · rw [ofAssessments_eq_ok examples total weightless]
    constructor
    · exact exists_weight weightless
    · refine apportions_of_shares ?shares nonnegative empties weightless ?sorted
      case shares =>
        apply ((List.mergeSort_perm _ _).map _).trans
        rw [List.map_map, List.map_map]
        apply List.Perm.of_eq
        refine List.map_congr_left fun concept kept => ?_
        simp only [Function.comp_apply, Ranked.ofTotal, weights concept kept]
        rfl
      case sorted =>
        apply Ranked.pairwise_place
        intro entry isEntry
        obtain ⟨candidate, _, rfl⟩ := List.mem_map.1 isEntry
        exact ⟨_, rfl⟩

/-- Over twenty numbers the uniform prior ranks candidates for 4 and again 4, among them one given
twice, one without members, one that lacks the example and one of two parts. -/
theorem rank_follows_bayes_over_twenty :
    let even : Concept := .terminal (.primitive .even)
    let squares : Concept := .terminal (.primitive .square)
    let concepts : List Concept := [even, .combine .intersect even squares, even,
      .terminal (.multipleOf 50), .terminal (.primitive .odd)]
    ∃ posterior, rank .uniform (concepts.map (.ofConcept 20)) [4, 4] = .ok (.ok posterior) ∧
      posterior.Apportions ((Prior.uniform : Prior Exact).candidateWeight 20 [4, 4]) concepts := by
  intro even squares concepts
  have named : Prior.named? "uniform" = some (Prior.uniform : Prior Exact) := rfl
  have finite := Prior.FinitelyWeighted.of_named named
  obtain ⟨answer, ranked, follows⟩ := rank_follows_bayes finite 20 concepts [4, 4]
  cases answer with
  | ok posterior => exact ⟨posterior, ranked, follows.2⟩
  | error missing =>
      let hypothesis : Hypothesis 20 := .ofConcept 20 even
      have contains : ∀ n ∈ [4, 4], n ∈ hypothesis.members := by decide
      have inhabited : hypothesis.members ≠ ∅ := NatSet.ne_empty_of_mem (contains 4 (by decide))
      obtain ⟨_, succeeds, weight⟩ := finite.logPrior_eq_ok hypothesis
      obtain rfl := Except.ok.inj
        ((Prior.logPrior_uniform_terminal 20 (.primitive .even) _).symm.trans succeeds)
      have someMember : (hypothesis.count : ℝ) ≠ 0 := by
        exact_mod_cast (Hypothesis.count_pos inhabited).ne'
      have someWeight : Prior.uniform.weightAfter [4, 4] hypothesis ≠ 0 := by
        rw [Prior.weightAfter, ← weight, weight_real, Hypothesis.likelihood_eq, if_pos contains]
        positivity
      exact absurd (follows.2 even (by decide))
        (Prior.candidateWeight_of_inhabited inhabited ▸ someWeight)

end Posterior

end NumberConcepts
