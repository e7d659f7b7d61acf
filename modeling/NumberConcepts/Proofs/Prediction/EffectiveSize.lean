import Mathlib.Data.Set.Finite.Lemmas
import NumberConcepts.Proofs.Belief.Leaders
import NumberConcepts.Proofs.Belief.Likelihood
/-!
# The effective size

The probabilities of all numbers of a domain add up to the mean size of the hypotheses, each
weighted by its own probability: a hypothesis gives its probability to every one of its members
and to nothing else, so that a sum over numbers is one over hypotheses. A mean lies between the
least and the greatest size that has a probability, and no such size is below the number of
distinct examples.
-/

namespace NumberConcepts

open Exact

/-- A sum over the numbers of a domain has a term for each one from one to its size. -/
theorem Domain.sum_numbers (domain : Domain) (value : Nat → ℝ) :
    (domain.numbers.map value).sum = ∑ n ∈ Finset.Icc 1 domain.size, value n := by
  have range : domain.numbers.toFinset = Finset.Icc 1 domain.size := by
    ext n
    rw [List.mem_toFinset, mem_numbers, Finset.mem_Icc]
  rw [← range, List.sum_toFinset value domain.nodup_numbers]

namespace HypothesisSpace

variable {space : HypothesisSpace} {prior : Prior Exact} {examples : List Nat}

/-- The mean number of members, by the parts of all weight that the hypotheses have. -/
noncomputable def meanCount (space : HypothesisSpace) (prior : Prior Exact)
    (examples : List Nat) : ℝ :=
  (space.hypotheses.toList.map fun hypothesis =>
    space.portion prior examples hypothesis * hypothesis.count).sum

/-- All probabilities of numbers together are the mean number of members. -/
theorem Sound.sum_foretold (sound : space.Sound) :
    (space.domain.numbers.map (space.foretold prior examples)).sum =
      space.meanCount prior examples := by
  have each : ∀ n, space.foretold prior examples n = (space.hypotheses.toList.map fun hypothesis =>
      if n ∈ hypothesis.members then space.portion prior examples hypothesis else 0).sum := by
    intro n
    simp only [foretold, mass, Sequence.sum_map_filter, decide_eq_true_eq]
  have exchanged : ∑ n ∈ Finset.Icc 1 space.domain.size, space.foretold prior examples n =
      (space.hypotheses.toList.map fun hypothesis => ∑ n ∈ Finset.Icc 1 space.domain.size,
        if n ∈ hypothesis.members then space.portion prior examples hypothesis else 0).sum := by
    simp only [each, ← Multiset.sum_coe, ← Multiset.map_coe, Multiset.sum_map_sum]
  rw [Domain.sum_numbers, exchanged, meanCount]
  refine congrArg List.sum (List.map_congr_left fun hypothesis listed => ?_)
  rw [Hypothesis.sum_members (sound.inside _ (Array.mem_toList_iff.1 listed)), mul_comm]

/-- Only the hypotheses with a portion matter when two sums of portions are compared. -/
theorem sum_portions_le (finite : prior.FinitelyWeighted)
    {lesser greater : Hypothesis space.domain.size → ℝ}
    (bounded : ∀ hypothesis ∈ space.hypotheses, 0 < space.portion prior examples hypothesis →
      lesser hypothesis ≤ greater hypothesis) :
    (space.hypotheses.toList.map fun hypothesis =>
        space.portion prior examples hypothesis * lesser hypothesis).sum ≤
      (space.hypotheses.toList.map fun hypothesis =>
        space.portion prior examples hypothesis * greater hypothesis).sum := by
  refine List.sum_le_sum fun hypothesis listed => ?_
  have nonneg : 0 ≤ space.portion prior examples hypothesis := portion_nonneg finite hypothesis
  rcases nonneg.eq_or_lt with none | positive
  · rw [← none, zero_mul, zero_mul]
  · exact mul_le_mul_of_nonneg_left (bounded _ (Array.mem_toList_iff.1 listed) positive) nonneg

/-- The mean of one value is this value. -/
theorem sum_portions_mul (some : (space.jointWeights prior examples).sum ≠ 0) (value : ℝ) :
    (space.hypotheses.toList.map fun hypothesis =>
      space.portion prior examples hypothesis * value).sum = value := by
  rw [List.sum_map_mul_right, sum_portion some, one_mul]

section Bounds

variable (finite : prior.FinitelyWeighted) (some : (space.jointWeights prior examples).sum ≠ 0)

include finite some

/-- Some hypothesis has a portion. -/
theorem exists_portion_pos :
    ∃ hypothesis ∈ space.hypotheses, 0 < space.portion prior examples hypothesis := by
  have total := sum_portion some
  obtain ⟨portion, isPortion, nonzero⟩ :=
    List.exists_mem_ne_zero_of_sum_ne_zero (total.trans_ne one_ne_zero)
  obtain ⟨hypothesis, listed, rfl⟩ := List.mem_map.1 isPortion
  have positive := (portion_nonneg finite hypothesis).lt_of_ne nonzero.symm
  exact ⟨hypothesis, Array.mem_toList_iff.1 listed, positive⟩

/-- The mean is not below what no hypothesis with a portion is below. -/
theorem le_meanCount {bound : ℝ} (least : ∀ hypothesis ∈ space.hypotheses,
    0 < space.portion prior examples hypothesis → bound ≤ hypothesis.count) :
    bound ≤ space.meanCount prior examples :=
  (sum_portions_mul some bound).symm.trans_le (sum_portions_le finite least)

/-- The mean is not above what no hypothesis with a portion is above. -/
theorem meanCount_le {bound : ℝ} (greatest : ∀ hypothesis ∈ space.hypotheses,
    0 < space.portion prior examples hypothesis → (hypothesis.count : ℝ) ≤ bound) :
    space.meanCount prior examples ≤ bound :=
  (sum_portions_le finite greatest).trans_eq (sum_portions_mul some bound)

/-- A hypothesis with a portion has all distinct examples among its members, and so has the mean
at least as many. -/
theorem card_le_meanCount : (examples.toFinset.card : ℝ) ≤ space.meanCount prior examples := by
  refine le_meanCount finite some fun hypothesis _ positive => ?_
  have contains : ∀ n ∈ examples, n ∈ hypothesis.members := by
    by_contra lacks
    exact positive.ne' (portion_eq_zero lacks)
  rw [List.card_toFinset, hypothesis.count_eq, Nat.cast_le]
  exact NatSet.length_le_size examples.nodup_dedup fun n listed =>
    contains n (List.mem_dedup.1 listed)

end Bounds

section Entries

variable {ranking : Posterior Exact space.domain.size}
  (entries : ranking.entries.map Ranked.weighted =
    (space.leaders prior examples).filter (Weighted.fits examples))

include entries

/-- Every hypothesis with a portion is ranked, with a probability. -/
theorem exists_positive_entry {hypothesis : Hypothesis space.domain.size}
    (listed : hypothesis ∈ space.hypotheses)
    (hasPortion : 0 < space.portion prior examples hypothesis) :
    ∃ entry ∈ ranking.entries, Scalar.lt Scalar.zero entry.probability = true ∧
      entry.hypothesis = hypothesis := by
  let leader := space.shared prior examples hypothesis
  have isLeader : leader ∈ space.leaders prior examples := mem_leaders.2 ⟨hypothesis, listed, rfl⟩
  have isPortion : leader.2 = real (space.portion prior examples hypothesis) := rfl
  have positive : Scalar.lt Scalar.zero leader.2 = true := by
    rwa [isPortion, zero_eq, lt_real, decide_eq_true_iff]
  have ranked := List.mem_filter.2 ⟨isLeader, fits_of_positive isLeader positive⟩
  rw [← entries] at ranked
  obtain ⟨entry, isEntry, same⟩ := List.mem_map.1 ranked
  obtain ⟨isHypothesis, isProbability⟩ := Prod.mk.inj same
  exact ⟨entry, isEntry, isProbability ▸ positive, isHypothesis⟩

/-- Each size counted with the probability of its hypothesis, a ranking has the mean number of
members. -/
theorem sum_sizes_entries :
    Scalar.sum (ranking.entries.map fun entry =>
      entry.probability * Scalar.ofNat entry.hypothesis.count) =
        real (space.meanCount prior examples) := by
  let sized (weighted : Weighted Exact space.domain.size) : Exact :=
    weighted.2 * Scalar.ofNat weighted.1.count
  let value (hypothesis : Hypothesis space.domain.size) : ℝ :=
    space.portion prior examples hypothesis * hypothesis.count
  let fits (hypothesis : Hypothesis space.domain.size) : Bool :=
    hypothesis.containsAll (examples.map Int.ofNat)
  have sorted := ((space.leaders_perm prior examples).filter (Weighted.fits examples)).map sized
  have terms : ((space.hypotheses.toList.map (space.shared prior examples)).filter
      (Weighted.fits examples)).map sized = ((space.hypotheses.toList.filter fits).map value).map
        real := by
    rw [List.filter_map, List.map_map, List.map_map]
    rfl
  calc
    Scalar.sum (ranking.entries.map fun entry =>
        entry.probability * Scalar.ofNat entry.hypothesis.count)
      = Scalar.sum ((ranking.entries.map Ranked.weighted).map sized) := by
        rw [List.map_map]
        rfl
    _ = real ((space.hypotheses.toList.filter fits).map value).sum := by
        rw [entries, sum_perm sorted, terms, sum_map_real]
    _ = real (space.meanCount prior examples) := by
        rw [Sequence.sum_map_filter, meanCount]
        refine congrArg (real ∘ List.sum) (List.map_congr_left fun hypothesis _ => ?_)
        by_cases contains : fits hypothesis = true
        · exact if_pos contains
        · rw [if_neg contains]
          have lacks : ¬ ∀ n ∈ examples, n ∈ hypothesis.members :=
            mt NatSet.containsAll_map_ofNat.2 contains
          rw [portion_eq_zero lacks, zero_mul]

end Entries

/-- What `m` is to a ranking for the examples: the mean size of its hypotheses. -/
structure MeanSize {size : Nat} (examples : List Nat) (ranking : Posterior Exact size)
    (m : ℝ) : Prop where
  expected : Scalar.sum (ranking.entries.map fun entry =>
    entry.probability * Scalar.ofNat entry.hypothesis.count) = .real m
  smallest : ∃ entry ∈ ranking.entries, Scalar.lt Scalar.zero entry.probability = true ∧
    (∀ other ∈ ranking.entries, Scalar.lt Scalar.zero other.probability = true →
      entry.hypothesis.count ≤ other.hypothesis.count) ∧ entry.hypothesis.count ≤ m
  largest : ∃ entry ∈ ranking.entries, Scalar.lt Scalar.zero entry.probability = true ∧
    (∀ other ∈ ranking.entries, Scalar.lt Scalar.zero other.probability = true →
      other.hypothesis.count ≤ entry.hypothesis.count) ∧ m ≤ entry.hypothesis.count
  distinct : examples.toFinset.card ≤ m

/-- A ranking of the leaders that contain all examples has their mean size. -/
theorem meanSize_of_entries (finite : prior.FinitelyWeighted)
    (some : (space.jointWeights prior examples).sum ≠ 0)
    {ranking : Posterior Exact space.domain.size}
    (entries : ranking.entries.map Ranked.weighted =
      (space.leaders prior examples).filter (Weighted.fits examples)) :
    MeanSize examples ranking (space.meanCount prior examples) := by
  let positive : Set (Ranked Exact space.domain.size) :=
    {entry ∈ {entry | entry ∈ ranking.entries} | Scalar.lt Scalar.zero entry.probability = true}
  have few : positive.Finite := ranking.entries.finite_toSet.sep _
  have inhabited : positive.Nonempty := by
    obtain ⟨hypothesis, listed, hasPortion⟩ := exists_portion_pos finite some
    obtain ⟨entry, isEntry, isPositive, _⟩ := exists_positive_entry entries listed hasPortion
    exact ⟨entry, isEntry, isPositive⟩
  let count (entry : Ranked Exact space.domain.size) : Nat := entry.hypothesis.count
  refine ⟨sum_sizes_entries entries, ?smallest, ?largest, card_le_meanCount finite some⟩
  case smallest =>
    obtain ⟨least, ⟨isEntry, isPositive⟩, isLeast⟩ := positive.exists_min_image count few inhabited
    refine ⟨least, isEntry, isPositive, fun other isOther hasSome => isLeast other
      ⟨isOther, hasSome⟩, le_meanCount finite some fun hypothesis listed hasPortion => ?_⟩
    obtain ⟨entry, ranked, hasSome, rfl⟩ := exists_positive_entry entries listed hasPortion
    exact Nat.cast_le.2 (isLeast entry ⟨ranked, hasSome⟩)
  case largest =>
    obtain ⟨most, ⟨isEntry, isPositive⟩, isMost⟩ := positive.exists_max_image count few inhabited
    refine ⟨most, isEntry, isPositive, fun other isOther hasSome => isMost other
      ⟨isOther, hasSome⟩, meanCount_le finite some fun hypothesis listed hasPortion => ?_⟩
    obtain ⟨entry, ranked, hasSome, rfl⟩ := exists_positive_entry entries listed hasPortion
    exact Nat.cast_le.2 (isMost entry ⟨ranked, hasSome⟩)

/-- The statistics have the mean number of members as their effective size, and as their mean
probability what one number has of it. -/
theorem Sound.curveStatistics_eq_ok (sound : space.Sound) (finite : prior.FinitelyWeighted)
    (some : (space.jointWeights prior examples).sum ≠ 0) :
    ∃ statistics, space.curveStatistics prior examples = .ok (.ok statistics) ∧
      statistics.effectiveSize = .real (space.meanCount prior examples) ∧
      statistics.mean * Scalar.ofNat space.domain.size =
        .real (space.meanCount prior examples) := by
  let values := space.domain.numbers.map fun n => real (space.foretold prior examples n)
  have total : Scalar.sum values = real (space.meanCount prior examples) := by
    rw [← sound.sum_foretold, ← sum_map_real, List.map_map]
    rfl
  have length : values.length = space.domain.size := by
    rw [List.length_map, Domain.length_numbers]
  have nonzero : (space.domain.size : ℝ) ≠ 0 :=
    Nat.cast_ne_zero.2 (Nat.pos_iff_ne_zero.1 space.domain.admissible.1)
  refine ⟨.ofList values, ?_, total, ?_⟩
  · simp only [curveStatistics, sound.predictions_eq_ok finite some, bind, Except.bind]
    rfl
  · have mean : (CurveStatistics.ofList values).mean =
        Scalar.sum values / Scalar.ofNat values.length := rfl
    rw [mean, total, length, ofNat_eq, real_div_real nonzero, real_mul_real,
      div_mul_cancel₀ _ nonzero]

/-- Over the base space of a domain, where the examples have a ranking, the effective size of the
statistics is its mean size, and so is the mean probability of a number times the size of the
domain. -/
theorem effective_size_is_mean_size {domain : Domain} (finite : prior.FinitelyWeighted)
    {ranking : Posterior Exact domain.size}
    (ranked : (base domain).posterior prior examples = .ok (.ok ranking)) :
    ∃ (statistics : CurveStatistics Exact) (m : ℝ),
      (base domain).curveStatistics prior examples = .ok (.ok statistics) ∧
      statistics.effectiveSize = .real m ∧
      statistics.mean * Scalar.ofNat domain.size = .real m ∧
      MeanSize examples ranking m := by
  have sound := sound_base domain
  have some : ((base domain).jointWeights prior examples).sum ≠ 0 := by
    intro weightless
    rw [sound.posterior_eq_error finite weightless] at ranked
    cases ranked
  obtain ⟨statistics, succeeds, effective, mean⟩ := sound.curveStatistics_eq_ok finite some
  obtain ⟨same, succeeds', entries⟩ := sound.posterior_eq_leaders finite some
  rw [ranked] at succeeds'
  cases succeeds'
  exact ⟨statistics, _, succeeds, effective, mean, meanSize_of_entries finite some entries⟩

/-- Over twenty numbers 16 and 8 and again 16 have a ranking, and the effective size is its mean
size. -/
theorem effective_size_is_mean_size_over_twenty :
    ∃ ranking : Posterior Exact 20,
      (base ⟨20, by decide⟩).posterior .uniform [16, 8, 16] = .ok (.ok ranking) ∧
      ∃ (statistics : CurveStatistics Exact) (m : ℝ),
        (base ⟨20, by decide⟩).curveStatistics .uniform [16, 8, 16] = .ok (.ok statistics) ∧
        statistics.effectiveSize = .real m ∧
        statistics.mean * Scalar.ofNat 20 = .real m ∧
        MeanSize [16, 8, 16] ranking m := by
  let domain : Domain := ⟨20, by decide⟩
  let even : Hypothesis 20 := .ofTerminal 20 (.primitive .even)
  have named : Prior.named? "uniform" = some (Prior.uniform : Prior Exact) := rfl
  have finite : (Prior.uniform : Prior Exact).FinitelyWeighted := .of_named named
  have inhabited : even.members ≠ ∅ := NatSet.ne_empty_of_mem (n := 2) (by decide)
  have listed : even ∈ (base domain).hypotheses := mem_ofConcepts.2 ⟨by decide, inhabited⟩
  have hasWeight : 0 < (Prior.uniform : Prior Exact).weightOf even :=
    finite.weightOf_pos (Prior.logPrior_uniform_terminal 20 _ _)
  have contains : ∀ n ∈ [16, 8, 16], n ∈ even.members := by decide
  have some := sum_jointWeights_ne_zero finite listed
    (Prior.weightAfter_pos hasWeight inhabited contains)
  obtain ⟨ranking, ranked, _⟩ := (sound_base domain).posterior_eq_ok finite some
  exact ⟨ranking, ranked, effective_size_is_mean_size finite ranked⟩

end HypothesisSpace

end NumberConcepts
