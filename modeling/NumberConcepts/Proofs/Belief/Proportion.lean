import NumberConcepts.Proofs.Belief.Leaders
/-!
# Priors in proportion

A prior divides the weight of each kind of node by that of all kinds together, also
those of combinations, of which a base space has none. This total is the same for all
hypotheses, and so it does not show in probabilities: only the ratios of the weights
of terminals do. Where one prior leaves no terminal a share, neither does any other in
proportion to it, whether that is for lack of a total or of a weight.
-/

namespace NumberConcepts

open LogWeights Exact

namespace Exact

/-- A number times an undefined value is undefined. -/
theorem real_mul_undefined (x : ℝ) : real x * undefined = undefined := by
  have product : mul (real x) undefined = undefined := by simp [mul, infinity, direction]
  exact product

/-- A weight times a number has the product as its number. -/
theorem IsWeight.value_real_mul {a : Exact} (isWeight : a.IsWeight) (x : ℝ) :
    (real x * a).value = x * a.value := by
  cases a with
  | real y => rfl
  | undefined => rw [real_mul_undefined, value, mul_zero]
  | negInf | posInf => cases isWeight

end Exact

namespace Prior

variable {p q : Prior Exact} {size : Nat} {factor : ℝ}

/-- Two priors prefer the same sizes and give all kinds of terminals weights in one ratio. -/
structure Proportional (p : Prior Exact) (size : Nat) (factor : ℝ) (q : Prior Exact) : Prop where
  positive : 0 < factor
  weights : ∀ leaf : Terminal,
    q.tagWeight size leaf.tag = .real factor * p.tagWeight size leaf.tag
  preference : q.sizePreference = p.sizePreference

/-- Without a total of the weights there is no number for the weight of intervals, or no kind has a
weight. -/
theorem FinitelyWeighted.eq_undefined_or_zero (finite : p.FinitelyWeighted)
    (noTotal : (p.totalWeight size).value = 0) :
    p.tagWeight size .interval = undefined ∨ ∀ tag, p.tagWeight size tag = real 0 := by
  refine or_iff_not_imp_left.2 fun known => ?_
  have numbers : ∀ tag, p.tagWeight size tag = real (p.tagWeight size tag).value := by
    intro tag
    apply (finite.isWeight_tagWeight tag).eq_real
    by_cases isInterval : tag = .interval
    · rwa [isInterval]
    · exact finite.tagWeight_ne_undefined isInterval
  have nonneg : ∀ value ∈ Tag.all.map fun tag => (p.tagWeight size tag).value, 0 ≤ value :=
    List.forall_mem_map.2 fun tag _ => (finite.isWeight_tagWeight tag).value_nonneg
  rw [totalWeight_eq_real numbers, value] at noTotal
  intro tag
  rw [numbers tag, List.all_zero_of_le_zero_le_of_sum_eq_zero nonneg noTotal
    (List.mem_map_of_mem tag.mem_all)]

/-- A prior without a number for the weight of intervals leaves no kind a share. -/
theorem FinitelyWeighted.share_eq_zero (finite : p.FinitelyWeighted)
    (unknown : p.tagWeight size .interval = undefined) (tag : Tag) : p.share size tag = 0 := by
  have listed : undefined ∈ Tag.all.map (p.tagWeight size) :=
    unknown ▸ List.mem_map_of_mem Tag.interval.mem_all
  rw [finite.share_eq, totalWeight, sum_eq_undefined listed, value, div_zero]

namespace Proportional

variable (finite : p.FinitelyWeighted) (finite' : q.FinitelyWeighted)
  (ratio : p.Proportional size factor q)

include finite ratio

theorem value_tagWeight (leaf : Terminal) :
    (q.tagWeight size leaf.tag).value = factor * (p.tagWeight size leaf.tag).value := by
  rw [ratio.weights, (finite.isWeight_tagWeight _).value_real_mul]

/-- Seen from the second prior the ratio is the inverse one. -/
theorem symm : q.Proportional size factor⁻¹ p := by
  refine ⟨inv_pos.2 ratio.positive, fun leaf => ?_, ratio.preference.symm⟩
  rw [ratio.weights]
  by_cases known : p.tagWeight size leaf.tag = undefined
  · rw [known, real_mul_undefined, real_mul_undefined]
  · rw [(finite.isWeight_tagWeight leaf.tag).eq_real known, real_mul_real, real_mul_real,
      inv_mul_cancel_left₀ ratio.positive.ne']

include finite'

/-- Where the first prior has no total, the second one leaves no terminal a share. -/
theorem share_eq_zero (noTotal : (p.totalWeight size).value = 0) (leaf : Terminal) :
    q.share size leaf.tag = 0 := by
  rcases finite.eq_undefined_or_zero noTotal with unknown | none
  · have unknown' : q.tagWeight size .interval = undefined := by
      have interval := ratio.weights (.interval 0 0)
      rw [Terminal.tag, unknown, real_mul_undefined] at interval
      exact interval
    exact finite'.share_eq_zero unknown' _
  · rw [finite'.share_eq, ratio.value_tagWeight finite, none, value, mul_zero, zero_div]

/-- The shares of terminals are in one ratio too. -/
theorem exists_share_eq : ∃ factor' : ℝ, 0 < factor' ∧ ∀ leaf : Terminal,
    q.share size leaf.tag = p.share size leaf.tag * factor' := by
  by_cases none : (p.totalWeight size).value = 0 ∨ (q.totalWeight size).value = 0
  -- Without either total both priors leave no terminal a share, and any factor will do.
  · refine ⟨1, one_pos, fun leaf => ?_⟩
    rw [mul_one]
    rcases none with noTotal | noTotal
    · rw [ratio.share_eq_zero finite finite' noTotal, finite.share_eq, noTotal, div_zero]
    · rw [(ratio.symm finite).share_eq_zero finite' finite noTotal, finite'.share_eq, noTotal,
        div_zero]
  · obtain ⟨some, some'⟩ := not_or.1 none
    have total := finite.isWeight_totalWeight.value_nonneg.lt_of_ne' some
    have total' := finite'.isWeight_totalWeight.value_nonneg.lt_of_ne' some'
    refine ⟨factor * (p.totalWeight size).value / (q.totalWeight size).value,
      div_pos (mul_pos ratio.positive total) total', fun leaf => ?_⟩
    rw [finite.share_eq, finite'.share_eq, ratio.value_tagWeight finite]
    field_simp

/-- So are the weights of hypotheses that are terminals. -/
theorem exists_weightOf_eq : ∃ factor' : ℝ, 0 < factor' ∧
    ∀ hypothesis : Hypothesis size, (∃ leaf : Terminal, hypothesis.concept = .terminal leaf) →
      q.weightOf hypothesis = p.weightOf hypothesis * factor' := by
  obtain ⟨factor', positive, shares⟩ := ratio.exists_share_eq finite finite'
  refine ⟨factor', positive, ?_⟩
  rintro hypothesis ⟨leaf, isTerminal⟩
  have sizes : q.sizeFactor hypothesis.count = p.sizeFactor hypothesis.count := by
    rw [sizeFactor, sizeFactor, ratio.preference]
  rw [weightOf, weightOf, isTerminal, Concept.tags, List.map_singleton, List.map_singleton,
    List.prod_singleton, List.prod_singleton, shares, sizes, mul_right_comm]

end Proportional

end Prior

namespace HypothesisSpace

variable {space : HypothesisSpace} {p q : Prior Exact} {examples : List Nat} {factor : ℝ}

/-! ### A common factor of all weights -/

section Scaled

variable (nonzero : factor ≠ 0)
  (scaled : ∀ hypothesis ∈ space.hypotheses, q.weightOf hypothesis = p.weightOf hypothesis * factor)

include scaled

theorem jointWeights_scaled (examples : List Nat) :
    space.jointWeights q examples = (space.jointWeights p examples).map (· * factor) := by
  rw [jointWeights, jointWeights, List.map_map]
  refine List.map_congr_left fun hypothesis listed => ?_
  rw [Function.comp_apply, Prior.weightAfter, Prior.weightAfter,
    scaled _ (Array.mem_toList_iff.1 listed), mul_right_comm]

include nonzero

theorem shares?_scaled (examples : List Nat) :
    shares? (space.jointWeights q examples) = shares? (space.jointWeights p examples) := by
  rw [jointWeights_scaled scaled, shares?_map_mul nonzero]

theorem sum_jointWeights_scaled (examples : List Nat) :
    (space.jointWeights q examples).sum = 0 ↔ (space.jointWeights p examples).sum = 0 := by
  rw [← shares?_eq_none_iff, shares?_scaled nonzero scaled, shares?_eq_none_iff]

/-- The factor does not show in the parts of all weight, nor in the order by them. -/
theorem leaders_scaled (examples : List Nat) :
    space.leaders q examples = space.leaders p examples := by
  rw [leaders, leaders]
  congr 1
  refine List.map_congr_left fun hypothesis listed => ?_
  rw [shared, shared, portion, portion, jointWeights_scaled scaled, List.sum_map_mul_right,
    List.map_id', Prior.weightAfter, Prior.weightAfter, scaled _ (Array.mem_toList_iff.1 listed),
    mul_right_comm, mul_div_mul_right _ _ nonzero]

end Scaled

/-- The hypotheses of the base space are terminals. -/
theorem exists_terminal_of_mem_base {domain : Domain} {hypothesis : Hypothesis domain.size}
    (listed : hypothesis ∈ (base domain).hypotheses) :
    ∃ leaf : Terminal, hypothesis.concept = .terminal leaf := by
  obtain ⟨leaf, isTerminal, _⟩ := legal_base (mem_ofConcepts.1 listed).1
  exact ⟨leaf, isTerminal⟩

/-- Two priors cannot be told apart by what is inferred from them. -/
structure Indistinct (space : HypothesisSpace) (p q : Prior Exact) : Prop where
  start : ∃ start, space.priorBeliefs p = .ok start ∧ space.priorBeliefs q = .ok start
  beliefs : ∀ examples, ∃ answer, space.posteriorBeliefs p examples = .ok answer ∧
    space.posteriorBeliefs q examples = .ok answer
  rankings : ∀ examples, ∃ answer answer', space.posterior p examples = .ok answer ∧
    space.posterior q examples = .ok answer' ∧
    Explained.Agree (fun ranking ranking' =>
      ranking.entries.map Ranked.weighted = ranking'.entries.map Ranked.weighted) answer answer'

/-- A common factor of all weights of hypotheses is not seen in anything that is inferred. -/
theorem Sound.indistinct_of_scaled (sound : space.Sound) (finite : p.FinitelyWeighted)
    (finite' : q.FinitelyWeighted) (nonzero : factor ≠ 0)
    (scaled : ∀ hypothesis ∈ space.hypotheses,
      q.weightOf hypothesis = p.weightOf hypothesis * factor) : space.Indistinct p q := by
  constructor
  case start =>
    refine ⟨_, priorBeliefs_eq_ok finite space, ?_⟩
    rw [priorBeliefs_eq_ok finite', shares?_scaled nonzero scaled]
  case beliefs =>
    intro examples
    refine ⟨_, sound.posteriorBeliefs_eq_ok finite examples, ?_⟩
    rw [sound.posteriorBeliefs_eq_ok finite', bayes, bayes, shares?_scaled nonzero scaled]
  case rankings =>
    intro examples
    by_cases weightless : (space.jointWeights p examples).sum = 0
    · have weightless' := (sum_jointWeights_scaled nonzero scaled examples).2 weightless
      exact ⟨_, _, sound.posterior_eq_error finite weightless,
        sound.posterior_eq_error finite' weightless', rfl⟩
    · have some := mt (sum_jointWeights_scaled nonzero scaled examples).1 weightless
      obtain ⟨ranking, succeeds, entries⟩ := sound.posterior_eq_leaders finite weightless
      obtain ⟨ranking', succeeds', entries'⟩ := sound.posterior_eq_leaders finite' some
      refine ⟨_, _, succeeds, succeeds', ?_⟩
      rw [Explained.Agree, entries, entries', leaders_scaled nonzero scaled]

/-- Over the base space of a domain, priors that give terminals weights in one ratio cannot be told
apart, whatever weights they give to combinations. -/
theorem indistinct_of_proportional {domain : Domain} (finite : p.FinitelyWeighted)
    (finite' : q.FinitelyWeighted) (ratio : p.Proportional domain.size factor q) :
    (base domain).Indistinct p q := by
  obtain ⟨factor', positive, weights⟩ := ratio.exists_weightOf_eq finite finite'
  exact (sound_base domain).indistinct_of_scaled finite finite' positive.ne'
    fun hypothesis listed => weights hypothesis (exists_terminal_of_mem_base listed)

/-- Over six numbers the uniform prior cannot be told apart from one that gives terminals twice the
weight, intervals after a division by their number, and unions another weight. -/
theorem indistinct_from_uniform_over_six :
    (base ⟨6, by decide⟩).Indistinct .uniform { (Prior.custom : Prior Exact) with
      weights := [(.interval, .real 42), (.combination .union, .real 5)]
      defaultWeight := .real 2
      divisor := .exact } := by
  let domain : Domain := ⟨6, by decide⟩
  let doubled : Prior Exact := { Prior.custom with
    weights := [(.interval, .real 42), (.combination .union, .real 5)]
    defaultWeight := .real 2
    divisor := .exact }
  have named : Prior.named? "uniform" = some (Prior.uniform : Prior Exact) := rfl
  have finite : doubled.FinitelyWeighted := by
    refine ⟨?_, ⟨2, by norm_num, rfl⟩, nofun, nofun, nofun⟩
    simp only [doubled, List.forall_mem_cons]
    exact ⟨⟨42, by norm_num, rfl⟩, ⟨5, by norm_num, rfl⟩, nofun⟩
  have interval : doubled.tagWeight 6 .interval = .real 2 := by
    have divides : doubled.tagWeight 6 .interval = .real 42 / .real (21 : Nat) := rfl
    rw [divides, real_div_real (by norm_num)]
    norm_num
  have ratio : Prior.uniform.Proportional domain.size 2 doubled := by
    refine ⟨two_pos, fun leaf => ?_, rfl⟩
    rw [Prior.tagWeight_uniform, real_mul_real, mul_one]
    cases leaf with
    | interval low high => exact interval
    | primitive property => rfl
    | powerOf base => rfl
    | multipleOf step => rfl
    | endsIn digit => rfl
  exact indistinct_of_proportional (.of_named named) finite ratio

end HypothesisSpace

end NumberConcepts
