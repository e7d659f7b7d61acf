import NumberConcepts.Belief.Vector
import NumberConcepts.Proofs.Belief.Likelihood
import NumberConcepts.Proofs.Prior
import NumberConcepts.Proofs.Sequence
/-!
# Belief vectors without rounding

The vector of a sound space follows the rule of Bayes: every hypothesis has the
share of its prior weight times the likelihood of the examples. The entries it is
computed from are logarithms of these weights divided by all prior weights
together, and one more example multiplies each of them by the chance of the example.
-/

namespace NumberConcepts

namespace Prior

variable {prior : Prior Exact} {size : Nat} {hypothesis : Hypothesis size} {examples : List Nat}

/-- The weight of a hypothesis after the examples: its prior weight times the likelihood. -/
noncomputable def weightAfter (prior : Prior Exact) (examples : List Nat)
    (hypothesis : Hypothesis size) : ℝ :=
  prior.weightOf hypothesis * hypothesis.likelihood examples

theorem weightAfter_nil : prior.weightAfter [] hypothesis = prior.weightOf hypothesis := by
  rw [weightAfter, Hypothesis.likelihood_nil, mul_one]

theorem weightAfter_append (more : List Nat) :
    prior.weightAfter (examples ++ more) hypothesis =
      prior.weightAfter examples hypothesis * hypothesis.likelihood more := by
  rw [weightAfter, Hypothesis.likelihood_append, ← mul_assoc, weightAfter]

/-- A hypothesis that lacks an example has no weight after the examples. -/
theorem weightAfter_eq_zero (lacks : ¬ ∀ n ∈ examples, n ∈ hypothesis.members) :
    prior.weightAfter examples hypothesis = 0 := by
  rw [weightAfter, Hypothesis.likelihood_eq, if_neg lacks, mul_zero]

/-- A hypothesis with all examples keeps some of its weight. -/
theorem weightAfter_pos (some : 0 < prior.weightOf hypothesis) (inhabited : hypothesis.members ≠ ∅)
    (contains : ∀ n ∈ examples, n ∈ hypothesis.members) :
    0 < prior.weightAfter examples hypothesis := by
  have counted : (0 : ℝ) < hypothesis.count := by exact_mod_cast Hypothesis.count_pos inhabited
  rw [weightAfter, Hypothesis.likelihood_eq, if_pos contains]
  exact mul_pos some (pow_pos (inv_pos.2 counted) _)

theorem FinitelyWeighted.weightAfter_nonneg (finite : prior.FinitelyWeighted) :
    0 ≤ prior.weightAfter examples hypothesis :=
  mul_nonneg (finite.weightOf_nonneg hypothesis) (hypothesis.likelihood_nonneg examples)

theorem FinitelyWeighted.weights_nonneg (finite : prior.FinitelyWeighted)
    (hypotheses : List (Hypothesis size)) :
    ∀ weight ∈ hypotheses.map (prior.weightAfter examples), 0 ≤ weight := by
  rw [List.forall_mem_map]
  exact fun _ _ => finite.weightAfter_nonneg

/-- One hypothesis with a weight after the examples is enough for all of them to have some. -/
theorem FinitelyWeighted.sum_weights_pos (finite : prior.FinitelyWeighted)
    {hypotheses : List (Hypothesis size)} (listed : hypothesis ∈ hypotheses)
    (some : 0 < prior.weightAfter examples hypothesis) :
    0 < (hypotheses.map (prior.weightAfter examples)).sum :=
  some.trans_le (List.single_le_sum (finite.weights_nonneg hypotheses) _
    (List.mem_map_of_mem listed))

end Prior

namespace HypothesisSpace

open LogWeights Exact

variable {space : HypothesisSpace} {prior : Prior Exact} {examples : List Nat}

/-! ### Membership in a vector -/

/-- Where a set of positions is described by a property of hypotheses, every entry stands beside its
hypothesis and the property. -/
theorem withMembership_eq {positions : NatSet} {belongs : Hypothesis space.domain.size → Bool}
    (describes : ∀ position hypothesis, space.hypotheses[position]? = some hypothesis →
      (position ∈ positions ↔ belongs hypothesis = true)) (entries : List Exact) :
    space.withMembership positions entries =
      List.zipWith (fun entry hypothesis => (entry, hypothesis, belongs hypothesis)) entries
        space.hypotheses.toList := by
  have described : (space.hypotheses.toList.mapIdx fun position hypothesis =>
      (hypothesis, decide (position ∈ positions))) =
        space.hypotheses.toList.map fun hypothesis => (hypothesis, belongs hypothesis) := by
    apply List.ext_getElem?
    intro position
    rw [List.getElem?_mapIdx, List.getElem?_map, Array.getElem?_toList]
    cases isAt : space.hypotheses[position]? with
    | none => rfl
    | some hypothesis =>
        rw [Option.map_some, Option.map_some, Bool.decide_congr (describes _ _ isAt), Bool.decide_coe]
  rw [withMembership, described, List.zip_map_right, List.zip, List.map_zipWith]
  rfl

theorem Sound.withMembership_consistent (sound : space.Sound) (entries : List Exact) :
    space.withMembership (space.consistent examples) entries =
      List.zipWith (fun entry hypothesis =>
        (entry, hypothesis, decide (∀ n ∈ examples, n ∈ hypothesis.members))) entries
          space.hypotheses.toList := by
  apply withMembership_eq
  intro position hypothesis isAt
  rw [sound.mem_consistent, isAt, decide_eq_true_iff]
  simp

theorem Sound.withMembership_containing (sound : space.Sound) (n : Nat) (entries : List Exact) :
    space.withMembership (space.index.containing n) entries =
      List.zipWith (fun entry hypothesis => (entry, hypothesis, decide (n ∈ hypothesis.members)))
        entries space.hypotheses.toList := by
  apply withMembership_eq
  intro position hypothesis isAt
  rw [sound.containing, isAt, decide_eq_true_iff]
  simp

/-! ### Values times likelihoods -/

/-- Values of all hypotheses times the likelihoods of the examples. -/
noncomputable def weigh (space : HypothesisSpace) (values : List ℝ) (examples : List Nat) : List ℝ :=
  List.zipWith (fun value hypothesis => value * hypothesis.likelihood examples) values
    space.hypotheses.toList

theorem getElem?_weigh {values : List ℝ} {position : Nat} {value : ℝ}
    {hypothesis : Hypothesis space.domain.size} (isValue : values[position]? = some value)
    (isAt : space.hypotheses[position]? = some hypothesis) :
    (space.weigh values examples)[position]? = some (value * hypothesis.likelihood examples) := by
  rw [weigh, List.getElem?_zipWith_eq_some]
  exact ⟨value, hypothesis, isValue, by rwa [Array.getElem?_toList], rfl⟩

/-- Without examples the values stay. -/
theorem weigh_nil {values : List ℝ} (aligned : values.length = space.hypotheses.size) :
    space.weigh values [] = values := by
  simp only [weigh, Hypothesis.likelihood_nil, mul_one, ← List.map_uncurry_zip_eq_zipWith]
  exact List.map_fst_zip (by rw [aligned, Array.length_toList])

/-- More examples multiply what the first ones left. -/
theorem weigh_append (values : List ℝ) (seen more : List Nat) :
    space.weigh values (seen ++ more) = space.weigh (space.weigh values seen) more := by
  apply List.ext_getElem
  · simp [weigh]
  · intro position _ _
    simp [weigh, Hypothesis.likelihood_append, mul_assoc]

/-- A common factor of the values stays one. -/
theorem weigh_map_mul (factor : ℝ) (values : List ℝ) (examples : List Nat) :
    space.weigh (values.map (· * factor)) examples =
      (space.weigh values examples).map (· * factor) := by
  simp only [weigh, List.zipWith_map_left, List.map_zipWith, mul_right_comm]

theorem weigh_nonneg {values : List ℝ} (nonneg : ∀ value ∈ values, 0 ≤ value) :
    ∀ weight ∈ space.weigh values examples, 0 ≤ weight := by
  intro weight listed
  rw [weigh, ← List.map_uncurry_zip_eq_zipWith] at listed
  obtain ⟨⟨value, hypothesis⟩, pair, rfl⟩ := List.mem_map.1 listed
  exact mul_nonneg (nonneg value (List.of_mem_zip pair).1) (hypothesis.likelihood_nonneg examples)

/-- Where no weight is left, none is left with further examples. -/
theorem sum_weigh_append_eq_zero {values : List ℝ} (nonneg : ∀ value ∈ values, 0 ≤ value)
    {seen : List Nat} (weightless : (space.weigh values seen).sum = 0) (more : List Nat) :
    (space.weigh values (seen ++ more)).sum = 0 := by
  have vanish : (space.weigh values seen).map (· * 0) = space.weigh values seen := by
    conv_rhs => rw [← List.map_id (space.weigh values seen)]
    refine List.map_congr_left fun weight listed => ?_
    rw [mul_zero, id_eq, List.all_zero_of_le_zero_le_of_sum_eq_zero (weigh_nonneg nonneg) weightless
      listed]
  rw [weigh_append, ← vanish, weigh_map_mul, List.sum_map_mul_right, mul_zero]

/-- Weights as a vector, if there is any weight. -/
noncomputable def vectorOf (examples : List Nat) (weights : List ℝ) : Explained (List Exact) :=
  match shares? weights with
  | some probabilities => .ok probabilities
  | none => .error { examples, samples := none }

theorem toOption_vectorOf (examples : List Nat) (weights : List ℝ) :
    (vectorOf examples weights).toOption = shares? weights := by
  rw [vectorOf]
  cases shares? weights <;> rfl

/-! ### The rule of Bayes -/

/-- The weights of all hypotheses after the examples. -/
noncomputable def jointWeights (space : HypothesisSpace) (prior : Prior Exact)
    (examples : List Nat) : List ℝ :=
  space.hypotheses.toList.map (prior.weightAfter examples)

/-- Each hypothesis has the share of its weight after the examples, if there is any weight. -/
noncomputable def bayes (space : HypothesisSpace) (prior : Prior Exact) (examples : List Nat) :
    Explained (List Exact) :=
  match shares? (space.jointWeights prior examples) with
  | some probabilities => .ok probabilities
  | none => .error { examples, samples := none }

/-- There is a probability for each hypothesis. -/
theorem length_of_bayes {space : HypothesisSpace} {prior : Prior Exact} {examples : List Nat}
    {beliefs : List Exact} (explained : space.bayes prior examples = .ok beliefs) :
    beliefs.length = space.hypotheses.size := by
  rw [bayes, shares?] at explained
  split at explained
  next probabilities known =>
    split at known
    next => cases known
    next =>
      obtain rfl := Except.ok.inj explained
      obtain rfl := Option.some.inj known
      simp [jointWeights]
  next => cases explained

/-- The prior weights of all hypotheses together. -/
noncomputable def priorTotal (space : HypothesisSpace) (prior : Prior Exact) : ℝ :=
  (space.jointWeights prior []).sum

/-- The weights after the examples are the prior weights times the likelihoods. -/
theorem weigh_jointWeights (examples : List Nat) :
    space.weigh (space.jointWeights prior []) examples = space.jointWeights prior examples := by
  rw [weigh, jointWeights, List.zipWith_map_left, List.zipWith_self]
  refine List.map_congr_left fun hypothesis _ => ?_
  rw [← Prior.weightAfter_append, List.nil_append]

theorem jointWeights_nonneg (finite : prior.FinitelyWeighted) :
    ∀ weight ∈ space.jointWeights prior examples, 0 ≤ weight :=
  finite.weights_nonneg space.hypotheses.toList

theorem sum_jointWeights_ne_zero (finite : prior.FinitelyWeighted)
    {hypothesis : Hypothesis space.domain.size} (listed : hypothesis ∈ space.hypotheses)
    (some : 0 < prior.weightAfter examples hypothesis) :
    (space.jointWeights prior examples).sum ≠ 0 :=
  (finite.sum_weights_pos (Array.mem_toList_iff.2 listed) some).ne'

/-- Where the weights after some examples are zero together, they stay so with further examples. -/
theorem jointWeights_append_eq_zero (finite : prior.FinitelyWeighted)
    (weightless : (space.jointWeights prior examples).sum = 0) (more : List Nat) :
    space.jointWeights prior (examples ++ more) = space.hypotheses.toList.map fun _ => 0 := by
  refine List.map_congr_left fun hypothesis listed => ?_
  have none := List.all_zero_of_le_zero_le_of_sum_eq_zero (jointWeights_nonneg finite) weightless
    (List.mem_map_of_mem listed)
  rw [Prior.weightAfter_append, none, zero_mul]

/-- The logarithms of all prior weights are found without a fault. -/
theorem logPriors_eq_ok (finite : prior.FinitelyWeighted) (space : HypothesisSpace) :
    ∃ entries, space.logPriors prior = .ok entries ∧
      entries.map weight = space.jointWeights prior [] := by
  have each : ∀ hypothesis ∈ space.hypotheses.toList, ∃ logarithm,
      prior.logPrior space.domain.size hypothesis.concept (some hypothesis.count) = .ok logarithm ∧
        logarithm.weight = prior.weightAfter [] hypothesis := by
    intro hypothesis _
    rw [Prior.weightAfter_nil]
    exact finite.logPrior_eq_ok hypothesis
  obtain ⟨entries, succeeds, weights⟩ := Sequence.mapM_forall₂_ok each
  refine ⟨entries, succeeds, ?_⟩
  rw [← List.forall₂_eq_eq_eq, jointWeights, List.forall₂_map_left_iff, List.forall₂_map_right_iff]
  exact weights.flip

/-- The prior probabilities are the shares of the prior weights, if there is any. -/
theorem priorBeliefs_eq_ok (finite : prior.FinitelyWeighted) (space : HypothesisSpace) :
    space.priorBeliefs prior = .ok (shares? (space.jointWeights prior [])) := by
  obtain ⟨entries, succeeds, weights⟩ := logPriors_eq_ok finite space
  simp only [priorBeliefs, succeeds, bind, Except.bind, normalize?_eq, weights]
  rfl

/-- Every entry of a vector stands for a weight, and an entry that is not finite for none. -/
theorem weight_ite_isFinite (entry : Exact) :
    (if Scalar.isFinite entry then entry else Scalar.negInf).weight = entry.weight := by
  split
  next => rfl
  next notFinite => rw [weight_of_not_isFinite notFinite, weight_negInf]

namespace Sound

variable (sound : space.Sound)

include sound

section Start

variable {logPriors : List Exact} (known : space.logPriors prior = .ok logPriors)
  (some : (logPriors.map weight).sum ≠ 0)

include known some

/-- The entries after all examples stand for the prior weights times the likelihoods, divided by the
prior weights together. -/
theorem map_weight_logBeliefs (examples : List Nat) :
    ∃ entries, space.logBeliefs prior examples = .ok entries ∧
      entries.map weight = (space.weigh (logPriors.map weight) examples).map
        (· * (logPriors.map weight).sum⁻¹) := by
  have positive := lt_of_le_of_ne
    (List.sum_nonneg (List.forall_mem_map.2 fun entry _ => weight_nonneg entry)) (Ne.symm some)
  simp only [logBeliefs, known, bind, Except.bind, logTotal?_eq, if_neg some]
  refine ⟨_, rfl, ?_⟩
  rw [sound.withMembership_consistent, List.map_zipWith, List.map_zipWith, weigh,
    List.zipWith_map_left, List.map_zipWith]
  apply Sequence.zipWith_congr_right
  intro hypothesis listed entry
  rw [weight_ite_isFinite, weight_add, weight_sub_real, Real.exp_log positive,
    Hypothesis.weight_logLikelihood
      (sound.inhabited _ (Array.mem_toList_iff.1 listed)) decide_eq_true_iff,
    div_eq_mul_inv, mul_right_comm]

/-- The vector after all examples has the shares of the prior weights times the likelihoods. -/
theorem posteriorBeliefs_eq_vectorOf (examples : List Nat) :
    space.posteriorBeliefs prior examples =
      .ok (vectorOf examples (space.weigh (logPriors.map weight) examples)) := by
  obtain ⟨entries, succeeds, weights⟩ := sound.map_weight_logBeliefs known some examples
  simp only [posteriorBeliefs, succeeds, bind, Except.bind, normalize?_eq, weights,
    shares?_map_mul (inv_ne_zero some), vectorOf]
  cases shares? (space.weigh (logPriors.map weight) examples) <;> rfl

end Start

/-- The entries after all examples stand for the weights after the examples, divided by the prior
weights together. -/
theorem logBeliefs_eq_ok (finite : prior.FinitelyWeighted) (examples : List Nat) :
    ∃ entries, space.logBeliefs prior examples = .ok entries ∧
      entries.map weight =
        (space.jointWeights prior examples).map (· * (space.priorTotal prior)⁻¹) := by
  obtain ⟨logPriors, succeeds, weights⟩ := logPriors_eq_ok finite space
  by_cases weightless : space.priorTotal prior = 0
  · have lengths : logPriors.length = space.hypotheses.toList.length := by
      simpa [jointWeights] using congrArg List.length weights
    have noTotal : (logPriors.map weight).sum = 0 := by rw [weights, ← priorTotal, weightless]
    simp only [logBeliefs, succeeds, bind, Except.bind, logTotal?_eq, if_pos noTotal]
    refine ⟨_, rfl, ?_⟩
    simp [weightless, jointWeights, lengths, List.map_const', Function.comp_def]
  · have some : (logPriors.map weight).sum ≠ 0 := by rwa [weights, ← priorTotal]
    rw [← weigh_jointWeights, ← weights, priorTotal, ← weights]
    exact sound.map_weight_logBeliefs succeeds some examples

/-- The vector after all examples follows the rule of Bayes. -/
theorem posteriorBeliefs_eq_ok (finite : prior.FinitelyWeighted) (examples : List Nat) :
    space.posteriorBeliefs prior examples = .ok (space.bayes prior examples) := by
  obtain ⟨entries, succeeds, weights⟩ := sound.logBeliefs_eq_ok finite examples
  have normalized : normalize? entries = shares? (space.jointWeights prior examples) := by
    rw [normalize?_eq, weights]
    by_cases weightless : space.priorTotal prior = 0
    · have none := jointWeights_append_eq_zero finite weightless examples
      rw [List.nil_append] at none
      rw [none]
      simp [shares?]
    · exact shares?_map_mul (inv_ne_zero weightless) _
  simp only [posteriorBeliefs, succeeds, bind, Except.bind, normalized, bayes]
  cases shares? (space.jointWeights prior examples) <;> rfl

/-- One more example multiplies the weight that each entry stands for by the chance of the
example. -/
theorem map_weight_observe (entries : List Exact) (n : Nat) :
    (space.observe entries n).map weight =
      List.zipWith (fun weight hypothesis => weight * hypothesis.chance n) (entries.map weight)
        space.hypotheses.toList := by
  rw [observe, sound.withMembership_containing, List.map_zipWith, List.map_zipWith,
    List.zipWith_map_left]
  apply Sequence.zipWith_congr_right
  intro hypothesis listed entry
  have positive : (0 : ℝ) < hypothesis.count := by
    exact_mod_cast Hypothesis.count_pos (sound.inhabited _ (Array.mem_toList_iff.1 listed))
  by_cases member : n ∈ hypothesis.members
  · by_cases finite : Scalar.isFinite entry = true
    · simp only [member, finite, decide_true, Bool.and_self, if_true, Hypothesis.chance]
      rw [ofNat_eq, log_real positive, weight_sub_real, Real.exp_log positive, div_eq_mul_inv]
    · rw [weight_of_not_isFinite finite, zero_mul]
      simp [finite]
  · simp [member, Hypothesis.chance]

end Sound

end HypothesisSpace

end NumberConcepts
