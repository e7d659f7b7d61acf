import NumberConcepts.Proofs.Belief.Evidence
import NumberConcepts.Proofs.Belief.Leaders
import NumberConcepts.Proofs.Random
import NumberConcepts.Simulation
/-!
# Simulated examples

What is drawn can be inferred back. A hypothesis drawn from the prior has some weight,
and examples drawn from its members leave it some, so that it stands in the ranking
for these examples and the ranking cannot be missing. The first hypothesis of the
ranking is at least as probable, whatever the source of the draws.
-/

namespace NumberConcepts

open Exact

/-- The hypothesis behind the examples has some probability, and the most probable one has no less;
where they are the same hypothesis they have the same members. -/
structure RecoveryOutcome.Credible (outcome : RecoveryOutcome Exact) : Prop where
  probabilities : ∃ p q : ℝ, outcome.trueProbability = .real p ∧
    outcome.bestProbability = .real q ∧ 0 < p ∧ p ≤ q ∧ q ≤ 1
  recovered : outcome.recovered = true → outcome.recoveredMembers = true

namespace HypothesisSpace

variable {space : HypothesisSpace} {prior : Prior Exact} {examples : List Nat}

/-! ### The hypothesis behind the examples -/

section Portions

variable (finite : prior.FinitelyWeighted) (some : (space.jointWeights prior examples).sum ≠ 0)

include finite some

/-- A hypothesis with a weight after the examples has a part of all weight. -/
theorem portion_pos {hypothesis : Hypothesis space.domain.size}
    (hasWeight : 0 < prior.weightAfter examples hypothesis) :
    0 < space.portion prior examples hypothesis :=
  div_pos hasWeight
    (lt_of_le_of_ne (List.sum_nonneg (jointWeights_nonneg finite)) some.symm)

theorem portion_le_one {hypothesis : Hypothesis space.domain.size}
    (listed : hypothesis ∈ space.hypotheses) :
    space.portion prior examples hypothesis ≤ 1 := by
  rw [← sum_portion some]
  exact List.single_le_sum (nonneg_of_mem_portions finite _) _
    (List.mem_map_of_mem (Array.mem_toList_iff.2 listed))

end Portions

/-- Where no hypothesis is listed twice, a concept has the part of all weight of its hypothesis. -/
theorem mass_concept (distinct : space.hypotheses.toList.Nodup)
    {hypothesis : Hypothesis space.domain.size} (listed : hypothesis ∈ space.hypotheses) :
    (space.mass prior examples fun other => other.concept == hypothesis.concept) =
      space.portion prior examples hypothesis := by
  classical
  have once : (space.hypotheses.toList.filter fun other =>
      other.concept == hypothesis.concept) = [hypothesis] := by
    have same : ∀ other : Hypothesis space.domain.size,
        (other.concept == hypothesis.concept) = (other == hypothesis) := by
      intro other
      rw [Bool.eq_iff_iff, beq_iff_eq, beq_iff_eq]
      exact Hypothesis.concept_injective.eq_iff
    simp only [same]
    rw [List.filter_beq, List.count_eq_one_of_mem distinct (Array.mem_toList_iff.2 listed)]
    rfl
  rw [mass, once, List.map_singleton, List.sum_singleton]

/-- The first hypothesis of a ranking of all leaders that contain the examples has at least the part
of the weight that one of these has. -/
theorem exists_best {ranking : Posterior Exact space.domain.size}
    (entries : ranking.entries.map Ranked.weighted =
      (space.leaders prior examples).filter (Weighted.fits examples))
    {truth : Hypothesis space.domain.size} (listed : truth ∈ space.hypotheses)
    (contains : ∀ n ∈ examples, n ∈ truth.members) :
    ∃ best, ranking.best? = some best ∧ best.hypothesis ∈ space.hypotheses ∧
      best.probability = real (space.portion prior examples best.hypothesis) ∧
      space.portion prior examples truth ≤ space.portion prior examples best.hypothesis := by
  have sorted : ranking.entries.Pairwise fun a b => a.place ≤ b.place := by
    have leading := (pairwise_leaders space prior examples).filter (Weighted.fits examples)
    rw [← entries, List.pairwise_map] at leading
    exact leading
  have isLeader : ∀ entry ∈ ranking.entries, entry.hypothesis ∈ space.hypotheses ∧
      entry.probability = real (space.portion prior examples entry.hypothesis) := by
    intro entry isEntry
    have fitting := List.mem_map_of_mem (f := Ranked.weighted) isEntry
    rw [entries] at fitting
    obtain ⟨hypothesis, known, same⟩ := mem_leaders.1 (List.mem_of_mem_filter fitting)
    obtain ⟨rfl, probability⟩ := Prod.mk.inj same
    exact ⟨known, probability.symm⟩
  have ranked : space.shared prior examples truth ∈ ranking.entries.map Ranked.weighted := by
    rw [entries, List.mem_filter, Weighted.fits_iff]
    exact ⟨mem_leaders.2 ⟨truth, listed, rfl⟩, contains⟩
  obtain ⟨entry, isEntry, isTruth⟩ := List.mem_map.1 ranked
  obtain ⟨best, isBest, isHead, most⟩ := Ranked.exists_first_of_mem sorted isEntry
  have probability : entry.probability = real (space.portion prior examples truth) :=
    congrArg Prod.snd isTruth
  obtain ⟨known, isPortion⟩ := isLeader best isBest
  rw [probability, isPortion] at most
  exact ⟨best, isHead, known, isPortion, most⟩

/-- Examples that are members of a hypothesis with some prior weight are explained, and it is
compared with the most probable hypothesis. -/
theorem Sound.exists_outcome (sound : space.Sound) (finite : prior.FinitelyWeighted)
    (distinct : space.hypotheses.toList.Nodup) {truth : Hypothesis space.domain.size}
    (listed : truth ∈ space.hypotheses) (hasWeight : 0 < prior.weightOf truth)
    (contains : ∀ n ∈ examples, n ∈ truth.members) :
    ∃ ranking outcome, space.posterior prior examples = .ok (.ok ranking) ∧
      compareTruth truth ranking = some outcome ∧ outcome.Credible := by
  have weightLeft := Prior.weightAfter_pos hasWeight (sound.inhabited truth listed) contains
  have total := sum_jointWeights_ne_zero finite listed weightLeft
  obtain ⟨ranking, succeeds, weighs⟩ := sound.posterior_eq_ok finite total
  obtain ⟨_, succeeds', entries⟩ := sound.posterior_eq_leaders finite total
  obtain rfl := Except.ok.inj (Except.ok.inj (succeeds.symm.trans succeeds'))
  obtain ⟨best, isBest, known, isPortion, most⟩ := exists_best entries listed contains
  have trueProbability : ranking.probabilityOf truth.concept =
      real (space.portion prior examples truth) := by
    rw [← mass_concept distinct listed]
    exact weighs.sum fun other => other.concept == truth.concept
  have compared : compareTruth truth ranking = some {
      best := best.hypothesis.key
      bestProbability := best.probability
      trueProbability := ranking.probabilityOf truth.concept
      recovered := best.hypothesis.concept == truth.concept
      recoveredMembers := best.hypothesis.members == truth.members } := by
    rw [compareTruth, isBest]
    rfl
  refine ⟨ranking, _, succeeds, compared, ?_, ?_⟩
  · exact ⟨_, _, trueProbability, isPortion, portion_pos finite total weightLeft, most,
      portion_le_one finite total known⟩
  · intro recovered
    rw [beq_iff_eq] at recovered ⊢
    rw [Hypothesis.concept_injective recovered]

/-! ### The draws -/

section Draws

variable {σ : Type} [RandomSource Exact σ] (choosing : RandomSource.Choosing σ)

include choosing

/-- A position drawn by logarithmic weights has some weight, if any has. -/
theorem drawPosition_yields {entries : List Exact}
    (some : (entries.map weight).sum ≠ 0) :
    (Simulation.drawPosition entries : Draw σ Nat).Yields fun position =>
      ∃ entry, entries[position]? = .some entry ∧ 0 < entry.weight := by
  let total := (entries.map weight).sum
  have nonnegative : 0 ≤ total :=
    List.sum_nonneg (List.forall_mem_map.2 fun entry _ => weight_nonneg entry)
  have positive : 0 < total := lt_of_le_of_ne nonnegative some.symm
  let shares := entries.map fun entry => entry.weight / total
  have normalized : LogWeights.normalize? entries = .some (shares.map real) := by
    rw [LogWeights.normalize?_eq, LogWeights.shares?, if_neg some, List.map_map, List.map_map]
    rfl
  have allowed : ∀ share ∈ shares, 0 ≤ share := List.forall_mem_map.2 fun entry _ =>
    div_nonneg (weight_nonneg entry) positive.le
  have someShare : ∃ share ∈ shares, 0 < share := by
    obtain ⟨_, listed, hasWeight⟩ := List.exists_mem_ne_zero_of_sum_ne_zero some
    obtain ⟨entry, isEntry, rfl⟩ := List.mem_map.1 listed
    refine ⟨_, List.mem_map_of_mem isEntry, div_pos ?_ positive⟩
    exact lt_of_le_of_ne (weight_nonneg entry) hasWeight.symm
  rw [Simulation.drawPosition, normalized]
  refine (choosing.weighted allowed someShare).imp ?_
  rintro position ⟨share, isAt, hasShare⟩
  rw [List.getElem?_map, Option.map_eq_some_iff] at isAt
  obtain ⟨entry, isEntry, rfl⟩ := isAt
  exact ⟨entry, isEntry, (div_pos_iff_of_pos_right positive).1 hasShare⟩

/-- A hypothesis drawn from the prior is one of the space and has some weight, if any has. -/
theorem drawHypothesis_yields (finite : prior.FinitelyWeighted)
    (some : space.priorTotal prior ≠ 0) :
    (space.drawHypothesis prior : Draw σ Nat).Yields fun position =>
      ∃ hypothesis, space.hypotheses[position]? = .some hypothesis ∧
        0 < prior.weightOf hypothesis := by
  obtain ⟨logPriors, succeeds, weights⟩ := logPriors_eq_ok finite space
  have total : (logPriors.map weight).sum ≠ 0 := by rwa [weights]
  rw [drawHypothesis, Draw.ofExcept_bind succeeds]
  refine (drawPosition_yields choosing total).imp ?_
  rintro position ⟨entry, isEntry, positive⟩
  have isWeight : (space.jointWeights prior [])[position]? = .some entry.weight := by
    rw [← weights, List.getElem?_map, isEntry, Option.map_some]
  rw [jointWeights, List.getElem?_map, Array.getElem?_toList, Option.map_eq_some_iff] at isWeight
  obtain ⟨hypothesis, isHypothesis, same⟩ := isWeight
  rw [Prior.weightAfter_nil] at same
  exact ⟨hypothesis, isHypothesis, same ▸ positive⟩

/-- As many members are drawn as asked for, if there are members. -/
theorem drawMembers_yields {members : NatSet} (inhabited : members ≠ ∅) (count : Nat) :
    (Simulation.drawMembers Exact members count : Draw σ (List Nat)).Yields fun examples =>
      examples.length = count ∧ ∀ n ∈ examples, n ∈ members := by
  obtain ⟨n, member⟩ := NatSet.exists_mem_of_ne_empty inhabited
  have given : members.toList ≠ [] := List.ne_nil_of_mem (NatSet.mem_toList.2 member)
  have notEmpty : members.toList.isEmpty = false := by simpa using given
  rw [Simulation.drawMembers, notEmpty]
  refine ((choosing.bounded.choice given).times count).imp ?_
  rintro examples ⟨length, listed⟩
  exact ⟨length, fun n isExample => NatSet.mem_toList.1 (listed n isExample)⟩

end Draws

/-- Examples were drawn from the members of a hypothesis of the space that has some weight. -/
structure Draws (space : HypothesisSpace) (prior : Prior Exact) (count : Int)
    (drawn : SimulatedExamples space.domain.size) : Prop where
  listed : space.hypotheses[drawn.position]? = some drawn.hypothesis
  hasWeight : 0 < prior.weightOf drawn.hypothesis
  length : drawn.examples.length = count.toNat
  members : ∀ n ∈ drawn.examples, n ∈ drawn.hypothesis.members

section Trials

variable {σ : Type} [RandomSource Exact σ]

/-- Where some hypothesis has a weight, a simulation draws one with examples from its members. -/
theorem Sound.simulate_yields (sound : space.Sound) (choosing : RandomSource.Choosing σ)
    (finite : prior.FinitelyWeighted) (some : space.priorTotal prior ≠ 0) (count : Int) :
    (space.simulate prior count : Draw σ (SimulatedExamples space.domain.size)).Yields
      (space.Draws prior count) := by
  refine (drawHypothesis_yields choosing finite some).bind ?_
  rintro position ⟨hypothesis, isAt, hasWeight⟩
  have bound := (Array.getElem?_eq_some_iff.1 isAt).1
  have same : space.atPosition position = hypothesis := by rw [atPosition, isAt, Option.getD_some]
  have found : space.hypothesis position = .ok hypothesis := by rw [hypothesis_natCast bound, same]
  rw [Draw.ofExcept_bind found]
  have inhabited := sound.inhabited hypothesis (Array.mem_of_getElem? isAt)
  refine (drawMembers_yields choosing inhabited count.toNat).bind ?_
  rintro examples ⟨length, members⟩
  exact .pure ⟨isAt, hasWeight, length, members⟩

/-- A trial reports drawn examples, and what was inferred from them explains them. -/
structure Recovers (space : HypothesisSpace) (prior : Prior Exact) (count : Int)
    (drawn : SimulatedExamples space.domain.size) (trial : RecoveryTrial Exact) : Prop where
  reports : trial.trueKey = drawn.hypothesis.key ∧ trial.trueSize = drawn.hypothesis.count ∧
    trial.examples = drawn.examples ∧ trial.asked = count
  checked : space.domain.validate (Domain.asData trial.examples) = .ok trial.examples
  explained : ∃ ranking outcome, space.posterior prior trial.examples = .ok (.ok ranking) ∧
    trial.outcome = some outcome ∧ compareTruth drawn.hypothesis ranking = some outcome ∧
    outcome.Credible

/-- Over the base space of a domain, whatever the source, the prior and the number of examples: a
trial of recovery draws as many examples as asked for from the members of a hypothesis, there is a
ranking for them, and in it this hypothesis has some probability. -/
theorem recover_explains {domain : Domain} (choosing : RandomSource.Choosing σ)
    (finite : prior.FinitelyWeighted)
    (weighty : ∃ hypothesis ∈ (base domain).hypotheses, ∃ logarithm : ℝ,
      prior.logPrior domain.size hypothesis.concept (some hypothesis.count) =
        .ok (.real logarithm)) (count : Int) (state : σ) :
    ∃ drawn trial, Draw.resultFrom state ((base domain).simulate prior count) = .ok drawn ∧
      Draw.resultFrom state ((base domain).recover prior count) = .ok trial ∧
      (base domain).Draws prior count drawn ∧ (base domain).Recovers prior count drawn trial := by
  obtain ⟨hypothesis, listed, logarithm, hasWeight⟩ := weighty
  have sound := sound_base domain
  have total := priorTotal_ne_zero finite listed hasWeight
  obtain ⟨drawn, after, simulated, draws⟩ :=
    sound.simulate_yields choosing finite total count state
  have known := Array.mem_of_getElem? draws.listed
  obtain ⟨ranking, outcome, succeeds, compared, credible⟩ :=
    sound.exists_outcome finite (nodup_base domain) known draws.hasWeight draws.members
  have inside : ∀ n ∈ drawn.examples, 1 ≤ n ∧ n ≤ domain.size := fun n isExample =>
    sound.inside _ known n (draws.members n isExample)
  let trial : RecoveryTrial Exact := {
    trueKey := drawn.hypothesis.key
    trueSize := drawn.hypothesis.count
    examples := drawn.examples
    asked := count
    outcome := compareTruth drawn.hypothesis ranking }
  have recovered : Draw.resultFrom state ((base domain).recover prior count) = .ok trial := by
    rw [Draw.resultFrom, recover, Draw.run_bind simulated, succeeds]
    rfl
  exact ⟨drawn, trial, congrArg Prod.fst simulated, recovered, draws, ⟨rfl, rfl, rfl, rfl⟩,
    Domain.validate_eq_ok inside, ranking, outcome, succeeds, compared, compared, credible⟩

end Trials

/-- Over twenty numbers the Mersenne twister of seed 7 draws three examples from the uniform prior
that are explained. -/
theorem recover_explains_for_seed_seven :
    ∃ drawn trial,
      Draw.resultFrom (MersenneTwister.ofSeed 7)
        ((base ⟨20, by decide⟩).simulate (.uniform : Prior Exact) 3) = .ok drawn ∧
      Draw.resultFrom (MersenneTwister.ofSeed 7)
        ((base ⟨20, by decide⟩).recover (.uniform : Prior Exact) 3) = .ok trial ∧
      (base ⟨20, by decide⟩).Draws .uniform 3 drawn ∧
      (base ⟨20, by decide⟩).Recovers .uniform 3 drawn trial := by
  let domain : Domain := ⟨20, by decide⟩
  let even : Hypothesis 20 := .ofTerminal 20 (.primitive .even)
  have named : Prior.named? "uniform" = some (Prior.uniform : Prior Exact) := rfl
  have listed : even ∈ (base domain).hypotheses :=
    mem_ofConcepts.2 ⟨by decide, NatSet.ne_empty_of_mem (n := 2) (by decide)⟩
  have weighty : ∃ hypothesis ∈ (base domain).hypotheses, ∃ logarithm : ℝ,
      (Prior.uniform : Prior Exact).logPrior 20 hypothesis.concept (some hypothesis.count) =
        .ok (.real logarithm) :=
    ⟨even, listed, _, Prior.logPrior_uniform_terminal 20 _ _⟩
  exact recover_explains MersenneTwister.choosing (.of_named named) weighty 3 (.ofSeed 7)

end HypothesisSpace

end NumberConcepts
