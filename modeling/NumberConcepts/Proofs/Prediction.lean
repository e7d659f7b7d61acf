import NumberConcepts.Prediction
import NumberConcepts.Proofs.Belief.Posterior
import NumberConcepts.Proofs.Domain
/-!
# Predictions of one number

The probability of a number is the part of all weight that the hypotheses with it
have. A ranking adds it up over the consistent hypotheses and a belief vector over
all of them, and because it is between zero and one neither is ever cut off. For an
example it is one, as a ranking says without adding anything up.
-/

namespace NumberConcepts

open Exact

namespace HypothesisSpace

variable {space : HypothesisSpace} {prior : Prior Exact} {examples : List Nat}

/-! ### Portions of the weight -/

/-- The part of all weight that a hypothesis has after the examples. -/
noncomputable def portion (space : HypothesisSpace) (prior : Prior Exact) (examples : List Nat)
    (hypothesis : Hypothesis space.domain.size) : ℝ :=
  prior.weightAfter examples hypothesis / (space.jointWeights prior examples).sum

/-- The part of all weight that the chosen hypotheses have together. -/
noncomputable def mass (space : HypothesisSpace) (prior : Prior Exact) (examples : List Nat)
    (chosen : Hypothesis space.domain.size → Bool) : ℝ :=
  ((space.hypotheses.toList.filter chosen).map (space.portion prior examples)).sum

/-- The part of all weight that the hypotheses with a number have. -/
noncomputable def foretold (space : HypothesisSpace) (prior : Prior Exact) (examples : List Nat)
    (n : Nat) : ℝ :=
  space.mass prior examples fun hypothesis => n ∈ hypothesis.members

theorem portion_eq_zero {hypothesis : Hypothesis space.domain.size}
    (lacks : ¬ ∀ n ∈ examples, n ∈ hypothesis.members) :
    space.portion prior examples hypothesis = 0 := by
  rw [portion, Prior.weightAfter_eq_zero lacks, zero_div]

theorem portion_nonneg (finite : prior.FinitelyWeighted)
    (hypothesis : Hypothesis space.domain.size) : 0 ≤ space.portion prior examples hypothesis :=
  div_nonneg finite.weightAfter_nonneg (List.sum_nonneg (jointWeights_nonneg finite))

theorem nonneg_of_mem_portions (finite : prior.FinitelyWeighted)
    (hypotheses : List (Hypothesis space.domain.size)) :
    ∀ portion ∈ hypotheses.map (space.portion prior examples), 0 ≤ portion := by
  rw [List.forall_mem_map]
  exact fun hypothesis _ => portion_nonneg finite hypothesis

theorem mass_nonneg (finite : prior.FinitelyWeighted)
    (chosen : Hypothesis space.domain.size → Bool) : 0 ≤ space.mass prior examples chosen :=
  List.sum_nonneg (nonneg_of_mem_portions finite _)

/-- The chosen hypotheses have no part of the weight exactly when none of them has a portion. -/
theorem mass_eq_zero_iff (finite : prior.FinitelyWeighted)
    (chosen : Hypothesis space.domain.size → Bool) :
    space.mass prior examples chosen = 0 ↔
      ∀ hypothesis ∈ space.hypotheses, 0 < space.portion prior examples hypothesis →
        chosen hypothesis = false := by
  constructor
  · intro weightless hypothesis listed hasPortion
    by_contra isChosen
    rw [Bool.not_eq_false] at isChosen
    have kept := List.mem_filter.2 ⟨Array.mem_toList_iff.2 listed, isChosen⟩
    exact hasPortion.ne' (List.all_zero_of_le_zero_le_of_sum_eq_zero
      (nonneg_of_mem_portions finite _) weightless (List.mem_map_of_mem kept))
  · intro others
    apply List.sum_eq_zero
    rw [List.forall_mem_map]
    intro hypothesis kept
    obtain ⟨listed, isChosen⟩ := List.mem_filter.1 kept
    by_contra hasPortion
    have positive := lt_of_le_of_ne (portion_nonneg finite hypothesis) (Ne.symm hasPortion)
    rw [others hypothesis (Array.mem_toList_iff.1 listed) positive] at isChosen
    cases isChosen

section Weighted

variable (some : (space.jointWeights prior examples).sum ≠ 0)

include some

/-- All portions together are one. -/
theorem sum_portion : (space.hypotheses.toList.map (space.portion prior examples)).sum = 1 := by
  have portions : space.hypotheses.toList.map (space.portion prior examples) =
      (space.jointWeights prior examples).map (· * (space.jointWeights prior examples).sum⁻¹) := by
    rw [jointWeights, List.map_map]
    rfl
  rw [portions, List.sum_map_mul_right, List.map_id', mul_inv_cancel₀ some]

/-- The chosen hypotheses and all others have all weight together. -/
theorem mass_add_mass_not (chosen : Hypothesis space.domain.size → Bool) :
    space.mass prior examples chosen +
      space.mass prior examples (fun hypothesis => !chosen hypothesis) = 1 := by
  have parts := (List.filter_append_perm chosen space.hypotheses.toList).map
    (space.portion prior examples)
  rw [mass, mass, ← List.sum_append, ← List.map_append, parts.sum_eq, sum_portion some]

theorem mass_le_one (finite : prior.FinitelyWeighted)
    (chosen : Hypothesis space.domain.size → Bool) : space.mass prior examples chosen ≤ 1 := by
  have parts := mass_add_mass_not some chosen
  have others : 0 ≤ space.mass prior examples fun hypothesis => !chosen hypothesis :=
    mass_nonneg finite _
  linarith

/-- The chosen hypotheses have all the weight exactly when no other one has a portion. -/
theorem mass_eq_one_iff (finite : prior.FinitelyWeighted)
    (chosen : Hypothesis space.domain.size → Bool) :
    space.mass prior examples chosen = 1 ↔
      ∀ hypothesis ∈ space.hypotheses, 0 < space.portion prior examples hypothesis →
        chosen hypothesis = true := by
  have parts := mass_add_mass_not some chosen
  have others : space.mass prior examples (fun hypothesis => !chosen hypothesis) = 0 ↔ _ :=
    mass_eq_zero_iff finite _
  simp only [Bool.not_eq_false'] at others
  rw [← others]
  constructor <;> intro <;> linarith

/-- Every hypothesis with a portion contains all examples. -/
theorem foretold_example (finite : prior.FinitelyWeighted) {n : Nat} (isExample : n ∈ examples) :
    space.foretold prior examples n = 1 := by
  rw [foretold, mass_eq_one_iff some finite]
  intro hypothesis _ hasPortion
  rw [decide_eq_true_iff]
  by_contra lacks
  exact hasPortion.ne' (portion_eq_zero fun contains => lacks (contains n isExample))

theorem bayes_eq_ok : space.bayes prior examples =
    .ok ((space.hypotheses.toList.map (space.portion prior examples)).map real) := by
  rw [bayes, LogWeights.shares?, if_neg some, List.map_map]
  simp only [jointWeights, List.map_map]
  rfl

end Weighted

theorem bayes_eq_error (weightless : (space.jointWeights prior examples).sum = 0) :
    space.bayes prior examples = .error { examples, samples := none } := by
  rw [bayes, LogWeights.shares?, if_pos weightless]

/-! ### Adding portions up -/

/-- A ranking for the examples gives the chosen hypotheses their part of all weight, whichever are
chosen. -/
structure Weighs (space : HypothesisSpace) (prior : Prior Exact) (examples : List Nat)
    (ranking : Posterior Exact space.domain.size) : Prop where
  isFor : ranking.examples = examples
  sum : ∀ chosen : Hypothesis space.domain.size → Bool,
    Scalar.sum ((ranking.entries.filter fun entry => chosen entry.hypothesis).map
      Ranked.probability) = real (space.mass prior examples chosen)

/-- Such a ranking gives each number the weight of the hypotheses with it, whether it is an example
or not. -/
theorem Weighs.predict_eq {ranking : Posterior Exact space.domain.size}
    (weighs : space.Weighs prior examples ranking) (finite : prior.FinitelyWeighted)
    (some : (space.jointWeights prior examples).sum ≠ 0) (n : Nat) :
    ranking.predict n = real (space.foretold prior examples n) := by
  rw [Posterior.predict, weighs.isFor]
  split
  next isExample =>
    have listed : n ∈ examples := by simpa using isExample
    rw [foretold_example some finite listed, one_eq]
  next =>
    simp only [weighs.sum fun hypothesis => hypothesis.members.containsInt n]
    rw [zero_eq, one_eq, max_real, min_real, max_eq_right (mass_nonneg finite _),
      min_eq_right (mass_le_one some finite _)]
    simp only [foretold, NatSet.containsInt_eq_decide]

/-- Positions that leave out no consistent hypothesis have the mass of all chosen hypotheses. -/
theorem Sound.sum_portion_positions (sound : space.Sound) {positions : List Nat}
    (distinct : positions.Nodup)
    (listed : ∀ position ∈ positions, position < space.hypotheses.size)
    (covering : ∀ position ∈ space.consistent examples, position ∈ positions)
    (chosen : Hypothesis space.domain.size → Bool) :
    ((positions.filter fun position => chosen (space.atPosition position)).map fun position =>
      space.portion prior examples (space.atPosition position)).sum =
        space.mass prior examples chosen := by
  let value (hypothesis : Hypothesis space.domain.size) : ℝ :=
    if chosen hypothesis then space.portion prior examples hypothesis else 0
  have vanishes : ∀ hypothesis, (¬ ∀ n ∈ examples, n ∈ hypothesis.members) →
      value hypothesis = 0 := by
    intro hypothesis lacks
    simp [value, portion_eq_zero lacks]
  rw [mass, Sequence.sum_map_filter, Sequence.sum_map_filter]
  exact sound.sum_positions distinct listed covering vanishes

/-- The hypothesis at a position as a candidate with its share of all weight. -/
noncomputable def candidateAt (space : HypothesisSpace) (prior : Prior Exact) (examples : List Nat)
    (position : Nat) : Ranked Exact space.domain.size :=
  .ofTotal (space.jointWeights prior examples).sum
    (.assess prior examples (.some (position : Int)) (space.atPosition position))

/-- The share is the part of all weight that the hypothesis has. -/
theorem Sound.probability_candidateAt (sound : space.Sound) (finite : prior.FinitelyWeighted)
    {position : Nat} (listed : position < space.hypotheses.size) :
    (space.candidateAt prior examples position).probability =
      real (space.portion prior examples (space.atPosition position)) := by
  rw [candidateAt, Ranked.ofTotal, sound.weight_assess finite listed, portion]

namespace Sound

variable (sound : space.Sound) (finite : prior.FinitelyWeighted)
  (some : (space.jointWeights prior examples).sum ≠ 0)

include sound finite some

/-- From a vector of portions each number has the weight of the hypotheses with it. -/
theorem predict_portions (numbers : List Nat) :
    space.predict ((space.hypotheses.toList.map (space.portion prior examples)).map real)
      (numbers.map Int.ofNat) =
        numbers.map fun n => real (space.foretold prior examples n) := by
  rw [predict, List.map_map]
  refine List.map_congr_left fun n _ => ?_
  let contains (hypothesis : Hypothesis space.domain.size) : Bool := n ∈ hypothesis.members
  have terms : (space.withMembership (space.index.containing n)
      ((space.hypotheses.toList.map (space.portion prior examples)).map real)).map
        (fun (belief, _, contains) => Scalar.ofNat contains.toNat * belief) =
      (space.hypotheses.toList.map fun hypothesis =>
        if contains hypothesis then space.portion prior examples hypothesis else 0).map real := by
    rw [sound.withMembership_containing, List.zipWith_map_left, List.zipWith_map_left,
      List.zipWith_self, List.map_map, List.map_map]
    refine List.map_congr_left fun hypothesis _ => ?_
    by_cases member : n ∈ hypothesis.members <;> simp [contains, member]
  simp only [Function.comp_apply, Int.ofNat_eq_natCast]
  rw [terms, sum_map_real, ← Sequence.sum_map_filter, ← mass, zero_eq, one_eq, max_real, min_real,
    max_eq_left (mass_nonneg finite _), min_eq_left (mass_le_one some finite _)]
  rfl

/-- The consistent hypotheses are ranked with their parts of all weight. -/
theorem posterior_eq_sorted : ∃ order : List Nat, order.Perm (space.consistent examples).toList ∧
    space.posterior prior examples = .ok (.ok {
      examples
      entries := (order.map (space.candidateAt prior examples)).mergeSort Ranked.precedes
      logNormalizer := real (Real.log (space.jointWeights prior examples).sum) }) := by
  have known : ∀ position ∈ (space.consistent examples).toList,
      position < space.hypotheses.size := sound.listed_consistent
  obtain ⟨order, isOrder, succeeds⟩ := sound.rankPositions_eq_ok finite known examples
  have total := sound.sum_weight_assess finite (isOrder.nodup_iff.2 (NatSet.nodup_toList _))
    (fun position inOrder => known position (isOrder.mem_iff.1 inOrder))
    (fun position isConsistent => isOrder.mem_iff.2 (NatSet.mem_toList.2 isConsistent))
  rw [Posterior.ofAssessments_eq_ok examples total some, List.map_map] at succeeds
  rw [posterior_eq_rankPositions]
  exact ⟨order, isOrder, succeeds⟩

/-- The ranking of the consistent hypotheses has the weight of all hypotheses. -/
theorem posterior_eq_ok : ∃ ranking, space.posterior prior examples = .ok (.ok ranking) ∧
    space.Weighs prior examples ranking := by
  obtain ⟨order, isOrder, succeeds⟩ := sound.posterior_eq_sorted finite some
  have listed : ∀ position ∈ order, position < space.hypotheses.size :=
    fun position inOrder => sound.listed_consistent position (isOrder.mem_iff.1 inOrder)
  refine ⟨_, succeeds, rfl, ?_⟩
  intro chosen
  have probabilities := ((List.mergeSort_perm (order.map (space.candidateAt prior examples))
    Ranked.precedes).filter fun entry => chosen entry.hypothesis).map Ranked.probability
  rw [sum_perm probabilities, List.filter_map, List.map_map,
    ← sound.sum_portion_positions (isOrder.nodup_iff.2 (NatSet.nodup_toList _)) listed
      (fun position isConsistent => isOrder.mem_iff.2 (NatSet.mem_toList.2 isConsistent)),
    ← sum_map_real, List.map_map]
  refine congrArg Scalar.sum (List.map_congr_left fun position kept => ?_)
  exact sound.probability_candidateAt finite (listed position (List.mem_of_mem_filter kept))

end Sound

theorem nodup_indexedNumbers (domain : Domain) : (indexedNumbers domain).Nodup :=
  domain.nodup_numbers.map fun _ _ => Int.ofNat.inj

/-- Numbers are predicted for any examples. Where something explains these, there is a probability
for each number of the domain. -/
theorem Sound.exists_predictions (sound : space.Sound) (finite : prior.FinitelyWeighted)
    (examples : List Nat) :
    ∃ predictions, space.predictions prior examples = .ok predictions ∧
      ∀ values, predictions = .ok values → values.length = space.domain.size := by
  obtain ⟨ranking, succeeds, _⟩ := sound.posterior_agrees finite examples
  simp only [predictions, fullCurve, curve, succeeds, bind, Except.bind, pure, Except.pure]
  refine ⟨_, rfl, ?_⟩
  intro values explained
  cases ranking with
  | error missing => cases explained
  | ok posterior =>
      obtain rfl := Except.ok.inj explained
      rw [Sequence.eraseDups_of_nodup (nodup_indexedNumbers space.domain)]
      simp [indexedNumbers, Domain.numbers]

/-! ### The ways to predict -/

namespace Sound

variable (sound : space.Sound) (finite : prior.FinitelyWeighted)
  (some : (space.jointWeights prior examples).sum ≠ 0)

include sound finite some

theorem fullCurve_eq_ok : space.fullCurve prior examples =
    .ok (.ok ((indexedNumbers space.domain).map fun number =>
      (number, real (space.foretold prior examples number.toNat)))) := by
  obtain ⟨ranking, succeeds, weighs⟩ := sound.posterior_eq_ok finite some
  have points : ∀ number ∈ indexedNumbers space.domain, (number, ranking.predict number) =
      (number, real (space.foretold prior examples number.toNat)) := by
    intro number listed
    obtain ⟨n, _, rfl⟩ := List.mem_map.1 listed
    exact congrArg (Prod.mk _) (weighs.predict_eq finite some n)
  simp only [fullCurve, curve, succeeds, bind, Except.bind, Except.map,
    Sequence.eraseDups_of_nodup (nodup_indexedNumbers space.domain), List.map_congr_left points]
  rfl

theorem predictions_eq_ok : space.predictions prior examples =
    .ok (.ok (space.domain.numbers.map fun n => real (space.foretold prior examples n))) := by
  simp only [predictions, sound.fullCurve_eq_ok finite some, bind, Except.bind, Except.map,
    indexedNumbers, List.map_map]
  rfl

theorem predictOne_eq_ok {n : Nat} (inside : 1 ≤ n ∧ n ≤ space.domain.size) :
    space.predictOne prior examples (.int n) =
      .ok (.ok (real (space.foretold prior examples n))) := by
  obtain ⟨ranking, succeeds, weighs⟩ := sound.posterior_eq_ok finite some
  have admitted : space.domain.HasExamples [n] := ⟨List.cons_ne_nil n [], by simpa using inside⟩
  have checked : space.domain.validate [.int n] = .ok [n] := admitted.validateSome_eq_ok
  simp only [predictOne, succeeds, checked, bind, Except.bind, List.headD_cons,
    weighs.predict_eq finite some]
  rfl

end Sound

/-- Where nothing explains the examples, no ranking does. -/
theorem Sound.posterior_eq_error (sound : space.Sound) (finite : prior.FinitelyWeighted)
    (weightless : (space.jointWeights prior examples).sum = 0) :
    space.posterior prior examples = .ok (.error { examples, samples := none }) := by
  obtain ⟨ranking, succeeds, agrees⟩ := sound.posterior_agrees finite examples
  rw [bayes_eq_error weightless] at agrees
  cases ranking with
  | ok ranking => cases agrees
  | error missing =>
      obtain rfl : _ = missing := agrees
      exact succeeds

/-- The last prediction of a history is that of all examples. -/
theorem Sound.getLast?_predictionHistory (sound : space.Sound) (finite : prior.FinitelyWeighted)
    (given : examples ≠ []) :
    ∃ history, space.predictionHistory prior examples = .ok history ∧
      history.getLast? = some ((space.bayes prior examples).map fun entries =>
        space.predict entries (indexedNumbers space.domain)) := by
  have each : ∀ index ∈ List.range examples.length,
      (do
        let beliefs ← space.posteriorBeliefs prior (examples.take (index + 1))
        return beliefs.map fun entries => space.predict entries (indexedNumbers space.domain)) =
      (.ok ((space.bayes prior (examples.take (index + 1))).map fun entries =>
        space.predict entries (indexedNumbers space.domain)) : Except Fault _) := by
    intro index _
    rw [sound.posteriorBeliefs_eq_ok finite]
    rfl
  have some : examples.length ≠ 0 := mt List.length_eq_zero_iff.1 given
  refine ⟨_, Sequence.mapM_ok each, ?_⟩
  rw [List.getLast?_map, List.getLast?_range, if_neg some, Option.map_some,
    Nat.sub_add_cancel (Nat.pos_of_ne_zero some), List.take_length]

/-! ### Agreement -/

/-- What a belief vector says of a number when its probability is `p`. -/
structure Foretells (space : HypothesisSpace) (beliefs : List Exact) (n : Nat) (p : ℝ) : Prop where
  mass : Scalar.sum (((space.hypotheses.toList.zip beliefs).filter fun weighted =>
    n ∈ weighted.1.members).map Prod.snd) = .real p
  certain : p = 1 ↔ ∀ weighted ∈ space.hypotheses.toList.zip beliefs,
    Scalar.lt Scalar.zero weighted.2 = true → n ∈ weighted.1.members
  impossible : p = 0 ↔ ∀ weighted ∈ space.hypotheses.toList.zip beliefs,
    Scalar.lt Scalar.zero weighted.2 = true → n ∉ weighted.1.members

/-- All ways to predict a number give it one probability, or that nothing explains the examples. -/
structure Predicts (space : HypothesisSpace) (prior : Prior Exact) (examples : List Nat) (n : Nat)
    (answer : Explained ℝ) : Prop where
  alone : space.predictOne prior examples (.int n) = .ok (answer.map real)
  ranked : ∃ ranking, space.posterior prior examples = .ok ranking ∧
    Explained.Agree (fun ranking p => Scalar.sum ((ranking.entries.filter fun entry =>
      n ∈ entry.hypothesis.members).map Ranked.probability) = .real p) ranking answer
  onCurve : ∃ curve, space.fullCurve prior examples = .ok curve ∧
    Explained.Agree (fun points p => points.lookup (n : Int) = some (.real p)) curve answer
  listed : ∃ predictions, space.predictions prior examples = .ok predictions ∧
    Explained.Agree (fun values p => values[n - 1]? = some (.real p)) predictions answer
  believed : ∃ beliefs, space.posteriorBeliefs prior examples = .ok beliefs ∧
    Explained.Agree (fun entries p => space.predict entries [(n : Int)] = [.real p] ∧
      space.Foretells entries n p) beliefs answer
  atLast : ∃ history last, space.predictionHistory prior examples = .ok history ∧
    history.getLast? = some last ∧
    Explained.Agree (fun values p => values[n - 1]? = some (.real p)) last answer

/-- Beside its hypothesis stands each portion. -/
theorem zip_portions (space : HypothesisSpace) (prior : Prior Exact) (examples : List Nat) :
    space.hypotheses.toList.zip
      ((space.hypotheses.toList.map (space.portion prior examples)).map real) =
        space.hypotheses.toList.map fun hypothesis =>
          (hypothesis, real (space.portion prior examples hypothesis)) := by
  rw [List.map_map, List.zip_map_right, List.zip, List.zipWith_self, List.map_map]
  rfl

/-- The portions foretell a number. -/
theorem foretells_portions (finite : prior.FinitelyWeighted)
    (some : (space.jointWeights prior examples).sum ≠ 0) (n : Nat) :
    space.Foretells ((space.hypotheses.toList.map (space.portion prior examples)).map real) n
      (space.foretold prior examples n) := by
  refine ⟨?_, ?_, ?_⟩
  · rw [zip_portions, List.filter_map, List.map_map, foretold, mass, ← sum_map_real, List.map_map]
    rfl
  · simp only [foretold, mass_eq_one_iff some finite, zip_portions, List.forall_mem_map,
      zero_eq, lt_real, decide_eq_true_iff, Array.mem_toList_iff]
  · simp only [foretold, mass_eq_zero_iff finite, zip_portions, List.forall_mem_map, zero_eq,
      lt_real, decide_eq_true_iff, decide_eq_false_iff_not, Array.mem_toList_iff]

/-- Without any weight nothing explains the examples, whichever way is taken. -/
theorem Sound.predicts_nothing (sound : space.Sound) (finite : prior.FinitelyWeighted)
    (given : examples ≠ []) (weightless : (space.jointWeights prior examples).sum = 0) (n : Nat) :
    space.Predicts prior examples n (.error { examples, samples := none }) := by
  have ranked := sound.posterior_eq_error finite weightless
  have onCurve : space.fullCurve prior examples = .ok (.error { examples, samples := none }) := by
    simp only [fullCurve, curve, ranked]
    rfl
  have believed := sound.posteriorBeliefs_eq_ok finite examples
  obtain ⟨history, kept, isLast⟩ := sound.getLast?_predictionHistory finite given
  rw [bayes_eq_error weightless] at believed isLast
  constructor
  case alone =>
    simp only [predictOne, ranked]
    rfl
  case ranked => exact ⟨_, ranked, rfl⟩
  case onCurve => exact ⟨_, onCurve, rfl⟩
  case listed =>
    refine ⟨.error _, ?_, rfl⟩
    simp only [predictions, onCurve]
    rfl
  case believed => exact ⟨_, believed, rfl⟩
  case atLast => exact ⟨history, _, kept, isLast, rfl⟩

/-- With some weight the answer is the part of it that the hypotheses with the number have. -/
theorem Sound.predicts_foretold (sound : space.Sound) (finite : prior.FinitelyWeighted)
    (given : examples ≠ []) (some : (space.jointWeights prior examples).sum ≠ 0) {n : Nat}
    (inside : 1 ≤ n ∧ n ≤ space.domain.size) :
    space.Predicts prior examples n (.ok (space.foretold prior examples n)) := by
  obtain ⟨ranking, ranked, weighs⟩ := sound.posterior_eq_ok finite some
  have believed := sound.posteriorBeliefs_eq_ok finite examples
  obtain ⟨history, kept, isLast⟩ := sound.getLast?_predictionHistory finite given
  rw [bayes_eq_ok some] at believed isLast
  have place : space.domain.numbers[n - 1]? = .some n := by
    rw [Domain.numbers, List.getElem?_map, List.getElem?_range (by omega), Option.map_some,
      Nat.sub_add_cancel inside.1]
  have value : (space.domain.numbers.map fun n =>
      real (space.foretold prior examples n))[n - 1]? =
        .some (real (space.foretold prior examples n)) := by
    rw [List.getElem?_map, place, Option.map_some]
  constructor
  case alone => exact sound.predictOne_eq_ok finite some inside
  case ranked => exact ⟨_, ranked, weighs.sum fun hypothesis => n ∈ hypothesis.members⟩
  case onCurve =>
    refine ⟨_, sound.fullCurve_eq_ok finite some, ?_⟩
    rw [Explained.Agree, Sequence.lookup_map_pair, if_pos (mem_indexedNumbers.2 inside),
      Int.toNat_natCast]
  case listed => exact ⟨_, sound.predictions_eq_ok finite some, value⟩
  case believed =>
    refine ⟨_, believed, ?_, foretells_portions finite some n⟩
    exact sound.predict_portions finite some [n]
  case atLast =>
    refine ⟨history, _, kept, isLast, ?_⟩
    rw [Except.map, Explained.Agree, indexedNumbers, sound.predict_portions finite some]
    exact value

/-- Over the base space of a domain, all ways to predict one of its numbers agree. -/
theorem predictions_agree {domain : Domain} (finite : prior.FinitelyWeighted)
    (admitted : domain.HasExamples examples) {n : Nat} (inside : 1 ≤ n ∧ n ≤ domain.size) :
    ∃ answer, (base domain).Predicts prior examples n answer := by
  have sound := sound_base domain
  by_cases weightless : ((base domain).jointWeights prior examples).sum = 0
  · exact ⟨_, sound.predicts_nothing finite admitted.given weightless n⟩
  · exact ⟨_, sound.predicts_foretold finite admitted.given weightless inside⟩

/-- Over twenty numbers all ways to predict 16 after 4 and 8 and again 4 agree. -/
theorem predictions_agree_on_sixteen :
    ∃ answer, (base ⟨20, by decide⟩).Predicts .typeWeighted [4, 8, 4] 16 answer := by
  let domain : Domain := ⟨20, by decide⟩
  have named : Prior.named? "type-weighted" = some (Prior.typeWeighted : Prior Exact) := rfl
  have admitted : domain.HasExamples [4, 8, 4] := ⟨by decide, by decide⟩
  have inside : 1 ≤ 16 ∧ 16 ≤ domain.size := ⟨by decide, by decide⟩
  exact predictions_agree (.of_named named) admitted inside

end HypothesisSpace

end NumberConcepts
