import Mathlib.Algebra.BigOperators.Group.Finset.Basic
import NumberConcepts.Proofs.Belief.Order
import NumberConcepts.Proofs.Belief.Vector
/-!
# Ranked posteriors and belief vectors

A ranking of some hypotheses of a sound space gives them the entries of the
belief vector as long as it leaves out none that is consistent with the examples:
the hypotheses left out have no weight, and the total is that of all hypotheses.
Rankings and vectors also agree on whether anything explains the examples.
-/

namespace NumberConcepts

open LogWeights Exact

/-- Nothing explains the examples in either answer, or both answers are related. -/
def Explained.Agree {β γ : Type} (related : β → γ → Prop) : Explained β → Explained γ → Prop
  | .ok answer, .ok answer' => related answer answer'
  | .error missing, .error missing' => missing = missing'
  | _, _ => False

variable {prior : Prior Exact} {examples : List Nat}

namespace Assessment

variable {size : Nat}

/-- The assessment of a hypothesis. -/
noncomputable def assess (prior : Prior Exact) (examples : List Nat) (position : Option Int)
    (hypothesis : Hypothesis size) : Assessment Exact size where
  hypothesis
  position
  logPrior := (prior.logPrior size hypothesis.concept (some hypothesis.count)).toOption.getD
    Scalar.negInf
  logLikelihood := LogWeights.logLikelihood hypothesis.count examples.length
    (hypothesis.containsAll (examples.map Int.ofNat))

variable {hypothesis : Hypothesis size}

/-- A hypothesis with members is assessed without a fault. -/
theorem ofHypothesis_eq_ok (finite : prior.FinitelyWeighted) (inhabited : hypothesis.members ≠ ∅)
    (examples : List Nat) (position : Option Int) :
    ofHypothesis prior examples position hypothesis =
      .ok (some (assess prior examples position hypothesis)) := by
  obtain ⟨logarithm, succeeds, _⟩ := finite.logPrior_eq_ok hypothesis
  have notEmpty : hypothesis.members.isEmpty = false := by
    rw [← Bool.not_eq_true', NatSet.not_isEmpty_iff]
    exact inhabited
  simp only [ofHypothesis, notEmpty, succeeds, bind, Except.bind, assess, Except.toOption,
    Option.getD_some]
  rfl

/-- The weight assessed is the prior weight times the likelihood. -/
theorem weight_assess (finite : prior.FinitelyWeighted) (inhabited : hypothesis.members ≠ ∅)
    (examples : List Nat) (position : Option Int) :
    (assess prior examples position hypothesis).logWeight.weight =
      prior.weightAfter examples hypothesis := by
  obtain ⟨logarithm, succeeds, weight⟩ := finite.logPrior_eq_ok hypothesis
  have describes : hypothesis.containsAll (examples.map Int.ofNat) = true ↔
      ∀ n ∈ examples, n ∈ hypothesis.members := NatSet.containsAll_map_ofNat
  rw [logWeight, weight_add]
  simp only [assess, succeeds, Except.toOption, Option.getD_some]
  rw [weight, Hypothesis.weight_logLikelihood inhabited describes, Prior.weightAfter]

end Assessment

/-- A candidate with the share of its weight in a total. -/
noncomputable def Ranked.ofTotal {size : Nat} (total : ℝ) (candidate : Assessment Exact size) :
    Ranked Exact size :=
  { candidate with probability := real (candidate.logWeight.weight / total) }

namespace Posterior

variable {size : Nat}

/-- Candidates without any weight explain nothing. -/
theorem ofAssessments_eq_error (examples : List Nat) {assessments : List (Assessment Exact size)}
    (weightless : (assessments.map fun candidate => candidate.logWeight.weight).sum = 0) :
    ofAssessments examples assessments = .error { examples, samples := none } := by
  simp only [ofAssessments, ofAssessments?, normalize?_eq, List.map_map, Function.comp_def, shares?,
    weightless, if_true, Option.map_none]

/-- Otherwise each candidate has the share of its weight, and all of them are sorted. -/
theorem ofAssessments_eq_ok (examples : List Nat) {assessments : List (Assessment Exact size)}
    {total : ℝ}
    (isTotal : (assessments.map fun candidate => candidate.logWeight.weight).sum = total)
    (some : total ≠ 0) :
    ofAssessments examples assessments = .ok {
      examples
      entries := (assessments.map (.ofTotal total)).mergeSort Ranked.precedes
      logNormalizer := real (Real.log total) } := by
  simp only [ofAssessments, ofAssessments?, normalize?_eq, List.map_map, Function.comp_def, shares?,
    isTotal, some, if_false, Option.map_some, List.zipWith_map_right, List.zipWith_self, logTotal,
    logTotal?_eq, Option.getD_some]
  rfl

/-- Candidates with members are ranked without a fault, and the others are left out. -/
theorem rank_eq_ok (finite : prior.FinitelyWeighted) (candidates : List (Hypothesis size))
    (examples : List Nat) :
    rank prior candidates examples = .ok (ofAssessments examples
      ((candidates.filter fun hypothesis => hypothesis.members ≠ ∅).map
        (.assess prior examples none))) := by
  have each : ∀ hypothesis ∈ candidates,
      Assessment.ofHypothesis prior examples none hypothesis = .ok
        (if hypothesis.members ≠ ∅ then some (.assess prior examples none hypothesis)
          else none) := by
    intro hypothesis _
    by_cases inhabited : hypothesis.members ≠ ∅
    · rw [if_pos inhabited]
      exact Assessment.ofHypothesis_eq_ok finite inhabited examples none
    · rw [if_neg inhabited, Assessment.ofHypothesis, if_pos]
      exact NatSet.isEmpty_iff.2 (not_not.1 inhabited)
  have kept : ∀ hypothesis : Hypothesis size,
      (if hypothesis.members ≠ ∅ then some (Assessment.assess prior examples none hypothesis)
        else none) =
      (Option.guard (fun hypothesis => decide (hypothesis.members ≠ ∅)) hypothesis).map
        (.assess prior examples none) := by
    intro hypothesis
    by_cases inhabited : hypothesis.members ≠ ∅ <;> simp [Option.guard, inhabited]
  have succeeds := Sequence.mapM_ok each
  simp only [rank, succeeds, bind, Except.bind, List.filterMap_map, Function.comp_def, id_eq, kept,
    ← List.map_filterMap, List.filterMap_eq_filter]
  rfl

end Posterior

namespace HypothesisSpace

variable {space : HypothesisSpace}

/-- A ranking of assessed candidates agrees with the belief vector when the candidates have all the
weight there is, and each of them its part. -/
theorem agree_ofAssessments {assessments : List (Assessment Exact space.domain.size)}
    {related : List Exact → Posterior Exact space.domain.size → Prop}
    (total : (assessments.map fun candidate => candidate.logWeight.weight).sum =
      (space.jointWeights prior examples).sum)
    (alike : ∀ ranking : Posterior Exact space.domain.size,
      ranking.entries.Perm (assessments.map (.ofTotal (space.jointWeights prior examples).sum)) →
      related ((space.jointWeights prior examples).map fun weight =>
        real (weight / (space.jointWeights prior examples).sum)) ranking) :
    Explained.Agree related (space.bayes prior examples)
      (Posterior.ofAssessments examples assessments) := by
  by_cases weightless : (space.jointWeights prior examples).sum = 0
  · rw [bayes, shares?, if_pos weightless,
      Posterior.ofAssessments_eq_error _ (total.trans weightless)]
    rfl
  · rw [bayes, shares?, if_neg weightless,
      Posterior.ofAssessments_eq_ok examples total weightless]
    exact alike _ (List.mergeSort_perm _ _)

/-- A ranking holds the hypotheses at some positions with their entries of a belief vector, and all
other entries are zero. -/
structure Restricts (space : HypothesisSpace) (positions : List Nat) (beliefs : List Exact)
    (ranking : Posterior Exact space.domain.size) : Prop where
  ranked : (ranking.entries.map fun entry => entry.position).Perm
    (positions.map fun position : Nat => some (position : Int))
  same : ∀ entry ∈ ranking.entries, ∀ position : Nat, entry.position = some (position : Int) →
    space.hypotheses[position]? = some entry.hypothesis ∧
      beliefs[position]? = some entry.probability
  outside : ∀ position, position < space.hypotheses.size → position ∉ positions →
    beliefs[position]? = some Scalar.zero

/-- An empty selection is ranked as any other: there is nothing that explains the examples. -/
theorem posterior_eq_rankPositions (space : HypothesisSpace) (prior : Prior Exact)
    (examples : List Nat) :
    space.posterior prior examples =
      space.rankPositions prior ((space.consistent examples).toList.map Int.ofNat) examples := by
  rw [posterior]
  cases empty : (space.consistent examples).isEmpty with
  | false => rfl
  | true =>
      have noPositions : (∅ : NatSet).toList = [] := rfl
      rw [if_pos rfl, NatSet.isEmpty_iff.1 empty, noPositions, List.map_nil, rankPositions,
        List.mergeSort_nil, List.mapM_nil]
      exact congrArg Except.ok (Posterior.ofAssessments_eq_error examples (by rfl)).symm

/-- The hypothesis at a position of the space. -/
def atPosition (space : HypothesisSpace) (position : Nat) : Hypothesis space.domain.size :=
  space.hypotheses[position]?.getD default

section AtPosition

variable {position : Nat} (listed : position < space.hypotheses.size)

include listed

theorem getElem?_hypotheses : space.hypotheses[position]? = some (space.atPosition position) := by
  rw [atPosition, Array.getElem?_eq_getElem listed, Option.getD_some]

theorem hypothesis_natCast : space.hypothesis position = .ok (space.atPosition position) := by
  have fromStart : ¬ (position : Int) < 0 := by omega
  simp only [hypothesis, fromStart, if_false, Int.toNat_natCast, getElem?_hypotheses listed]

theorem getElem?_jointWeights (prior : Prior Exact) (examples : List Nat) :
    (space.jointWeights prior examples)[position]? =
      some (prior.weightAfter examples (space.atPosition position)) := by
  rw [jointWeights, List.getElem?_map, Array.getElem?_toList, getElem?_hypotheses listed,
    Option.map_some]

end AtPosition

/-- The hypotheses in order are those at the positions in order. -/
theorem map_hypotheses {β : Type} (value : Hypothesis space.domain.size → β) :
    space.hypotheses.toList.map value =
      (List.range space.hypotheses.size).map fun position => value (space.atPosition position) := by
  apply List.ext_getElem?
  intro position
  rw [List.getElem?_map, List.getElem?_map, Array.getElem?_toList]
  by_cases listed : position < space.hypotheses.size
  · rw [getElem?_hypotheses listed, List.getElem?_range listed]
    rfl
  · rw [Array.getElem?_eq_none (not_lt.1 listed),
      List.getElem?_eq_none (by simpa using listed)]
    rfl

namespace Sound

variable (sound : space.Sound)

include sound

theorem atPosition_inhabited {position : Nat} (listed : position < space.hypotheses.size) :
    (space.atPosition position).members ≠ ∅ :=
  sound.inhabited _ (Array.mem_of_getElem? (getElem?_hypotheses listed))

/-- A hypothesis that is not consistent with the examples lacks one of them. -/
theorem lacks_of_inconsistent {position : Nat} (listed : position < space.hypotheses.size)
    (inconsistent : position ∉ space.consistent examples) :
    ¬ ∀ n ∈ examples, n ∈ (space.atPosition position).members := fun contains =>
  inconsistent (sound.mem_consistent.2 ⟨_, getElem?_hypotheses listed, contains⟩)

theorem listed_consistent :
    ∀ position ∈ (space.consistent examples).toList, position < space.hypotheses.size := by
  intro position isConsistent
  obtain ⟨_, isAt, _⟩ := sound.mem_consistent.1 (NatSet.mem_toList.1 isConsistent)
  exact (Array.getElem?_eq_some_iff.1 isAt).1

/-- Positions that leave out no consistent hypothesis have all there is of what only hypotheses with
all examples have. -/
theorem sum_positions {positions : List Nat} (distinct : positions.Nodup)
    (listed : ∀ position ∈ positions, position < space.hypotheses.size)
    (covering : ∀ position ∈ space.consistent examples, position ∈ positions)
    {value : Hypothesis space.domain.size → ℝ}
    (vanishes : ∀ hypothesis, (¬ ∀ n ∈ examples, n ∈ hypothesis.members) → value hypothesis = 0) :
    (positions.map fun position => value (space.atPosition position)).sum =
      (space.hypotheses.toList.map value).sum := by
  rw [map_hypotheses, ← List.sum_toFinset _ distinct, ← List.sum_toFinset _ List.nodup_range]
  apply Finset.sum_subset
  · intro position chosen
    exact List.mem_toFinset.2 (List.mem_range.2 (listed position (List.mem_toFinset.1 chosen)))
  · intro position inSpace leftOut
    rw [List.mem_toFinset] at leftOut
    have bound := List.mem_range.1 (List.mem_toFinset.1 inSpace)
    apply vanishes
    exact sound.lacks_of_inconsistent bound fun isConsistent => leftOut (covering _ isConsistent)

/-- The weight assessed at a position is that of its hypothesis after the examples. -/
theorem weight_assess (finite : prior.FinitelyWeighted) {position : Nat}
    (listed : position < space.hypotheses.size) :
    (Assessment.assess prior examples (some (position : Int))
      (space.atPosition position)).logWeight.weight =
        prior.weightAfter examples (space.atPosition position) :=
  Assessment.weight_assess finite (sound.atPosition_inhabited listed) examples _

/-- Positions that leave out no consistent hypothesis are assessed with all the weight there is. -/
theorem sum_weight_assess (finite : prior.FinitelyWeighted) {positions : List Nat}
    (distinct : positions.Nodup)
    (listed : ∀ position ∈ positions, position < space.hypotheses.size)
    (covering : ∀ position ∈ space.consistent examples, position ∈ positions) :
    ((positions.map fun position : Nat =>
      Assessment.assess prior examples (some (position : Int)) (space.atPosition position)).map
        fun candidate => candidate.logWeight.weight).sum =
          (space.jointWeights prior examples).sum := by
  rw [List.map_map, jointWeights, ← sound.sum_positions distinct listed covering fun _ =>
    Prior.weightAfter_eq_zero]
  exact congrArg List.sum
    (List.map_congr_left fun position chosen => sound.weight_assess finite (listed position chosen))

/-- The hypotheses at some positions are assessed without a fault, in increasing order. -/
theorem rankPositions_eq_ok (finite : prior.FinitelyWeighted) {positions : List Nat}
    (listed : ∀ position ∈ positions, position < space.hypotheses.size) (examples : List Nat) :
    ∃ order : List Nat, order.Perm positions ∧
      space.rankPositions prior (positions.map Int.ofNat) examples =
        .ok (Posterior.ofAssessments examples (order.map fun position : Nat =>
          .assess prior examples (some (position : Int)) (space.atPosition position))) := by
  have sorted : (positions.map Int.ofNat).mergeSort (· ≤ ·) =
      (positions.mergeSort (· ≤ ·)).map Int.ofNat := by
    symm
    apply List.map_mergeSort
    simp
  have isOrder : (positions.mergeSort (· ≤ ·)).Perm positions := List.mergeSort_perm _ _
  have each : ∀ position ∈ positions.mergeSort (· ≤ ·),
      (do
        let hypothesis ← space.hypothesis (position : Int)
        Assessment.ofHypothesis prior examples (some (position : Int)) hypothesis) =
      .ok (some (.assess prior examples (some (position : Int)) (space.atPosition position))) := by
    intro position inOrder
    have bound := listed position (isOrder.mem_iff.1 inOrder)
    rw [hypothesis_natCast bound]
    exact Assessment.ofHypothesis_eq_ok finite (sound.atPosition_inhabited bound) examples _
  refine ⟨positions.mergeSort (· ≤ ·), isOrder, ?_⟩
  have succeeds := Sequence.mapM_ok each
  rw [rankPositions, sorted, List.mapM_map]
  simp only [Function.comp_def, Int.ofNat_eq_natCast]
  rw [succeeds]
  simp only [bind, Except.bind, List.filterMap_map, Function.comp_def, id_eq,
    List.filterMap_eq_map']
  rfl

/-- A ranking of positions that leaves out no consistent hypothesis agrees with the vector. -/
theorem rankPositions_agrees (finite : prior.FinitelyWeighted) {positions : List Nat}
    (distinct : positions.Nodup)
    (listed : ∀ position ∈ positions, position < space.hypotheses.size)
    (covering : ∀ position ∈ space.consistent examples, position ∈ positions) :
    ∃ ranking, space.rankPositions prior (positions.map Int.ofNat) examples = .ok ranking ∧
      Explained.Agree (space.Restricts positions) (space.bayes prior examples) ranking := by
  obtain ⟨order, isOrder, succeeds⟩ := sound.rankPositions_eq_ok finite listed examples
  have bounded : ∀ position ∈ order, position < space.hypotheses.size :=
    fun position inOrder => listed position (isOrder.mem_iff.1 inOrder)
  refine ⟨_, succeeds, agree_ofAssessments ?_ ?_⟩
  · apply sound.sum_weight_assess finite (isOrder.nodup_iff.2 distinct) bounded
    exact fun position isConsistent => isOrder.mem_iff.2 (covering position isConsistent)
  · intro ranking entries
    rw [List.map_map] at entries
    constructor
    case ranked =>
      apply (entries.map _).trans
      rw [List.map_map]
      exact isOrder.map fun position : Nat => some (position : Int)
    case same =>
      intro entry isEntry position isAt
      obtain ⟨position', inOrder, rfl⟩ := List.mem_map.1 (entries.mem_iff.1 isEntry)
      obtain rfl : position' = position := Int.ofNat.inj (Option.some.inj isAt)
      have bound := bounded position' inOrder
      refine ⟨getElem?_hypotheses bound, ?_⟩
      rw [List.getElem?_map, getElem?_jointWeights bound, Option.map_some, Function.comp_apply,
        Ranked.ofTotal, sound.weight_assess finite bound]
    case outside =>
      intro position bound leftOut
      have lacks := sound.lacks_of_inconsistent bound fun isConsistent =>
        leftOut (covering position isConsistent)
      rw [List.getElem?_map, getElem?_jointWeights bound, Option.map_some,
        Prior.weightAfter_eq_zero lacks, zero_div, zero_eq]

/-- A ranking of the concepts of all hypotheses agrees with the vector. -/
theorem rank_agrees (finite : prior.FinitelyWeighted) (examples : List Nat) :
    ∃ ranking, Posterior.rank prior
        (space.hypotheses.toList.map fun hypothesis => .ofConcept space.domain.size
          hypothesis.concept) examples = .ok ranking ∧
      Explained.Agree (fun beliefs ranking =>
        (ranking.entries.map fun entry => (entry.hypothesis, entry.probability)).Perm
          (space.hypotheses.toList.zip beliefs)) (space.bayes prior examples) ranking := by
  have again : ∀ hypothesis : Hypothesis space.domain.size,
      Hypothesis.ofConcept space.domain.size hypothesis.concept = hypothesis :=
    fun hypothesis => Hypothesis.concept_injective rfl
  have allInhabited : space.hypotheses.toList.filter (fun hypothesis => hypothesis.members ≠ ∅) =
      space.hypotheses.toList := by
    rw [List.filter_eq_self]
    intro hypothesis listed
    exact decide_eq_true (sound.inhabited _ (Array.mem_toList_iff.1 listed))
  have weights : ∀ hypothesis ∈ space.hypotheses.toList,
      (Assessment.assess prior examples none hypothesis).logWeight.weight =
        prior.weightAfter examples hypothesis :=
    fun hypothesis listed => Assessment.weight_assess finite
      (sound.inhabited _ (Array.mem_toList_iff.1 listed)) examples none
  refine ⟨Posterior.ofAssessments examples
    (space.hypotheses.toList.map (.assess prior examples none)), ?_, agree_ofAssessments ?_ ?_⟩
  · rw [Posterior.rank_eq_ok finite]
    simp only [again, List.map_id', allInhabited]
  · rw [List.map_map]
    exact congrArg List.sum (List.map_congr_left weights)
  · intro ranking entries
    apply (entries.map _).trans
    rw [jointWeights, List.map_map, List.map_map, List.map_map, List.zip_map_right, List.zip,
      List.zipWith_self, List.map_map]
    apply List.Perm.of_eq
    refine List.map_congr_left fun hypothesis listed => ?_
    have same := weights hypothesis listed
    simp only [Function.comp_apply, Prod.map_apply, id_eq, Ranked.ofTotal, same]
    rfl

/-- The ranking of the hypotheses that the index finds consistent agrees with the vector. -/
theorem posterior_agrees (finite : prior.FinitelyWeighted) (examples : List Nat) :
    ∃ ranking, space.posterior prior examples = .ok ranking ∧
      Explained.Agree (space.Restricts (space.consistent examples).toList)
        (space.bayes prior examples) ranking := by
  rw [posterior_eq_rankPositions]
  apply sound.rankPositions_agrees finite
  case distinct => exact NatSet.nodup_toList _
  case listed => exact sound.listed_consistent
  case covering => exact fun position isConsistent => NatSet.mem_toList.2 isConsistent

end Sound

/-- Over the base space of a domain, a ranking of positions that leaves out no consistent hypothesis
agrees with the belief vector, and so do the ranking of the consistent hypotheses alone and the
ranking of the concepts of all hypotheses. -/
theorem rankings_agree_with_vector {domain : Domain} (finite : prior.FinitelyWeighted)
    (examples : List Nat) {positions : List Nat} (distinct : positions.Nodup)
    (listed : ∀ position ∈ positions, position < (base domain).hypotheses.size)
    (covering : ∀ position ∈ (base domain).consistent examples, position ∈ positions) :
    ∃ beliefs selected consistent all,
      (base domain).posteriorBeliefs prior examples = .ok beliefs ∧
      (base domain).rankPositions prior (positions.map Int.ofNat) examples = .ok selected ∧
      (base domain).posterior prior examples = .ok consistent ∧
      Posterior.rank prior ((base domain).hypotheses.toList.map fun hypothesis =>
        .ofConcept domain.size hypothesis.concept) examples = .ok all ∧
      Explained.Agree ((base domain).Restricts positions) beliefs selected ∧
      Explained.Agree ((base domain).Restricts ((base domain).consistent examples).toList) beliefs
        consistent ∧
      Explained.Agree (fun beliefs ranking =>
        (ranking.entries.map fun entry => (entry.hypothesis, entry.probability)).Perm
          ((base domain).hypotheses.toList.zip beliefs)) beliefs all := by
  have sound := sound_base domain
  obtain ⟨selected, isSelected, selectedAgrees⟩ :=
    sound.rankPositions_agrees finite distinct listed covering
  obtain ⟨consistent, isConsistent, consistentAgrees⟩ := sound.posterior_agrees finite examples
  obtain ⟨all, isAll, allAgrees⟩ := sound.rank_agrees finite examples
  exact ⟨_, selected, consistent, all, sound.posteriorBeliefs_eq_ok finite examples, isSelected,
    isConsistent, isAll, selectedAgrees, consistentAgrees, allAgrees⟩

/-- Over six numbers all rankings agree for 4 and again 4, one of them without the multiples of 3. -/
theorem rankings_agree_without_multiples_of_three :
    ∃ beliefs selected consistent all,
      (base ⟨6, by decide⟩).posteriorBeliefs .typeWeighted [4, 4] = .ok beliefs ∧
      (base ⟨6, by decide⟩).rankPositions .typeWeighted (((List.range 39).erase 1).map Int.ofNat)
        [4, 4] = .ok selected ∧
      (base ⟨6, by decide⟩).posterior .typeWeighted [4, 4] = .ok consistent ∧
      Posterior.rank .typeWeighted ((base ⟨6, by decide⟩).hypotheses.toList.map fun hypothesis =>
        .ofConcept 6 hypothesis.concept) [4, 4] = .ok all ∧
      Explained.Agree ((base ⟨6, by decide⟩).Restricts ((List.range 39).erase 1)) beliefs selected ∧
      Explained.Agree ((base ⟨6, by decide⟩).Restricts
        ((base ⟨6, by decide⟩).consistent [4, 4]).toList) beliefs consistent ∧
      Explained.Agree (fun beliefs ranking =>
        (ranking.entries.map fun entry => (entry.hypothesis, entry.probability)).Perm
          ((base ⟨6, by decide⟩).hypotheses.toList.zip beliefs)) beliefs all := by
  let domain : Domain := ⟨6, by decide⟩
  have size : (base domain).hypotheses.size = 39 := by decide +kernel
  have second : (base domain).hypotheses[1]?.all (fun hypothesis => decide (4 ∉ hypothesis.members)) =
      true := by
    decide +kernel
  have named : Prior.named? "type-weighted" = some (Prior.typeWeighted : Prior Exact) := rfl
  apply rankings_agree_with_vector (.of_named named)
  case distinct => decide
  case listed =>
    rw [size]
    decide
  case covering =>
    intro position isConsistent
    obtain ⟨hypothesis, isAt, contains⟩ := (sound_base domain).mem_consistent.1 isConsistent
    have other : position ≠ 1 := by
      rintro rfl
      rw [isAt] at second
      exact of_decide_eq_true second (contains 4 (by decide))
    have bound := (Array.getElem?_eq_some_iff.1 isAt).1
    rw [size] at bound
    exact (List.mem_erase_of_ne other).2 (List.mem_range.2 bound)

end HypothesisSpace

end NumberConcepts
