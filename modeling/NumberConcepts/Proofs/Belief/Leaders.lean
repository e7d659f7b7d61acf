import NumberConcepts.Proofs.Hypothesis.Filtering
import NumberConcepts.Proofs.Prediction
/-!
# The most probable hypotheses

A belief vector orders all hypotheses by their probabilities and a ranking only the
consistent ones, both by the same places. No two hypotheses share a place, so that
the ranking is the ordered vector without the hypotheses that lack an example. These
have no probability, but they are there: where fewer hypotheses than asked for have a
probability, the vector fills up with them.
-/

namespace NumberConcepts

open Exact

namespace Ranked

variable {size : Nat}

/-- A candidate as a hypothesis with its probability. -/
def weighted {α : Type} (entry : Ranked α size) : HypothesisSpace.Weighted α size :=
  (entry.hypothesis, entry.probability)

/-- A hypothesis with its probability as a candidate of which nothing else is known. -/
noncomputable def ofWeighted (entry : HypothesisSpace.Weighted Exact size) : Ranked Exact size where
  hypothesis := entry.1
  position := none
  logPrior := Scalar.negInf
  logLikelihood := Scalar.negInf
  probability := entry.2

/-- The place says which hypothesis it is, and its probability. -/
theorem eq_of_place_eq {a b : HypothesisSpace.Weighted Exact size} {p q : ℝ} (first : a.2 = real p)
    (second : b.2 = real q) (same : (ofWeighted a).place = (ofWeighted b).place) : a = b := by
  have hypotheses : a.1 = b.1 := hypothesis_eq_of_place_eq same
  have probabilities : -a.2.value = -b.2.value := (Prod.mk.inj (toLex.injective same)).1
  rw [first, second, value, value, neg_inj] at probabilities
  exact Prod.ext hypotheses (by rw [first, second, probabilities])

end Ranked

namespace HypothesisSpace

variable {space : HypothesisSpace} {prior : Prior Exact} {examples : List Nat}

/-- A hypothesis with its part of all weight. -/
noncomputable def shared (space : HypothesisSpace) (prior : Prior Exact) (examples : List Nat)
    (hypothesis : Hypothesis space.domain.size) : Weighted Exact space.domain.size :=
  (hypothesis, real (space.portion prior examples hypothesis))

/-- All hypotheses with their parts of all weight, the most probable first. -/
noncomputable def leaders (space : HypothesisSpace) (prior : Prior Exact) (examples : List Nat) :
    List (Weighted Exact space.domain.size) :=
  (space.hypotheses.toList.map (space.shared prior examples)).mergeSort weightedPrecedes

theorem leaders_perm (space : HypothesisSpace) (prior : Prior Exact) (examples : List Nat) :
    (space.leaders prior examples).Perm
      (space.hypotheses.toList.map (space.shared prior examples)) :=
  List.mergeSort_perm _ _

theorem mem_leaders {entry : Weighted Exact space.domain.size} :
    entry ∈ space.leaders prior examples ↔
      ∃ hypothesis ∈ space.hypotheses, space.shared prior examples hypothesis = entry := by
  simp only [leaders, List.mem_mergeSort, List.mem_map, Array.mem_toList_iff]

/-- The leaders stand in the order of their places. -/
theorem pairwise_leaders (space : HypothesisSpace) (prior : Prior Exact) (examples : List Nat) :
    (space.leaders prior examples).Pairwise fun a b =>
      (Ranked.ofWeighted a).place ≤ (Ranked.ofWeighted b).place := by
  apply Sequence.pairwise_mergeSort_of_key
  intro a isEntry b isEntry'
  obtain ⟨hypothesis, _, rfl⟩ := List.mem_map.1 isEntry
  obtain ⟨hypothesis', _, rfl⟩ := List.mem_map.1 isEntry'
  let first := Ranked.ofWeighted (space.shared prior examples hypothesis)
  let second := Ranked.ofWeighted (space.shared prior examples hypothesis')
  have isPortion : first.probability = real (space.portion prior examples hypothesis) := rfl
  have isPortion' : second.probability = real (space.portion prior examples hypothesis') := rfl
  exact Ranked.precedes_eq isPortion isPortion'

/-- The hypothesis contains all examples. -/
def Weighted.fits {α : Type} {size : Nat} (examples : List Nat) (entry : Weighted α size) : Bool :=
  entry.1.containsAll (examples.map Int.ofNat)

theorem Weighted.fits_iff {size : Nat} {entry : Weighted Exact size} :
    entry.fits examples = true ↔ ∀ n ∈ examples, n ∈ entry.1.members :=
  NatSet.containsAll_map_ofNat

/-- A leader that lacks an example has no probability. -/
theorem eq_zero_of_not_fits {entry : Weighted Exact space.domain.size}
    (listed : entry ∈ space.leaders prior examples) (lacks : ¬ entry.fits examples = true) :
    entry.2 = real 0 := by
  obtain ⟨hypothesis, _, rfl⟩ := mem_leaders.1 listed
  rw [Weighted.fits_iff] at lacks
  exact congrArg real (portion_eq_zero lacks)

/-- The hypotheses at consistent positions are those that contain all examples, in their order. -/
theorem Sound.map_atPosition_consistent (sound : space.Sound) :
    (space.consistent examples).toList.map space.atPosition =
      space.hypotheses.toList.filter fun hypothesis =>
        hypothesis.containsAll (examples.map Int.ofNat) := by
  have selected : space.select (space.consistent examples) =
      (space.consistent examples).toList.map space.atPosition := by
    rw [select, ← List.filterMap_eq_map]
    refine List.filterMap_congr fun position isConsistent => ?_
    exact getElem?_hypotheses (sound.listed_consistent position isConsistent)
  rw [← selected]
  apply select_eq_filter
  simp only [sound.mem_consistent, Hypothesis.containsAll, NatSet.containsAll_map_ofNat,
    implies_true]

namespace Sound

variable (sound : space.Sound) (finite : prior.FinitelyWeighted)
  (some : (space.jointWeights prior examples).sum ≠ 0)

include sound finite some

/-- The vector in order are the leaders. -/
theorem topBeliefs_eq_ok (count : Int) : space.topBeliefs prior examples count =
    .ok (.ok (Sequence.first count (space.leaders prior examples))) := by
  simp only [topBeliefs, sound.posteriorBeliefs_eq_ok finite, bayes_eq_ok some, bind, Except.bind,
    Except.map, byProbability, zip_portions]
  rfl

/-- The ranking of the consistent hypotheses are the leaders that contain all examples. -/
theorem posterior_eq_leaders : ∃ ranking, space.posterior prior examples = .ok (.ok ranking) ∧
    ranking.entries.map Ranked.weighted =
      (space.leaders prior examples).filter (Weighted.fits examples) := by
  obtain ⟨order, isOrder, succeeds⟩ := sound.posterior_eq_sorted finite some
  have listed : ∀ position ∈ order, position < space.hypotheses.size :=
    fun position inOrder => sound.listed_consistent position (isOrder.mem_iff.1 inOrder)
  refine ⟨_, succeeds, ?_⟩
  have same : (((order.map (space.candidateAt prior examples)).mergeSort Ranked.precedes).map
      Ranked.weighted).Perm ((space.leaders prior examples).filter (Weighted.fits examples)) := by
    have shares : (order.map (space.candidateAt prior examples)).map Ranked.weighted =
        (order.map space.atPosition).map (space.shared prior examples) := by
      rw [List.map_map, List.map_map]
      refine List.map_congr_left fun position inOrder => ?_
      exact congrArg (Prod.mk _) (sound.probability_candidateAt finite (listed position inOrder))
    apply ((List.mergeSort_perm _ _).map _).trans
    rw [shares]
    apply ((isOrder.map _).map _).trans
    rw [sound.map_atPosition_consistent]
    apply List.Perm.trans _ ((space.leaders_perm prior examples).filter _).symm
    rw [List.filter_map]
    exact List.Perm.refl _
  have numbers : ∀ entry ∈ space.leaders prior examples, ∃ p, entry.2 = real p := by
    intro entry isLeader
    obtain ⟨hypothesis, _, rfl⟩ := mem_leaders.1 isLeader
    exact ⟨_, rfl⟩
  have sorted : (((order.map (space.candidateAt prior examples)).mergeSort Ranked.precedes).map
      Ranked.weighted).Pairwise fun a b =>
        (Ranked.ofWeighted a).place ≤ (Ranked.ofWeighted b).place := by
    rw [List.pairwise_map]
    apply Ranked.pairwise_place
    intro entry isEntry
    obtain ⟨position, _, rfl⟩ := List.mem_map.1 isEntry
    exact ⟨_, rfl⟩
  -- No place is shared, so there is only one order by places.
  refine same.eq_of_pairwise ?different sorted ((pairwise_leaders space prior examples).filter _)
  intro a b isEntry isLeader before after
  obtain ⟨p, isNumber⟩ := numbers a (List.mem_of_mem_filter (same.mem_iff.1 isEntry))
  obtain ⟨q, isNumber'⟩ := numbers b (List.mem_of_mem_filter isLeader)
  exact Ranked.eq_of_place_eq isNumber isNumber' (le_antisymm before after)

end Sound

theorem length_leaders (space : HypothesisSpace) (prior : Prior Exact) (examples : List Nat) :
    (space.leaders prior examples).length = space.hypotheses.size := by
  rw [(space.leaders_perm prior examples).length_eq, List.length_map, Array.length_toList]

/-- As many leaders as hypotheses contain all examples. -/
theorem length_filter_leaders (space : HypothesisSpace) (prior : Prior Exact)
    (examples : List Nat) :
    ((space.leaders prior examples).filter (Weighted.fits examples)).length =
      (space.containingAll (examples.map Int.ofNat)).length := by
  have sorted := (space.leaders_perm prior examples).filter (Weighted.fits examples)
  rw [sorted.length_eq, List.filter_map, List.length_map]
  rfl

/-- A leader with a probability contains all examples. -/
theorem fits_of_positive {entry : Weighted Exact space.domain.size}
    (listed : entry ∈ space.leaders prior examples)
    (positive : Scalar.lt Scalar.zero entry.2 = true) : entry.fits examples = true := by
  by_contra lacks
  rw [eq_zero_of_not_fits listed lacks] at positive
  simp at positive

/-- Leaders with a probability stand before those without. -/
theorem pairwise_positive (space : HypothesisSpace) (prior : Prior Exact) (examples : List Nat) :
    (space.leaders prior examples).Pairwise fun before after =>
      Scalar.lt Scalar.zero after.2 = true → Scalar.lt Scalar.zero before.2 = true := by
  refine (pairwise_leaders space prior examples).imp_of_mem ?_
  intro a b isLeader isLeader' before
  obtain ⟨hypothesis, _, rfl⟩ := mem_leaders.1 isLeader
  obtain ⟨hypothesis', _, rfl⟩ := mem_leaders.1 isLeader'
  have atLeast : space.portion prior examples hypothesis' ≤
      space.portion prior examples hypothesis := Ranked.value_le_of_place_le before
  simp only [shared, zero_eq, lt_real, decide_eq_true_iff]
  exact fun positive => positive.trans_le atLeast

/-- How the first hypotheses of the belief vector stand to the first ones of a ranking of the
consistent hypotheses. -/
structure Leads (space : HypothesisSpace) (examples : List Nat)
    (ranking : Posterior Exact space.domain.size) (count : Nat)
    (top : List (Weighted Exact space.domain.size)) : Prop where
  consistent : top.filter (Weighted.fits examples) <+: (ranking.top count).map Ranked.weighted
  others : ∀ entry ∈ top, ¬ entry.fits examples = true → entry.2 = .real 0
  same_iff : top = (ranking.top count).map Ranked.weighted ↔
    ∀ entry ∈ top, entry.fits examples = true
  /-- All are consistent as long as no more are asked for than have a probability. -/
  enough : count ≤ (ranking.entries.filter fun entry =>
    Scalar.lt Scalar.zero entry.probability).length → ∀ entry ∈ top, entry.fits examples = true
  /-- Where all consistent hypotheses have a probability, the bound is sharp. -/
  enough_iff : (∀ entry ∈ ranking.entries, Scalar.lt Scalar.zero entry.probability = true) →
    ((∀ entry ∈ top, entry.fits examples = true) ↔
      min count space.hypotheses.size ≤ ranking.entries.length)

section Entries

variable {ranking : Posterior Exact space.domain.size}
  (entries : ranking.entries.map Ranked.weighted =
    (space.leaders prior examples).filter (Weighted.fits examples))

include entries

/-- The candidates with a probability are the leaders with a probability. -/
theorem map_weighted_positive :
    (ranking.entries.filter fun entry => Scalar.lt Scalar.zero entry.probability).map
      Ranked.weighted =
        (space.leaders prior examples).filter fun entry => Scalar.lt Scalar.zero entry.2 := by
  have among : (ranking.entries.map Ranked.weighted).filter
      (fun entry => Scalar.lt Scalar.zero entry.2) =
        (ranking.entries.filter fun entry =>
          Scalar.lt Scalar.zero entry.probability).map Ranked.weighted := List.filter_map
  rw [← among, entries, List.filter_filter]
  refine List.filter_congr fun entry listed => ?_
  rw [Bool.eq_iff_iff, Bool.and_eq_true, and_iff_left_iff_imp]
  exact fits_of_positive listed

/-- As many first leaders as candidates have a probability contain all examples. -/
theorem fits_of_few {count : Nat} (few : count ≤ (ranking.entries.filter fun entry =>
    Scalar.lt Scalar.zero entry.probability).length) :
    ∀ entry ∈ (space.leaders prior examples).take count, entry.fits examples = true := by
  intro entry listed
  rw [← List.length_map Ranked.weighted, map_weighted_positive entries] at few
  apply fits_of_positive (List.mem_of_mem_take listed)
  exact Sequence.forall_mem_take_of_pairwise (pairwise_positive space prior examples) few entry
    listed

/-- The first leaders contain all examples only if no more are listed than there are candidates. -/
theorem le_length_of_fits {count : Nat}
    (fits : ∀ entry ∈ (space.leaders prior examples).take count, entry.fits examples = true) :
    min count space.hypotheses.size ≤ ranking.entries.length := by
  have isPrefix := Sequence.prefix_filter_take (Weighted.fits examples)
    (space.leaders prior examples) count
  rw [List.filter_eq_self.2 fits, ← entries] at isPrefix
  have bound := isPrefix.length_le.trans (List.length_take_le' _ _)
  rwa [List.length_take, length_leaders, List.length_map] at bound

/-- All leaders contain all examples if all are candidates. -/
theorem fits_of_all (all : space.hypotheses.size ≤ ranking.entries.length) :
    ∀ entry ∈ space.leaders prior examples, entry.fits examples = true := by
  rw [← List.length_filter_eq_length_iff]
  apply le_antisymm (List.length_filter_le _ _)
  rwa [← entries, length_leaders, List.length_map]

/-- The leaders lead a ranking that lists those of them that contain all examples. -/
theorem leads_of_entries (count : Nat) :
    space.Leads examples ranking count ((space.leaders prior examples).take count) := by
  have top : (ranking.top count).map Ranked.weighted =
      ((space.leaders prior examples).filter (Weighted.fits examples)).take count := by
    rw [Posterior.top, Sequence.first_natCast, List.map_take, entries]
  refine ⟨?consistent, ?others, ?same_iff, fits_of_few entries, ?enough_iff⟩
  case consistent =>
    rw [top]
    exact Sequence.prefix_filter_take _ _ _
  case others =>
    intro entry listed
    exact eq_zero_of_not_fits (List.mem_of_mem_take listed)
  case same_iff =>
    rw [top]
    exact Sequence.take_eq_take_filter_iff
  case enough_iff =>
    intro positive
    refine ⟨le_length_of_fits entries, fun bound => ?_⟩
    rcases min_le_iff.1 bound with few | all
    · apply fits_of_few entries
      rwa [List.filter_eq_self.2 positive]
    · exact fun entry listed => fits_of_all entries all entry (List.mem_of_mem_take listed)

end Entries

/-- The five hypotheses of the summary are the first five of the belief vector. -/
theorem map_summary (space : HypothesisSpace) (prior : Prior Exact) (examples : List Nat) :
    (space.summary prior examples).map (fun summary => summary.belief.map Prod.snd) =
      space.topBeliefs prior examples 5 := by
  rw [summary, topBeliefs]
  rcases space.posteriorBeliefs prior examples with fault | missing | beliefs <;> rfl

/-- Over the base space of a domain, the belief vector and the ranking of the consistent hypotheses
agree on whether anything explains the examples. If so, they name the same first hypotheses with the
same probabilities exactly when the vector names none that lacks an example. The summary takes its
five hypotheses from the vector. -/
theorem first_hypotheses_agree_iff {domain : Domain} (finite : prior.FinitelyWeighted)
    (examples : List Nat) :
    ((base domain).summary prior examples).map (fun summary => summary.belief.map Prod.snd) =
      (base domain).topBeliefs prior examples 5 ∧
    (((base domain).posterior prior examples = .ok (.error { examples, samples := none }) ∧
        ∀ count, (base domain).topBeliefs prior examples count =
          .ok (.error { examples, samples := none })) ∨
      ∃ ranking, (base domain).posterior prior examples = .ok (.ok ranking) ∧
        ∀ count : Nat, ∃ top, (base domain).topBeliefs prior examples count = .ok (.ok top) ∧
          (base domain).Leads examples ranking count top) := by
  have sound := sound_base domain
  refine ⟨map_summary _ _ _, ?_⟩
  by_cases some : ((base domain).jointWeights prior examples).sum = 0
  · left
    refine ⟨sound.posterior_eq_error finite some, fun count => ?_⟩
    simp only [topBeliefs, sound.posteriorBeliefs_eq_ok finite, bayes_eq_error some]
    rfl
  · right
    obtain ⟨ranking, succeeds, entries⟩ := sound.posterior_eq_leaders finite some
    refine ⟨ranking, succeeds, fun count => ⟨_, ?_, leads_of_entries entries count⟩⟩
    rw [sound.topBeliefs_eq_ok finite some, Sequence.first_natCast]

/-- Over two numbers the first three hypotheses for 1 and 2 may differ, but only by some without a
probability. -/
theorem first_hypotheses_agree_iff_over_two :
    ((base ⟨2, by decide⟩).summary .uniform [1, 2]).map
      (fun summary => summary.belief.map Prod.snd) =
        (base ⟨2, by decide⟩).topBeliefs (.uniform : Prior Exact) [1, 2] 5 ∧
    (((base ⟨2, by decide⟩).posterior (.uniform : Prior Exact) [1, 2] =
          .ok (.error { examples := [1, 2], samples := none }) ∧
        ∀ count, (base ⟨2, by decide⟩).topBeliefs (.uniform : Prior Exact) [1, 2] count =
          .ok (.error { examples := [1, 2], samples := none })) ∨
      ∃ ranking, (base ⟨2, by decide⟩).posterior (.uniform : Prior Exact) [1, 2] =
          .ok (.ok ranking) ∧
        ∀ count : Nat, ∃ top, (base ⟨2, by decide⟩).topBeliefs .uniform [1, 2] count =
            .ok (.ok top) ∧
          (base ⟨2, by decide⟩).Leads [1, 2] ranking count top) := by
  have named : Prior.named? "uniform" = some (Prior.uniform : Prior Exact) := rfl
  exact first_hypotheses_agree_iff (.of_named named) [1, 2]

/-- Over two numbers two hypotheses contain 1 and 2. Asked for three, the belief vector adds one that
does not. -/
theorem belief_vector_names_inconsistent :
    ∃ (ranking : Posterior Exact 2) (top : List (Weighted Exact 2)),
      (base ⟨2, by decide⟩).posterior .uniform [1, 2] = .ok (.ok ranking) ∧
      (base ⟨2, by decide⟩).topBeliefs .uniform [1, 2] 3 = .ok (.ok top) ∧
      (ranking.top 3).length = 2 ∧ top.length = 3 ∧
      ∃ entry ∈ top, ¬ entry.fits [1, 2] = true := by
  let domain : Domain := ⟨2, by decide⟩
  let whole : Hypothesis 2 := .ofTerminal 2 (.interval 1 2)
  have named : Prior.named? "uniform" = some (Prior.uniform : Prior Exact) := rfl
  have finite : (Prior.uniform : Prior Exact).FinitelyWeighted := .of_named named
  have inhabited : whole.members ≠ ∅ := NatSet.ne_empty_of_mem (n := 1) (by decide)
  have listed : whole ∈ (base domain).hypotheses := mem_ofConcepts.2 ⟨by decide, inhabited⟩
  have hasWeight : 0 < (Prior.uniform : Prior Exact).weightOf whole :=
    finite.weightOf_pos (Prior.logPrior_uniform_terminal 2 _ _)
  have contains : ∀ n ∈ [1, 2], n ∈ whole.members := by decide
  have some := sum_jointWeights_ne_zero finite listed
    (Prior.weightAfter_pos hasWeight inhabited contains)
  obtain ⟨ranking, succeeds, entries⟩ := (sound_base domain).posterior_eq_leaders finite some
  have consistent : ((base domain).containingAll [1, 2]).length = 2 := by decide +kernel
  have all : (base domain).hypotheses.size = 13 := by decide +kernel
  have ranked : (ranking.top 3).length = 2 := by
    have lengths := congrArg List.length entries
    rw [List.length_map, length_filter_leaders] at lengths
    rw [Posterior.top, Sequence.first, if_pos (by decide), List.length_take,
      lengths.trans consistent]
    rfl
  have listedThree : (((base domain).leaders .uniform [1, 2]).take 3).length = 3 := by
    rw [List.length_take, length_leaders, all]
    rfl
  refine ⟨ranking, _, succeeds, (sound_base domain).topBeliefs_eq_ok finite some 3, ranked,
    listedThree, ?_⟩
  by_contra none
  push Not at none
  have same := congrArg List.length ((leads_of_entries entries 3).same_iff.2 none)
  rw [listedThree, List.length_map] at same
  exact absurd (same.trans ranked) (by decide)

end HypothesisSpace

end NumberConcepts
