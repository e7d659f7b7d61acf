import NumberConcepts.Proofs.Belief.Posterior
/-!
# Evidence for the smallest hypothesis

One more example divides the weight of a hypothesis that contains it by its size, and
leaves none to the others. So of all hypotheses with a weight the smallest one that
contains the example keeps the greatest part: measured by that part the total does not
grow (`totalAfter_append_mul_le`), and it stays only where all others are as small and
contain the example too.
-/

namespace NumberConcepts

open Exact

variable {size : Nat} {prior : Prior Exact} {candidates : List (Hypothesis size)}
  {examples : List Nat} {posterior : Posterior Exact size} {hypothesis : Hypothesis size} {n : Nat}

namespace Hypothesis

/-- The candidates that a ranking lists: those with members. -/
def eligible (candidates : List (Hypothesis size)) : List (Hypothesis size) :=
  candidates.filter fun hypothesis => hypothesis.members ≠ ∅

theorem mem_eligible : hypothesis ∈ eligible candidates ↔
    hypothesis ∈ candidates ∧ hypothesis.members ≠ ∅ := by
  simp [eligible]

/-- How often a hypothesis is listed. -/
def occurrences (candidates : List (Hypothesis size)) (hypothesis : Hypothesis size) : Nat :=
  (eligible candidates).countP fun candidate => candidate.concept == hypothesis.concept

theorem occurrences_pos_iff : 0 < occurrences candidates hypothesis ↔
    hypothesis ∈ eligible candidates := by
  rw [occurrences, List.countP_pos_iff]
  constructor
  · rintro ⟨candidate, listed, same⟩
    obtain rfl := concept_injective (eq_of_beq same)
    exact listed
  · exact fun listed => ⟨hypothesis, listed, beq_self_eq_true _⟩

/-- A draw from at least so many members has no greater chance than one in so many. -/
theorem chance_mul_le_one {count : Nat} (atLeast : count ≤ hypothesis.count) :
    hypothesis.chance n * count ≤ 1 := by
  rw [chance]
  split
  next member =>
    have positive : (0 : ℝ) < hypothesis.count := by
      exact_mod_cast count_pos (NatSet.ne_empty_of_mem member)
    rw [inv_mul_le_one₀ positive]
    exact_mod_cast atLeast
  next => rw [zero_mul]; exact zero_le_one

/-- The chance is less where there are more members, or where the number is none of them. -/
theorem chance_mul_lt_one_iff {count : Nat} :
    hypothesis.chance n * count < 1 ↔ count < hypothesis.count ∨ n ∉ hypothesis.members := by
  rw [chance]
  split
  next member =>
    have positive : (0 : ℝ) < hypothesis.count := by
      exact_mod_cast count_pos (NatSet.ne_empty_of_mem member)
    rw [inv_mul_lt_one₀ positive, Nat.cast_lt]
    simp [member]
  next lacks => simp [lacks]

end Hypothesis

open Hypothesis

namespace Prior

/-- The weight that all listed candidates have together after the examples. -/
noncomputable def totalAfter (prior : Prior Exact) (examples : List Nat)
    (candidates : List (Hypothesis size)) : ℝ :=
  ((eligible candidates).map (prior.weightAfter examples)).sum

/-- One more example divides the weight of a hypothesis that contains it by the count of members. -/
theorem weightAfter_append_of_mem (prior : Prior Exact) (examples : List Nat)
    (member : n ∈ hypothesis.members) : prior.weightAfter (examples ++ [n]) hypothesis =
      prior.weightAfter examples hypothesis / hypothesis.count := by
  rw [weightAfter_append, likelihood_singleton, chance, if_pos member, div_eq_mul_inv]

/-- One more example multiplies the weight of each candidate by its chance. -/
theorem totalAfter_append_mul (prior : Prior Exact) (examples : List Nat) (n : Nat)
    (candidates : List (Hypothesis size)) (factor : ℝ) :
    prior.totalAfter (examples ++ [n]) candidates * factor =
      ((eligible candidates).map fun hypothesis =>
        prior.weightAfter examples hypothesis * (hypothesis.chance n * factor)).sum := by
  rw [totalAfter, ← List.sum_map_mul_right]
  simp only [weightAfter_append, likelihood_singleton, mul_assoc]

/-- A candidate with a weight loses some of it where it is larger or lacks the example. -/
theorem FinitelyWeighted.weightAfter_mul_chance_lt_iff (finite : prior.FinitelyWeighted)
    {count : Nat} :
    prior.weightAfter examples hypothesis * (hypothesis.chance n * count) <
        prior.weightAfter examples hypothesis ↔
      0 < prior.weightAfter examples hypothesis ∧
        (count < hypothesis.count ∨ n ∉ hypothesis.members) := by
  rcases finite.weightAfter_nonneg.eq_or_lt with weightless | hasWeight
  · rw [← weightless, zero_mul]
    simp
  · rw [mul_lt_iff_lt_one_right hasWeight, chance_mul_lt_one_iff]
    exact (and_iff_right hasWeight).symm

section Smallest

variable (finite : prior.FinitelyWeighted) {count : Nat}
  (smallest : ∀ hypothesis ∈ eligible candidates,
    0 < prior.weightAfter examples hypothesis → count ≤ hypothesis.count)

include finite smallest

/-- No candidate keeps more than one part of its weight in as many as the least count. -/
theorem weightAfter_mul_chance_le (listed : hypothesis ∈ eligible candidates) :
    prior.weightAfter examples hypothesis * (hypothesis.chance n * count) ≤
      prior.weightAfter examples hypothesis := by
  rcases finite.weightAfter_nonneg.eq_or_lt with weightless | hasWeight
  · rw [← weightless, zero_mul]
  · exact mul_le_of_le_one_right hasWeight.le (chance_mul_le_one (smallest _ listed hasWeight))

/-- Nor do all candidates together. -/
theorem totalAfter_append_mul_le :
    prior.totalAfter (examples ++ [n]) candidates * count ≤
      prior.totalAfter examples candidates := by
  rw [totalAfter_append_mul]
  exact List.sum_le_sum fun _ listed => weightAfter_mul_chance_le finite smallest listed

/-- They keep less where some candidate with a weight is larger or lacks the example. -/
theorem totalAfter_append_mul_lt_iff :
    prior.totalAfter (examples ++ [n]) candidates * count <
        prior.totalAfter examples candidates ↔
      ∃ hypothesis ∈ eligible candidates, 0 < prior.weightAfter examples hypothesis ∧
        (count < hypothesis.count ∨ n ∉ hypothesis.members) := by
  rw [totalAfter_append_mul, totalAfter]
  constructor
  · intro less
    obtain ⟨hypothesis, listed, loses⟩ := List.exists_lt_of_sum_lt _ _ less
    exact ⟨hypothesis, listed, finite.weightAfter_mul_chance_lt_iff.1 loses⟩
  · rintro ⟨hypothesis, listed, loses⟩
    exact List.sum_lt_sum _ _ (fun _ listed => weightAfter_mul_chance_le finite smallest listed)
      ⟨hypothesis, listed, finite.weightAfter_mul_chance_lt_iff.2 loses⟩

end Smallest

end Prior

namespace Posterior

/-- The weights assessed are those of the listed candidates after the examples. -/
theorem sum_weight_assess (finite : prior.FinitelyWeighted)
    (candidates : List (Hypothesis size)) (examples : List Nat) :
    (((eligible candidates).map (Assessment.assess prior examples none)).map fun candidate =>
      candidate.logWeight.weight).sum = prior.totalAfter examples candidates := by
  rw [List.map_map, Prior.totalAfter]
  exact congrArg List.sum (List.map_congr_left fun hypothesis listed =>
    Assessment.weight_assess finite (mem_eligible.1 listed).2 examples none)

/-- There is a ranking where the candidates have a total. -/
theorem exists_rank (finite : prior.FinitelyWeighted)
    (some : 0 < prior.totalAfter examples candidates) :
    ∃ posterior, rank prior candidates examples = .ok (.ok posterior) :=
  ⟨_, (rank_eq_ok finite candidates examples).trans (congrArg Except.ok
    (ofAssessments_eq_ok examples (sum_weight_assess finite candidates examples) some.ne'))⟩

section Ranked

variable (finite : prior.FinitelyWeighted)
  (ranked : rank prior candidates examples = .ok (.ok posterior))

include finite ranked

/-- Every listed candidate is ranked with its share of the total. -/
theorem entries_of_rank : 0 < prior.totalAfter examples candidates ∧
    posterior.entries.Perm ((eligible candidates).map fun hypothesis =>
      .ofTotal (prior.totalAfter examples candidates) (.assess prior examples none hypothesis)) := by
  have total := sum_weight_assess finite candidates examples
  have answer := Except.ok.inj ((rank_eq_ok finite candidates examples).symm.trans ranked)
  rcases (List.sum_nonneg (finite.weights_nonneg (eligible candidates))).eq_or_lt with
    weightless | some
  · have fails := ofAssessments_eq_error examples (total.trans weightless.symm)
    cases fails.symm.trans answer
  · have succeeds := ofAssessments_eq_ok examples total some.ne'
    obtain rfl := Except.ok.inj (succeeds.symm.trans answer)
    refine ⟨some, (List.mergeSort_perm _ _).trans ?_⟩
    rw [List.map_map]
    rfl

/-- A concept has its share of the total as often as it is listed. -/
theorem probabilityOf_of_rank (hypothesis : Hypothesis size) :
    posterior.probabilityOf hypothesis.concept =
      real (occurrences candidates hypothesis *
        (prior.weightAfter examples hypothesis / prior.totalAfter examples candidates)) := by
  obtain ⟨_, entries⟩ := entries_of_rank finite ranked
  let share := prior.weightAfter examples hypothesis / prior.totalAfter examples candidates
  have chosen : (posterior.entries.filter fun entry =>
      entry.hypothesis.concept == hypothesis.concept).Perm
        (((eligible candidates).filter fun candidate =>
          candidate.concept == hypothesis.concept).map fun candidate =>
            .ofTotal (prior.totalAfter examples candidates)
              (.assess prior examples none candidate)) := by
    apply (entries.filter _).trans
    rw [List.filter_map]
    rfl
  have shares : (((eligible candidates).filter fun candidate =>
      candidate.concept == hypothesis.concept).map fun candidate =>
        (Ranked.ofTotal (prior.totalAfter examples candidates)
          (.assess prior examples none candidate)).probability) =
      (List.replicate (occurrences candidates hypothesis) share).map real := by
    rw [List.map_replicate, List.eq_replicate_iff, List.length_map, List.forall_mem_map]
    refine ⟨(List.countP_eq_length_filter ..).symm, fun candidate isChosen => ?_⟩
    obtain ⟨listed, same⟩ := List.mem_filter.1 isChosen
    obtain rfl := concept_injective (eq_of_beq same)
    have weight := Assessment.weight_assess finite (mem_eligible.1 listed).2 examples none
    rw [Ranked.ofTotal, weight]
  rw [probabilityOf, sum_perm (chosen.map _), List.map_map]
  refine (congrArg Scalar.sum shares).trans ?_
  rw [sum_map_real, List.sum_replicate, nsmul_eq_mul]

/-- The concepts with a probability are those listed with a weight. -/
theorem probabilityOf_pos_iff :
    Scalar.lt Scalar.zero (posterior.probabilityOf hypothesis.concept) = true ↔
      hypothesis ∈ eligible candidates ∧ 0 < prior.weightAfter examples hypothesis := by
  obtain ⟨some, _⟩ := entries_of_rank finite ranked
  rw [probabilityOf_of_rank finite ranked, zero_eq, lt_real, decide_eq_true_iff,
    ← occurrences_pos_iff]
  rcases Nat.eq_zero_or_pos (occurrences candidates hypothesis) with absent | listed
  · simp [absent]
  · have counted : (0 : ℝ) < occurrences candidates hypothesis := by exact_mod_cast listed
    rw [mul_pos_iff_of_pos_left counted, div_pos_iff_of_pos_right some]
    exact (and_iff_right listed).symm

end Ranked

/-- One more example that the smallest probable candidate contains does not make this candidate less
probable. It makes it more probable exactly when another probable candidate is larger or lacks the
example. -/
theorem rank_concentrates (finite : prior.FinitelyWeighted) {leader : Hypothesis size}
    {before : Posterior Exact size}
    (ranked : rank prior candidates examples = .ok (.ok before))
    (positive : Scalar.lt Scalar.zero (before.probabilityOf leader.concept) = true)
    (member : n ∈ leader.members)
    (smallest : ∀ other ∈ candidates,
      Scalar.lt Scalar.zero (before.probabilityOf other.concept) = true →
        leader.count ≤ other.count) :
    ∃ after p q, rank prior candidates (examples ++ [n]) = .ok (.ok after) ∧
      before.probabilityOf leader.concept = .real p ∧
      after.probabilityOf leader.concept = .real q ∧ p ≤ q ∧
      (p < q ↔ ∃ other ∈ candidates, other ≠ leader ∧
        Scalar.lt Scalar.zero (before.probabilityOf other.concept) = true ∧
          (leader.count < other.count ∨ n ∉ other.members)) := by
  obtain ⟨some, _⟩ := entries_of_rank finite ranked
  obtain ⟨listed, hasWeight⟩ := (probabilityOf_pos_iff finite ranked).1 positive
  have inhabited := (mem_eligible.1 listed).2
  have counted : (0 : ℝ) < leader.count := by exact_mod_cast count_pos inhabited
  have keeps := prior.weightAfter_append_of_mem examples member
  have least : ∀ other ∈ eligible candidates,
      0 < prior.weightAfter examples other → leader.count ≤ other.count :=
    fun other listed hasWeight => smallest other (mem_eligible.1 listed).1
      ((probabilityOf_pos_iff finite ranked).2 ⟨listed, hasWeight⟩)
  have someAfter : 0 < prior.totalAfter (examples ++ [n]) candidates := by
    apply finite.sum_weights_pos listed
    rw [keeps]
    exact div_pos hasWeight counted
  obtain ⟨after, rankedAfter⟩ := exists_rank finite someAfter
  -- Both probabilities are parts of one weight.
  let weight := occurrences candidates leader * prior.weightAfter examples leader
  have someWeight : 0 < weight := mul_pos
    (by exact_mod_cast occurrences_pos_iff.2 listed) hasWeight
  have isBefore : before.probabilityOf leader.concept =
      .real (weight / prior.totalAfter examples candidates) := by
    rw [probabilityOf_of_rank finite ranked, mul_div_assoc]
  have isAfter : after.probabilityOf leader.concept =
      .real (weight / (prior.totalAfter (examples ++ [n]) candidates * leader.count)) := by
    rw [probabilityOf_of_rank finite rankedAfter, keeps, div_div, mul_div_assoc,
      mul_comm (leader.count : ℝ)]
  refine ⟨after, _, _, rankedAfter, isBefore, isAfter, ?atLeast, ?more⟩
  case atLeast =>
    exact div_le_div_of_nonneg_left someWeight.le (mul_pos someAfter counted)
      (Prior.totalAfter_append_mul_le finite least)
  case more =>
    rw [div_lt_div_iff_of_pos_left someWeight some (mul_pos someAfter counted),
      Prior.totalAfter_append_mul_lt_iff finite least]
    simp only [probabilityOf_pos_iff finite ranked]
    constructor
    · rintro ⟨other, isListed, someWeight, differs⟩
      refine ⟨other, (mem_eligible.1 isListed).1, ?_, ⟨isListed, someWeight⟩, differs⟩
      rintro rfl
      exact differs.elim (lt_irrefl _) fun lacks => lacks member
    · rintro ⟨other, _, _, ⟨isListed, someWeight⟩, differs⟩
      exact ⟨other, isListed, someWeight, differs⟩

/-- Over twenty numbers the multiples of four become more probable with the example 8 after 4: the
even numbers are more, and the powers of two as many. -/
theorem rank_concentrates_over_twenty :
    let fours : Hypothesis 20 := .ofTerminal 20 (.multipleOf 4)
    let candidates : List (Hypothesis 20) := [.ofTerminal 20 (.primitive .even), fours,
      .ofTerminal 20 (.powerOf 2), .ofTerminal 20 (.primitive .odd)]
    ∃ (before after : Posterior Exact 20) (p q : ℝ),
      rank .uniform candidates [4] = .ok (.ok before) ∧
      rank .uniform candidates [4, 8] = .ok (.ok after) ∧
      before.probabilityOf fours.concept = .real p ∧ after.probabilityOf fours.concept = .real q ∧
      p < q := by
  intro fours candidates
  let even : Hypothesis 20 := .ofTerminal 20 (.primitive .even)
  have named : Prior.named? "uniform" = some (Prior.uniform : Prior Exact) := rfl
  have finite : (Prior.uniform : Prior Exact).FinitelyWeighted := .of_named named
  have probable : ∀ leaf : Terminal, 4 ∈ leaf.extension 20 →
      0 < (Prior.uniform : Prior Exact).weightAfter [4] (.ofTerminal 20 leaf) := by
    intro leaf member
    have hasWeight : 0 < (Prior.uniform : Prior Exact).weightOf (.ofTerminal 20 leaf) :=
      finite.weightOf_pos (Prior.logPrior_uniform_terminal 20 leaf _)
    exact Prior.weightAfter_pos hasWeight (NatSet.ne_empty_of_mem member) (by simpa using member)
  have foursProbable := probable (.multipleOf 4) (by decide)
  have evenProbable := probable (.primitive .even) (by decide)
  have foursListed : fours ∈ eligible candidates :=
    mem_eligible.2 ⟨by simp [candidates], NatSet.ne_empty_of_mem (n := 4) (by decide)⟩
  have evenListed : even ∈ eligible candidates :=
    mem_eligible.2 ⟨by simp [candidates, even], NatSet.ne_empty_of_mem (n := 4) (by decide)⟩
  obtain ⟨before, ranked⟩ := exists_rank finite (finite.sum_weights_pos foursListed foursProbable)
  have positive := (probabilityOf_pos_iff finite ranked).2 ⟨foursListed, foursProbable⟩
  have least : ∀ other ∈ candidates, fours.count ≤ other.count := by
    simp only [candidates, List.forall_mem_cons]
    decide
  obtain ⟨after, p, q, rankedAfter, isBefore, isAfter, _, more⟩ :=
    rank_concentrates (n := 8) finite ranked positive (by decide)
      fun other listed _ => least other listed
  refine ⟨before, after, p, q, ranked, rankedAfter, isBefore, isAfter, more.2 ?_⟩
  refine ⟨even, (mem_eligible.1 evenListed).1, ?_,
    (probabilityOf_pos_iff finite ranked).2 ⟨evenListed, evenProbable⟩, .inl (by decide)⟩
  intro same
  exact absurd (congrArg Hypothesis.count same) (by decide)

end Posterior

end NumberConcepts
