import NumberConcepts.Proofs.Belief.Posterior
/-!
# Candidates in another order

The total weight does not depend on the order in which candidates are given, and
neither does a share of it. Entries are sorted by their places, and two of them at one
place are of the same hypothesis and so the same: `ofAssessments_perm_eq`. A ranking
therefore shows which candidates were given and how often, but not in which order.
-/

namespace NumberConcepts

open Exact

variable {size : Nat} {prior : Prior Exact} {examples : List Nat}

namespace Ranked

/-- The first candidate is more probable than the second, or as probable and of fewer members, or of
as many members and not written behind the second. -/
def StandsBefore (a b : Ranked Exact size) : Prop :=
  ∃ p q : ℝ, a.probability = .real p ∧ b.probability = .real q ∧
    (q < p ∨ p = q ∧ (a.hypothesis.members.size < b.hypothesis.members.size ∨
      a.hypothesis.members.size = b.hypothesis.members.size ∧
        a.hypothesis.concept.key ≤ b.hypothesis.concept.key))

/-- Where probabilities are numbers, places tell which candidate stands before which. -/
theorem standsBefore_of_place_le {a b : Ranked Exact size} {p q : ℝ}
    (first : a.probability = real p) (second : b.probability = real q)
    (before : a.place ≤ b.place) : a.StandsBefore b := by
  refine ⟨p, q, first, second, ?_⟩
  rw [place, place, first, second, Prod.Lex.toLex_le_toLex, Prod.Lex.toLex_le_toLex,
    Hypothesis.count_eq, Hypothesis.count_eq, Hypothesis.key_eq, Hypothesis.key_eq] at before
  rcases before with less | ⟨equal, behind⟩
  · exact .inl (neg_lt_neg_iff.1 less)
  · exact .inr ⟨neg_inj.1 equal, behind⟩

/-- Candidates stand before each other once they are sorted. -/
theorem pairwise_standsBefore {entries : List (Ranked Exact size)}
    (numbers : ∀ entry ∈ entries, ∃ p, entry.probability = real p) :
    (entries.mergeSort precedes).Pairwise StandsBefore := by
  refine (pairwise_place numbers).imp_of_mem ?_
  intro a b isEntry isEntry' before
  obtain ⟨p, first⟩ := numbers a (List.mem_mergeSort.1 isEntry)
  obtain ⟨q, second⟩ := numbers b (List.mem_mergeSort.1 isEntry')
  exact standsBefore_of_place_le first second before

end Ranked

namespace Posterior

/-- Shares of a total are numbers. -/
theorem exists_probability_ofTotal (total : ℝ) (assessments : List (Assessment Exact size)) :
    ∀ entry ∈ assessments.map (Ranked.ofTotal total), ∃ p, entry.probability = real p := by
  rw [List.forall_mem_map]
  exact fun candidate _ => ⟨_, rfl⟩

/-- Assessments that are known by their hypotheses have one posterior in whatever order they are
given. -/
theorem ofAssessments_perm_eq {first second : List (Assessment Exact size)}
    (reordered : first.Perm second)
    (known : ∀ a ∈ first, ∀ b ∈ first, a.hypothesis = b.hypothesis → a = b) :
    ofAssessments examples first = ofAssessments examples second := by
  let total := (second.map fun candidate => candidate.logWeight.weight).sum
  have same : (first.map fun candidate => candidate.logWeight.weight).sum = total :=
    (reordered.map _).sum_eq
  by_cases weightless : total = 0
  · rw [ofAssessments_eq_error examples (same.trans weightless),
      ofAssessments_eq_error examples weightless]
  · have sorted : (first.map (Ranked.ofTotal total)).mergeSort Ranked.precedes =
        (second.map (Ranked.ofTotal total)).mergeSort Ranked.precedes := by
      apply Ranked.mergeSort_perm_eq (reordered.map _) (exists_probability_ofTotal total first)
      simp only [List.forall_mem_map]
      intro a given b given' alike
      exact congrArg (Ranked.ofTotal total) (known a given b given' alike)
    rw [ofAssessments_eq_ok examples same weightless, ofAssessments_eq_ok examples rfl weightless,
      sorted]

/-- The posterior of assessments has its entries in order. -/
theorem pairwise_ofAssessments {assessments : List (Assessment Exact size)}
    {posterior : Posterior Exact size}
    (succeeds : ofAssessments examples assessments = .ok posterior) :
    posterior.entries.Pairwise Ranked.StandsBefore := by
  by_cases weightless :
      (assessments.map fun candidate => candidate.logWeight.weight).sum = 0
  · rw [ofAssessments_eq_error examples weightless] at succeeds
    cases succeeds
  · rw [ofAssessments_eq_ok examples rfl weightless] at succeeds
    obtain rfl := Except.ok.inj succeeds
    exact Ranked.pairwise_standsBefore (exists_probability_ofTotal _ assessments)

/-- Without a posterior the answer names the examples. -/
theorem missing_of_ofAssessments {assessments : List (Assessment Exact size)}
    {missing : NoExplanation} (fails : ofAssessments examples assessments = .error missing) :
    missing = { examples, samples := none } := by
  rw [ofAssessments] at fails
  split at fails
  next => cases fails
  next => exact (Except.error.inj fails).symm

/-- Candidates are ranked alike in whatever order they are given. -/
theorem rank_perm_eq (finite : prior.FinitelyWeighted) {first second : List (Hypothesis size)}
    (reordered : first.Perm second) (examples : List Nat) :
    rank prior first examples = rank prior second examples := by
  rw [rank_eq_ok finite, rank_eq_ok finite]
  refine congrArg Except.ok (ofAssessments_perm_eq ((reordered.filter _).map _) ?known)
  -- An assessment is made from the hypothesis alone.
  simp only [List.forall_mem_map]
  rintro a _ b _ same
  exact congrArg (Assessment.assess prior examples none) same

/-- Concepts in any order get one answer. It is that nothing explains the examples, or a ranking in
which the more probable concept stands before the less probable one, among equals the smaller before
the larger one, and concepts of one size stand in the order of their written forms. -/
theorem rank_reordered (finite : prior.FinitelyWeighted) (size : Nat) {first second : List Concept}
    (reordered : first.Perm second) (examples : List Nat) :
    ∃ answer, rank prior (first.map (.ofConcept size)) examples = .ok answer ∧
      rank prior (second.map (.ofConcept size)) examples = .ok answer ∧
      (∀ missing, answer = .error missing → missing = { examples, samples := none }) ∧
      ∀ posterior, answer = .ok posterior → posterior.entries.Pairwise Ranked.StandsBefore := by
  refine ⟨_, rank_eq_ok finite _ examples, ?_, fun _ => missing_of_ofAssessments,
    fun _ => pairwise_ofAssessments⟩
  rw [← rank_perm_eq finite (reordered.map (Hypothesis.ofConcept size)) examples]
  exact rank_eq_ok finite _ examples

/-- Over twenty numbers the type-weighted prior ranks candidates for 4 and again 4 alike when the
list is turned round. Even numbers are given twice, one candidate has no members and one lacks the
example. -/
theorem rank_reordered_over_twenty :
    let even : Concept := .terminal (.primitive .even)
    let squares : Concept := .terminal (.primitive .square)
    let concepts : List Concept := [even, .combine .intersect even squares, even,
      .terminal (.multipleOf 50), .terminal (.primitive .odd)]
    concepts.reverse ≠ concepts ∧
    ∃ answer,
      rank (.typeWeighted : Prior Exact) (concepts.map (.ofConcept 20)) [4, 4] = .ok answer ∧
      rank .typeWeighted (concepts.reverse.map (.ofConcept 20)) [4, 4] = .ok answer ∧
      (∀ missing, answer = .error missing → missing = { examples := [4, 4], samples := none }) ∧
      ∀ posterior, answer = .ok posterior → posterior.entries.Pairwise Ranked.StandsBefore := by
  intro even squares concepts
  have named : Prior.named? "type-weighted" = some (Prior.typeWeighted : Prior Exact) := rfl
  have turned : concepts.Perm concepts.reverse := (List.reverse_perm concepts).symm
  exact ⟨by decide, rank_reordered (.of_named named) 20 turned [4, 4]⟩

end Posterior

end NumberConcepts
