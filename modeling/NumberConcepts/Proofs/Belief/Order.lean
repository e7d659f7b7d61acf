import Mathlib.Data.Prod.Lex
import Mathlib.Data.String.Basic
import NumberConcepts.Belief.Posterior
import NumberConcepts.Proofs.Hypothesis.Composition
import NumberConcepts.Proofs.Prior
import NumberConcepts.Proofs.Sequence
/-!
# Places in a ranking

Candidates whose probabilities are numbers stand in a ranking by their places, and
these are ordered linearly: `precedes_eq`. So the ranking is sorted by them, and its
first candidate is the most probable one. No two hypotheses share a place, so that
the order in which candidates are given does not show: `mergeSort_perm_eq`.
-/

namespace NumberConcepts

open Exact

variable {size : Nat}

namespace Ranked

/-- The place of a candidate: behind what is more probable, then behind what has fewer members, then
behind what is written before it. -/
noncomputable def place (entry : Ranked Exact size) : ℝ ×ₗ Nat ×ₗ String :=
  toLex (-entry.probability.value, toLex (entry.hypothesis.count, entry.hypothesis.key))

/-- Where probabilities are numbers, a candidate precedes another by its place. -/
theorem precedes_eq {a b : Ranked Exact size} {p q : ℝ} (first : a.probability = real p)
    (second : b.probability = real q) : a.precedes b = decide (a.place ≤ b.place) := by
  rw [Bool.eq_iff_iff, decide_eq_true_iff, place, place, Prod.Lex.toLex_le_toLex,
    Prod.Lex.toLex_le_toLex, precedes]
  simp only [first, second, lt_real, value, neg_lt_neg_iff, neg_inj, decide_eq_true_iff]
  by_cases more : q < p
  · simp [more]
  by_cases less : p < q
  · simp [more, less, less.ne]
  have equal : p = q := le_antisymm (not_lt.1 more) (not_lt.1 less)
  by_cases fewer : a.hypothesis.count < b.hypothesis.count
  · simp [equal, fewer]
  by_cases above : b.hypothesis.count < a.hypothesis.count
  · simp [equal, fewer, above, above.ne']
  have alike : a.hypothesis.count = b.hypothesis.count := by omega
  simp only [equal, alike, lt_irrefl, if_false, false_or, true_and, Bool.not_eq_true',
    decide_eq_false_iff_not, not_lt]

/-- Sorted candidates stand in the order of their places. -/
theorem pairwise_place {entries : List (Ranked Exact size)}
    (numbers : ∀ entry ∈ entries, ∃ p, entry.probability = real p) :
    (entries.mergeSort precedes).Pairwise fun a b => a.place ≤ b.place := by
  apply Sequence.pairwise_mergeSort_of_key
  intro a isEntry b isEntry'
  obtain ⟨p, first⟩ := numbers a isEntry
  obtain ⟨q, second⟩ := numbers b isEntry'
  exact precedes_eq first second

/-- Candidates at the same place are of the same hypothesis. -/
theorem hypothesis_eq_of_place_eq {a b : Ranked Exact size} (same : a.place = b.place) :
    a.hypothesis = b.hypothesis := by
  obtain ⟨_, rest⟩ := Prod.mk.inj (toLex.injective same)
  obtain ⟨_, keys⟩ := Prod.mk.inj (toLex.injective rest)
  exact Hypothesis.key_injective keys

/-- Candidates that are known by their hypotheses are sorted alike in whatever order they are
given. -/
theorem mergeSort_perm_eq {first second : List (Ranked Exact size)} (reordered : first.Perm second)
    (numbers : ∀ entry ∈ first, ∃ p, entry.probability = real p)
    (known : ∀ a ∈ first, ∀ b ∈ first, a.hypothesis = b.hypothesis → a = b) :
    first.mergeSort precedes = second.mergeSort precedes := by
  have numbers' : ∀ entry ∈ second, ∃ p, entry.probability = real p :=
    fun entry isEntry => numbers entry (reordered.mem_iff.2 isEntry)
  have same : (first.mergeSort precedes).Perm (second.mergeSort precedes) :=
    (List.mergeSort_perm _ _).trans (reordered.trans (List.mergeSort_perm _ _).symm)
  refine same.eq_of_pairwise ?_ (pairwise_place numbers) (pairwise_place numbers')
  intro a b isEntry isEntry' before after
  have isFirst : b ∈ first := reordered.mem_iff.2 (List.mem_mergeSort.1 isEntry')
  exact known a (List.mem_mergeSort.1 isEntry) b isFirst
    (hypothesis_eq_of_place_eq (le_antisymm before after))

/-- A candidate is at least as probable as one that stands behind it. -/
theorem value_le_of_place_le {a b : Ranked Exact size} (before : a.place ≤ b.place) :
    b.probability.value ≤ a.probability.value := by
  rcases Prod.Lex.toLex_le_toLex.1 before with less | ⟨equal, _⟩
  · exact (neg_lt_neg_iff.1 less).le
  · exact (neg_inj.1 equal).ge

/-- The first of some sorted candidates is the most probable one. -/
theorem exists_first_of_mem {entries : List (Ranked Exact size)}
    (sorted : entries.Pairwise fun a b => a.place ≤ b.place) {entry : Ranked Exact size}
    (isEntry : entry ∈ entries) :
    ∃ first ∈ entries, entries.head? = some first ∧
      entry.probability.value ≤ first.probability.value := by
  cases entries with
  | nil => cases isEntry
  | cons first rest =>
      refine ⟨first, List.mem_cons_self, rfl, ?_⟩
      rcases List.mem_cons.1 isEntry with rfl | behind
      · exact le_refl _
      · exact value_le_of_place_le (List.rel_of_pairwise_cons sorted behind)

end Ranked

/-! ### Where candidates come from -/

section Candidates

variable {α : Type} [Scalar α] {examples : List Nat} {posterior : Posterior α size}
  {entry : Ranked α size}

theorem Assessment.hypothesis_of_ofHypothesis {prior : Prior α} {position : Option Int}
    {hypothesis : Hypothesis size} {assessment : Assessment α size}
    (assessed : ofHypothesis prior examples position hypothesis = .ok (some assessment)) :
    assessment.hypothesis = hypothesis := by
  rw [ofHypothesis] at assessed
  split at assessed
  next => cases assessed
  next =>
    obtain ⟨logPrior, _, assessed⟩ := Sequence.exists_of_bind_ok assessed
    cases assessed
    rfl

namespace Posterior

/-- Every candidate of a posterior was assessed. -/
theorem toAssessment_mem {assessments : List (Assessment α size)}
    (succeeds : ofAssessments? examples assessments = some posterior)
    (isEntry : entry ∈ posterior.entries) : entry.toAssessment ∈ assessments := by
  obtain ⟨probabilities, _, rfl⟩ := Option.map_eq_some_iff.1 succeeds
  obtain ⟨position, isAt⟩ := List.mem_iff_getElem?.1 (List.mem_mergeSort.1 isEntry)
  obtain ⟨assessment, _, found, _, rfl⟩ := List.getElem?_zipWith_eq_some.1 isAt
  exact List.mem_of_getElem? found

/-- A posterior has a most probable candidate. -/
theorem isSome_best? {assessments : List (Assessment α size)}
    (succeeds : ofAssessments? examples assessments = some posterior) :
    posterior.best?.isSome := by
  obtain ⟨probabilities, normalized, rfl⟩ := Option.map_eq_some_iff.1 succeeds
  obtain ⟨total, isTotal, rfl⟩ := Option.map_eq_some_iff.1 normalized
  cases assessments with
  | nil => cases isTotal
  | cons first rest =>
      rw [best?, List.isSome_head?]
      apply List.ne_nil_of_length_pos
      rw [List.length_mergeSort]
      simp

/-- The most probable candidate is known unless nothing explains the examples. -/
theorem best?_ofAssessments_eq_none_iff (assessments : List (Assessment α size)) :
    (ofAssessments examples assessments).toOption.bind best? = none ↔
      (ofAssessments examples assessments).toOption = none := by
  cases weighed : ofAssessments? examples assessments with
  | none =>
      rw [ofAssessments, weighed]
      exact iff_of_true rfl rfl
  | some posterior =>
      have isBest := isSome_best? weighed
      rw [ofAssessments, weighed]
      constructor
      · intro none
        rw [Option.isSome_iff_ne_none] at isBest
        exact absurd none isBest
      · exact nofun

/-- Every candidate of a ranking was given. -/
theorem mem_of_rank {prior : Prior α} {candidates : List (Hypothesis size)}
    (succeeds : rank prior candidates examples = .ok (.ok posterior))
    (isEntry : entry ∈ posterior.entries) : entry.hypothesis ∈ candidates := by
  rw [rank] at succeeds
  obtain ⟨results, assessed, succeeds⟩ := Sequence.exists_of_bind_ok succeeds
  have ranked : ofAssessments examples (results.filterMap id) = .ok posterior :=
    Except.ok.inj succeeds
  cases weighed : ofAssessments? examples (results.filterMap id) with
  | none =>
      rw [ofAssessments, weighed] at ranked
      cases ranked
  | some ranking =>
      rw [ofAssessments, weighed] at ranked
      cases ranked
      obtain ⟨result, isResult, isAssessment⟩ :=
        List.mem_filterMap.1 (toAssessment_mem weighed isEntry)
      obtain rfl : result = some entry.toAssessment := isAssessment
      obtain ⟨candidate, listed, isFor⟩ := Sequence.exists_of_mem_mapM_ok assessed isResult
      rw [Assessment.hypothesis_of_ofHypothesis isFor]
      exact listed

end Posterior

end Candidates

end NumberConcepts
