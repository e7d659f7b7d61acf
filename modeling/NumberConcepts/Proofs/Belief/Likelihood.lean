import Mathlib.Algebra.BigOperators.Fin
import Mathlib.Algebra.Order.BigOperators.Ring.List
import Mathlib.Data.Fintype.BigOperators
import NumberConcepts.Proofs.Belief.LogWeights
import NumberConcepts.Proofs.Hypothesis.Space
/-!
# Draws from a hypothesis

Examples are taken to be drawn from the members of a hypothesis, each with the
same chance. Over the numbers of the domain the chances sum to one, and so do
the likelihoods of all examples of one length.
-/

namespace NumberConcepts

namespace Hypothesis

variable {size : Nat} (hypothesis : Hypothesis size)

/-- The probability of a number when one member is drawn. -/
noncomputable def chance (n : Nat) : ℝ :=
  if n ∈ hypothesis.members then (hypothesis.count : ℝ)⁻¹ else 0

/-- The probability of the examples when as many members are drawn. -/
noncomputable def likelihood (examples : List Nat) : ℝ := (examples.map hypothesis.chance).prod

@[simp] theorem likelihood_nil : hypothesis.likelihood [] = 1 := rfl

theorem likelihood_append (examples more : List Nat) :
    hypothesis.likelihood (examples ++ more) =
      hypothesis.likelihood examples * hypothesis.likelihood more := by
  rw [likelihood, List.map_append, List.prod_append]
  rfl

theorem likelihood_singleton (n : Nat) : hypothesis.likelihood [n] = hypothesis.chance n := by
  simp [likelihood]

theorem likelihood_nonneg (examples : List Nat) : 0 ≤ hypothesis.likelihood examples := by
  apply List.prod_nonneg
  rw [List.forall_mem_map]
  intro n _
  rw [chance]
  positivity

variable {hypothesis}

/-- Examples that are no members have no likelihood; all others have that of as many draws. -/
theorem likelihood_eq {examples : List Nat} :
    hypothesis.likelihood examples =
      if ∀ n ∈ examples, n ∈ hypothesis.members then (hypothesis.count : ℝ)⁻¹ ^ examples.length
      else 0 := by
  induction examples with
  | nil => simp
  | cons first rest inductionHypothesis =>
      rw [← List.singleton_append, likelihood_append, likelihood_singleton, inductionHypothesis,
        chance]
      by_cases member : first ∈ hypothesis.members
      · simp [member, pow_succ']
      · simp [member]

/-- A hypothesis with members counts some. -/
theorem count_pos (inhabited : hypothesis.members ≠ ∅) : 0 < hypothesis.count := by
  obtain ⟨n, member⟩ := NatSet.exists_mem_of_ne_empty inhabited
  rw [hypothesis.count_eq, NatSet.size]
  exact List.length_pos_of_mem (NatSet.mem_toList.2 member)

/-- The logarithm kept for a hypothesis with members has its likelihood as weight. -/
theorem weight_logLikelihood (inhabited : hypothesis.members ≠ ∅) {examples : List Nat}
    {consistent : Bool}
    (describes : consistent = true ↔ ∀ n ∈ examples, n ∈ hypothesis.members) :
    (LogWeights.logLikelihood (α := Exact) hypothesis.count examples.length consistent).weight =
      hypothesis.likelihood examples := by
  rw [LogWeights.weight_logLikelihood (count_pos inhabited), likelihood_eq]
  simp only [describes]

/-- A value for every number of the domain that is a member is there as often as members are
counted. -/
theorem sum_members (inside : ∀ n ∈ hypothesis.members, 1 ≤ n ∧ n ≤ size) (value : ℝ) :
    ∑ n ∈ Finset.Icc 1 size, (if n ∈ hypothesis.members then value else 0) =
      hypothesis.count * value := by
  have members : {n ∈ Finset.Icc 1 size | n ∈ hypothesis.members} =
      hypothesis.members.toList.toFinset := by
    ext n
    rw [Finset.mem_filter, Finset.mem_Icc, List.mem_toFinset, NatSet.mem_toList]
    exact ⟨fun both => both.2, fun member => ⟨inside n member, member⟩⟩
  rw [← Finset.sum_filter, members, Finset.sum_const,
    List.toFinset_card_of_nodup (NatSet.nodup_toList _), nsmul_eq_mul, hypothesis.count_eq]
  rfl

section Draws

variable (inhabited : hypothesis.members ≠ ∅)
  (inside : ∀ n ∈ hypothesis.members, 1 ≤ n ∧ n ≤ size)

include inhabited inside

/-- One number of the domain is drawn for certain. -/
theorem sum_chance : ∑ n ∈ Finset.Icc 1 size, hypothesis.chance n = 1 := by
  have counted : (hypothesis.count : ℝ) ≠ 0 := by
    exact_mod_cast (count_pos inhabited).ne'
  simp only [chance]
  rw [sum_members inside, mul_inv_cancel₀ counted]

/-- Whatever is drawn next, the likelihood of the examples so far stays in sum. -/
theorem sum_likelihood_append (examples : List Nat) :
    ∑ n ∈ Finset.Icc 1 size, hypothesis.likelihood (examples ++ [n]) =
      hypothesis.likelihood examples := by
  simp only [likelihood_append, likelihood_singleton]
  rw [← Finset.mul_sum, sum_chance inhabited inside, mul_one]

/-- Some sequence of each length is drawn for certain. -/
theorem sum_likelihood (length : Nat) :
    ∑ draws ∈ Fintype.piFinset fun _ : Fin length => Finset.Icc 1 size,
      hypothesis.likelihood (List.ofFn draws) = 1 := by
  have product : ∀ draws : Fin length → Nat,
      hypothesis.likelihood (List.ofFn draws) = ∏ i, hypothesis.chance (draws i) := by
    intro draws
    rw [likelihood, List.map_ofFn, List.prod_ofFn]
    rfl
  simp only [product]
  rw [← Finset.prod_univ_sum]
  simp only [sum_chance inhabited inside, Finset.prod_const_one]

end Draws

end Hypothesis

end NumberConcepts
