import Mathlib.Data.String.Basic
import NumberConcepts.Belief.Vector
import NumberConcepts.Proofs.Hypothesis.Space
import NumberConcepts.Proofs.Scalar
/-!
# Written forms as names

A written form is read in one way only, so it may stand for its concept: hypotheses
are looked up by it, and it settles the order of candidates that are equally probable
and equally large. Two candidates of different concepts always stand in one order and
not in the other, `Ranked.precedes_eq_not`.
-/

namespace NumberConcepts

namespace HypothesisSpace

/-- A hypothesis is found by its written form. -/
theorem find?_key {space : HypothesisSpace} {hypothesis : Hypothesis space.domain.size}
    (listed : hypothesis ∈ space.hypotheses) : space.find? hypothesis.key = some hypothesis := by
  cases search : space.find? hypothesis.key with
  | none =>
      have missing := Array.find?_eq_none.1 search hypothesis listed
      simp at missing
  | some found =>
      have sameKey : found.key = hypothesis.key := by simpa using Array.find?_some search
      rw [Hypothesis.key_injective sameKey]

/-- No two hypotheses of the base space share a written form. -/
theorem nodup_keys_base (domain : Domain) :
    ((base domain).hypotheses.toList.map Hypothesis.key).Nodup :=
  (nodup_base domain).map Hypothesis.key_injective

end HypothesisSpace

/-- Scalars are less than others in one direction only. -/
def Scalar.Asymmetric (α : Type) [Scalar α] : Prop :=
  ∀ x y : α, Scalar.lt x y = true → Scalar.lt y x = false

/-- Scalars without rounding are. -/
theorem Exact.asymmetric : Scalar.Asymmetric Exact := by
  intro x y less
  cases x <;> cases y <;> simp_all [Scalar.lt, Exact.lt]
  exact le_of_lt less

section Order

variable {α : Type} [Scalar α] {size : Nat}

/-- What settles the order of two candidates, probabilities first and written forms last, settles
it in one way. -/
private theorem order_eq_not (asymmetric : Scalar.Asymmetric α) (p q : α) (m n : Nat)
    {s t : String} (different : s ≠ t) :
    (if Scalar.lt q p then true
      else if Scalar.lt p q then false
      else if m < n then true
      else if n < m then false
      else !decide (t < s)) =
    !(if Scalar.lt p q then true
      else if Scalar.lt q p then false
      else if n < m then true
      else if m < n then false
      else !decide (s < t)) := by
  by_cases more : Scalar.lt q p = true
  · simp [more, asymmetric q p more]
  by_cases less : Scalar.lt p q = true
  · simp [more, less]
  by_cases fewer : m < n
  · simp [more, less, fewer, Nat.lt_asymm fewer]
  by_cases above : n < m
  · simp [more, less, fewer, above]
  rcases lt_or_gt_of_ne different with before | after
  · simp [more, less, fewer, above, before, lt_asymm before]
  · simp [more, less, fewer, above, after, lt_asymm after]

/-- Of two candidates of different concepts exactly one precedes the other. -/
theorem Ranked.precedes_eq_not (asymmetric : Scalar.Asymmetric α) {a b : Ranked α size}
    (different : a.hypothesis.concept ≠ b.hypothesis.concept) : a.precedes b = !b.precedes a := by
  have keys : a.hypothesis.key ≠ b.hypothesis.key :=
    fun same => different (congrArg Hypothesis.concept (Hypothesis.key_injective same))
  exact order_eq_not asymmetric _ _ _ _ keys

/-- Of two entries of a belief vector with different concepts exactly one precedes the other. -/
theorem HypothesisSpace.weightedPrecedes_eq_not (asymmetric : Scalar.Asymmetric α)
    {a b : HypothesisSpace.Weighted α size} (different : a.1.concept ≠ b.1.concept) :
    HypothesisSpace.weightedPrecedes a b = !HypothesisSpace.weightedPrecedes b a := by
  have keys : a.1.key ≠ b.1.key :=
    fun same => different (congrArg Hypothesis.concept (Hypothesis.key_injective same))
  exact order_eq_not asymmetric _ _ _ _ keys

end Order

/-- Concepts with the same written form are the same. So in the base space of every domain no two
hypotheses share one and each is found by its own, and of two candidates with different concepts
exactly one precedes the other, in a ranking and in an ordered belief vector. -/
theorem written_forms_identify :
    (∀ a b : Concept, a.key = b.key → a = b) ∧
    (∀ domain : Domain,
      ((HypothesisSpace.base domain).hypotheses.toList.map Hypothesis.key).Nodup ∧
      ∀ hypothesis ∈ (HypothesisSpace.base domain).hypotheses,
        (HypothesisSpace.base domain).find? hypothesis.key = some hypothesis) ∧
    ∀ (α : Type) [Scalar α], Scalar.Asymmetric α → ∀ size : Nat,
      (∀ a b : Ranked α size, a.hypothesis.concept ≠ b.hypothesis.concept →
        a.precedes b = !b.precedes a) ∧
      ∀ a b : HypothesisSpace.Weighted α size, a.1.concept ≠ b.1.concept →
        HypothesisSpace.weightedPrecedes a b = !HypothesisSpace.weightedPrecedes b a := by
  refine ⟨fun _ _ => Concept.key_injective, fun domain => ⟨?_, ?_⟩, ?_⟩
  · exact HypothesisSpace.nodup_keys_base domain
  · intro hypothesis listed
    exact HypothesisSpace.find?_key listed
  · intro α _ asymmetric size
    exact ⟨fun _ _ different => Ranked.precedes_eq_not asymmetric different,
      fun _ _ different => HypothesisSpace.weightedPrecedes_eq_not asymmetric different⟩

/-- One concept only is written `union(even, odd)`, the even numbers are found by name in a domain of
six, and there exactly one of the even and the odd numbers stands first where both are as probable. -/
theorem written_forms_identify_even :
    let domain : Domain := ⟨6, by decide⟩
    let even : Hypothesis domain.size := .ofConcept _ (.terminal (.primitive .even))
    let odd : Hypothesis domain.size := .ofConcept _ (.terminal (.primitive .odd))
    (∀ concept : Concept, concept.key = "union(even, odd)" →
      concept = .combine .union even.concept odd.concept) ∧
    (HypothesisSpace.base domain).find? even.key = some even ∧
    (HypothesisSpace.weightedPrecedes (even, Exact.real (1 / 2)) (odd, Exact.real (1 / 2)) =
      !HypothesisSpace.weightedPrecedes (odd, Exact.real (1 / 2)) (even, Exact.real (1 / 2))) := by
  intro domain even odd
  obtain ⟨readable, found, ordered⟩ := written_forms_identify
  refine ⟨fun concept written => ?_, ?_, ?_⟩
  · exact readable _ _ (written.trans (by decide))
  · refine (found domain).2 even (HypothesisSpace.mem_ofConcepts.2 ⟨?_, by decide⟩)
    exact List.mem_append_left _ (by decide)
  · exact (ordered Exact Exact.asymmetric domain.size).2 _ _ (by decide)

end NumberConcepts
