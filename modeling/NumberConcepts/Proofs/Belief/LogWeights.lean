import NumberConcepts.Belief.LogWeights
import NumberConcepts.Proofs.Scalar
/-!
# Logarithms of weights, exactly

An exact entry stands for the weight whose logarithm it is. Totals and
normalisation are described by these weights alone: `logTotal?_eq` and
`normalize?_eq`. The entry that is subtracted before exponentials are taken does
not show in either, and neither does a common factor of all weights.
-/

namespace NumberConcepts

/-- The weight that an entry is the logarithm of; zero for an entry that is not finite. -/
noncomputable def Exact.weight : Exact → ℝ
  | real x => Real.exp x
  | negInf | posInf | undefined => 0

namespace Exact

@[simp] theorem weight_real (x : ℝ) : (real x).weight = Real.exp x := rfl

@[simp] theorem weight_negInf : weight Scalar.negInf = 0 := rfl

theorem weight_nonneg (entry : Exact) : 0 ≤ entry.weight := by
  cases entry with
  | real x => exact (Real.exp_pos x).le
  | negInf | posInf | undefined => exact le_refl 0

/-- An entry that is not finite has no weight. -/
theorem weight_of_not_isFinite {entry : Exact} (notFinite : ¬ Scalar.isFinite entry = true) :
    entry.weight = 0 := by
  cases entry with
  | real x => exact absurd rfl notFinite
  | negInf | posInf | undefined => rfl

/-- Weights are multiplied when entries are added. -/
theorem weight_add (a b : Exact) : (a + b).weight = a.weight * b.weight := by
  cases a with
  | real x =>
      cases b with
      | real y => exact Real.exp_add x y
      | negInf | posInf | undefined => exact (mul_zero _).symm
  | negInf | posInf | undefined => cases b <;> exact (zero_mul _).symm

/-- A weight is divided when a number is subtracted from its entry. -/
theorem weight_sub_real (a : Exact) (x : ℝ) : (a - real x).weight = a.weight / Real.exp x := by
  have negated : a - real x = a + real (-x) := rfl
  rw [negated, weight_add, weight_real, Real.exp_neg, div_eq_mul_inv]

end Exact

namespace LogWeights

open Exact

/-- The finite entries of a list are real numbers with the same total weight. -/
private theorem exists_finite (entries : List Exact) :
    ∃ values : List ℝ, entries.filter Scalar.isFinite = values.map real ∧
      (entries.map weight).sum = (values.map Real.exp).sum := by
  induction entries with
  | nil => exact ⟨[], rfl, rfl⟩
  | cons first rest inductionHypothesis =>
      obtain ⟨values, filtered, total⟩ := inductionHypothesis
      by_cases finite : Scalar.isFinite first = true
      · obtain ⟨x, rfl⟩ := isFinite_iff.1 finite
        refine ⟨x :: values, ?_, ?_⟩
        · rw [List.filter_cons_of_pos finite, filtered, List.map_cons]
        · rw [List.map_cons, List.sum_cons, List.map_cons, List.sum_cons, total, weight_real]
      · refine ⟨values, ?_, ?_⟩
        · rw [List.filter_cons_of_neg finite, filtered]
        · rw [List.map_cons, List.sum_cons, weight_of_not_isFinite finite, zero_add, total]

/-- The greatest of some real numbers is a real number. -/
private theorem exists_greatest (first : ℝ) (rest : List ℝ) :
    ∃ top, greatest? ((first :: rest).map real) = some (real top) := by
  rw [List.map_cons, greatest?]
  induction rest generalizing first with
  | nil => exact ⟨first, rfl⟩
  | cons second rest inductionHypothesis =>
      rw [List.map_cons, List.foldl_cons, Scalar.max]
      split
      next => exact inductionHypothesis second
      next => exact inductionHypothesis first

/-- A total weight other than zero is positive. -/
private theorem total_pos {entries : List Exact} (some : (entries.map weight).sum ≠ 0) :
    0 < (entries.map weight).sum := by
  apply lt_of_le_of_ne _ some.symm
  apply List.sum_nonneg
  rw [List.forall_mem_map]
  exact fun entry _ => weight_nonneg entry

/-- The total is the logarithm of the sum of the weights, whichever number was subtracted on the
way. -/
theorem logTotal?_eq (entries : List Exact) :
    logTotal? entries =
      if (entries.map weight).sum = 0 then none
      else some (real (Real.log (entries.map weight).sum)) := by
  obtain ⟨values, filtered, total⟩ := exists_finite entries
  rw [logTotal?, filtered, total]
  cases values with
  | nil => simp [greatest?]
  | cons first rest =>
      obtain ⟨top, isTop⟩ := exists_greatest first rest
      have positive : 0 < ((first :: rest).map Real.exp).sum := by
        apply List.sum_pos
        · simp [Real.exp_pos]
        · simp
      have shifted : (first :: rest).map (fun value => Real.exp (value - top)) =
          ((first :: rest).map Real.exp).map (· * (Real.exp top)⁻¹) := by
        simp only [List.map_map, Function.comp_def, Real.exp_sub, div_eq_mul_inv]
      have sum : (((first :: rest).map real).map fun entry => Scalar.exp (entry - real top)) =
          ((first :: rest).map fun value => Real.exp (value - top)).map real := by
        simp only [List.map_map, Function.comp_def, real_sub_real, exp_real]
      rw [isTop, if_neg positive.ne', Option.map_some, sum, sum_map_real, shifted,
        List.sum_map_mul_right, List.map_id', log_real (mul_pos positive (by positivity)),
        Real.log_mul positive.ne' (by positivity), Real.log_inv, Real.log_exp, real_add_real,
        neg_add_cancel_right]

/-- The exponential of the total is the sum of the weights. -/
theorem exp_logTotal (entries : List Exact) :
    Scalar.exp (logTotal entries) = real (entries.map weight).sum := by
  rw [logTotal, logTotal?_eq]
  split
  next none =>
    rw [none]
    rfl
  next some =>
    rw [Option.getD_some, exp_real, Real.exp_log (total_pos some)]

/-- Some weights as parts of their sum, if that is not zero. -/
noncomputable def shares? (weights : List ℝ) : Option (List Exact) :=
  if weights.sum = 0 then none else some (weights.map fun weight => real (weight / weights.sum))

theorem shares?_eq_none_iff {weights : List ℝ} : shares? weights = none ↔ weights.sum = 0 := by
  rw [shares?]
  split
  next none => simp [none]
  next some => simp [some]

/-- Normalisation divides every weight by their sum. -/
theorem normalize?_eq (entries : List Exact) : normalize? entries = shares? (entries.map weight) := by
  rw [normalize?, logTotal?_eq, shares?]
  split
  next => rfl
  next some =>
    rw [Option.map_some, List.map_map]
    congr 2
    funext entry
    rw [Function.comp_apply]
    cases entry with
    | real x =>
        rw [isFinite_real, if_pos rfl, real_sub_real, exp_real, Real.exp_sub,
          Real.exp_log (total_pos some), weight_real]
    | negInf | posInf | undefined =>
        rw [weight, zero_div]
        exact zero_eq

/-- A common factor of all weights does not show in their shares. -/
theorem shares?_map_mul {factor : ℝ} (nonzero : factor ≠ 0) (weights : List ℝ) :
    shares? (weights.map (· * factor)) = shares? weights := by
  have sum : (weights.map (· * factor)).sum = weights.sum * factor := by
    rw [List.sum_map_mul_right, List.map_id']
  simp only [shares?, sum, mul_eq_zero, nonzero, or_false, List.map_map, Function.comp_def,
    mul_div_mul_right _ _ nonzero]

/-- The likelihood is that of independent draws, each with one chance in the size of the set. -/
theorem weight_logLikelihood {size : Nat} (inhabited : 0 < size) (draws : Nat) (consistent : Bool) :
    (logLikelihood (α := Exact) size draws consistent).weight =
      if consistent then ((size : ℝ)⁻¹) ^ draws else 0 := by
  have notEmpty : ¬ (size : Int) ≤ 0 := by omega
  rw [logLikelihood]
  cases consistent with
  | false => rfl
  | true =>
      have positive : (0 : ℝ) < size := by exact_mod_cast inhabited
      simp only [Bool.not_true, decide_eq_false notEmpty, Bool.or_false, Bool.false_eq_true,
        if_false, if_true, ofInt_eq, ofNat_eq, Int.toNat_natCast, log_real positive, real_mul_real,
        weight_real]
      rw [Int.cast_neg, Int.cast_natCast, neg_mul, Real.exp_neg, Real.exp_nat_mul,
        Real.exp_log positive, inv_pow]

end LogWeights

end NumberConcepts
