import NumberConcepts.Number.Checked
/-!
# Multiples and common divisors

What the stepped list of multiples and the folded greatest common divisor have
as members and divisors.
-/

namespace NumberConcepts.Number

/-- A positive step lists exactly its positive multiples within the limit. -/
theorem mem_multiplesUpTo {step limit x : Int} (positive : 0 < step) :
    x ∈ multiplesUpTo step limit ↔ 0 < x ∧ x ≤ limit ∧ step ∣ x := by
  simp only [multiplesUpTo, if_pos positive, List.mem_map, List.mem_range]
  constructor
  · rintro ⟨index, bound, rfl⟩
    have factorBound : ((index + 1 : Nat) : Int) ≤ limit / step := by omega
    refine ⟨Int.mul_pos positive (by omega), ?_, Int.dvd_mul_right _ _⟩
    rw [Int.mul_comm]
    exact (Int.le_ediv_iff_mul_le positive).1 factorBound
  · rintro ⟨above, within, factor, rfl⟩
    have factorPositive : 0 < factor := by
      apply Int.lt_of_mul_lt_mul_left (a := step) _ (Int.le_of_lt positive)
      simpa using above
    have factorBound : factor ≤ limit / step := by
      rw [Int.mul_comm] at within
      exact (Int.le_ediv_iff_mul_le positive).2 within
    refine ⟨(factor - 1).toNat, by omega, ?_⟩
    have restored : (((factor - 1).toNat + 1 : Nat) : Int) = factor := by omega
    rw [restored]

/-- The folded divisor is divided by what divides the start and every number. -/
private theorem dvd_foldl_gcd {divisor : Nat} (numbers : List Int) (start : Nat) :
    divisor ∣ numbers.foldl (fun common n => Nat.gcd common n.natAbs) start ↔
      divisor ∣ start ∧ ∀ n ∈ numbers, divisor ∣ n.natAbs := by
  induction numbers generalizing start with
  | nil => simp
  | cons first rest inductionHypothesis =>
      rw [List.foldl_cons, inductionHypothesis, Nat.dvd_gcd_iff, List.forall_mem_cons, and_assoc]

/-- A number divides the greatest common divisor exactly when it divides every number. -/
theorem dvd_commonDivisor_iff {divisor : Nat} {numbers : List Int} :
    divisor ∣ commonDivisor numbers ↔ ∀ n ∈ numbers, divisor ∣ n.natAbs := by
  rw [commonDivisor, dvd_foldl_gcd]
  simp

/-- Numbers of which one is not zero have a common divisor other than zero. -/
theorem commonDivisor_ne_zero {numbers : List Int} {n : Int} (member : n ∈ numbers)
    (nonzero : n ≠ 0) : commonDivisor numbers ≠ 0 := by
  intro zero
  have divides : 0 ∣ n.natAbs := dvd_commonDivisor_iff.1 (zero ▸ Nat.dvd_refl _) n member
  omega

end NumberConcepts.Number
