import Mathlib.Data.Nat.Prime.Basic
import NumberConcepts.Number.Checked
/-!
# Trial division

An odd number is divided by odd numbers only, and by none beyond its root. That is
enough: `isPrime_natCast` says that the primes pass and no other number does, and
`isPrime_iff_no_divisor` says what this means for any integer, also a negative one.
-/

namespace NumberConcepts.Number

/-- The divisors tried are the odd numbers from the first one up to the root. -/
theorem hasNoDivisorFrom_iff {n first : Nat} (odd : first % 2 = 1) :
    hasNoDivisorFrom n first = true ↔
      ∀ divisor, divisor % 2 = 1 → first ≤ divisor → divisor * divisor ≤ n → ¬ divisor ∣ n := by
  fun_induction hasNoDivisorFrom n first with
  | case1 first withinRoot inductionHypothesis =>
      have nextOdd : (first + 2) % 2 = 1 := by omega
      rw [Bool.and_eq_true, bne_iff_ne, ne_eq, ← Nat.dvd_iff_mod_eq_zero,
        inductionHypothesis nextOdd]
      constructor
      · rintro ⟨indivisible, later⟩ divisor isOdd atLeast bounded
        rcases Nat.eq_or_lt_of_le atLeast with rfl | above
        · exact indivisible
        · exact later divisor isOdd (by omega) bounded
      · intro none
        refine ⟨none first odd (Nat.le_refl first) withinRoot, ?_⟩
        intro divisor isOdd atLeast bounded
        exact none divisor isOdd (by omega) bounded
  | case2 first beyondRoot =>
      simp only [true_iff]
      intro divisor _ atLeast bounded
      have grown : first * first ≤ divisor * divisor := Nat.mul_le_mul atLeast atLeast
      exact absurd (Nat.le_trans grown bounded) beyondRoot

/-- Numbers without a divisor from two up to the root are prime, so what is tried is enough. -/
private theorem prime_of_tried {n : Nat} (large : 2 ≤ n)
    (tried : n < 4 ∨ n % 2 ≠ 0 ∧ hasNoDivisorFrom n 3 = true) : n.Prime := by
  rw [Nat.prime_def_le_sqrt]
  refine ⟨large, fun divisor atLeastTwo withinRoot divides => ?_⟩
  have bounded : divisor * divisor ≤ n := Nat.le_sqrt.1 withinRoot
  rcases tried with small | ⟨odd, none⟩
  · have four : 2 * 2 ≤ divisor * divisor := Nat.mul_le_mul atLeastTwo atLeastTwo
    omega
  · have oddDivisor : divisor % 2 = 1 := by
      by_contra even
      have two : 2 ∣ n := (Nat.dvd_of_mod_eq_zero (by omega)).trans divides
      omega
    exact (hasNoDivisorFrom_iff rfl).1 none divisor oddDivisor (by omega) bounded divides

/-- A prime is small, or it is odd and nothing that is tried divides it. -/
private theorem tried_of_prime {n : Nat} (prime : n.Prime) :
    n < 4 ∨ n % 2 ≠ 0 ∧ hasNoDivisorFrom n 3 = true := by
  rcases Nat.lt_or_ge n 4 with small | large
  · exact .inl small
  right
  constructor
  · rcases prime.eq_two_or_odd with two | odd <;> omega
  · rw [hasNoDivisorFrom_iff rfl]
    intro divisor _ atLeastThree bounded divides
    rcases prime.eq_one_or_self_of_dvd divisor divides with rfl | rfl
    · omega
    · have grown : divisor * 3 ≤ divisor * divisor := Nat.mul_le_mul_left divisor atLeastThree
      omega

/-- The primes pass trial division, and no other number does. -/
theorem isPrime_natCast {n : Nat} : isPrime n = true ↔ n.Prime := by
  have settled : isPrime n = true ↔ 2 ≤ n ∧ (n < 4 ∨ n % 2 ≠ 0 ∧ hasNoDivisorFrom n 3 = true) := by
    rw [isPrime, Int.toNat_natCast, Bool.and_eq_true, Bool.or_eq_true, Bool.and_eq_true,
      decide_eq_true_iff, decide_eq_true_iff, bne_iff_ne]
    norm_cast
  rw [settled]
  constructor
  · rintro ⟨large, tried⟩
    exact prime_of_tried large tried
  · intro prime
    exact ⟨prime.two_le, tried_of_prime prime⟩

/-- Of all integers those pass trial division that are at least two and have no divisor between one
and themselves. -/
theorem isPrime_iff_no_divisor (n : Int) :
    isPrime n = true ↔ 2 ≤ n ∧ ¬ ∃ divisor, 1 < divisor ∧ divisor < n ∧ divisor ∣ n := by
  by_cases large : 2 ≤ n
  · obtain ⟨natural, rfl⟩ := Int.eq_ofNat_of_zero_le (by omega : 0 ≤ n)
    rw [isPrime_natCast, Nat.prime_def_lt', not_exists]
    constructor
    · rintro ⟨_, indivisible⟩
      refine ⟨large, fun divisor ⟨above, below, divides⟩ => ?_⟩
      obtain ⟨factor, rfl⟩ := Int.eq_ofNat_of_zero_le (by omega : 0 ≤ divisor)
      exact indivisible factor (by omega) (by omega) (Int.natCast_dvd_natCast.1 divides)
    · rintro ⟨_, indivisible⟩
      refine ⟨by omega, fun factor above below divides => ?_⟩
      exact indivisible factor ⟨by omega, by omega, Int.natCast_dvd_natCast.2 divides⟩
  · -- Numbers below two are not divided at all.
    have rejected : isPrime n = false := by
      rw [isPrime, decide_eq_false large, Bool.false_and]
    simp only [rejected, Bool.false_eq_true, large, false_and]

/-- The square of a prime is not taken for a prime, although its root is the last number tried. -/
example : isPrime 49 = false := by decide +kernel

end NumberConcepts.Number
