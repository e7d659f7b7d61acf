import Mathlib.Algebra.Order.Ring.Int
import Mathlib.Tactic.Ring
import NumberConcepts.Number.Power
/-!
# Powers and roots

Multiplying upward and dividing downward are told as runs of a loop, `MultipliesUp`
and `DividesDown`: both come to an end, and what a run meets or leaves is a matter
of powers. So `mem_powersUpTo` describes the list of powers, `isPowerOf_iff` the
test for one, and `powers_agree` says that they meet the same numbers. `root_pow`
recovers the base of a power from its exponent, and with that squares are
recognised.
-/

namespace NumberConcepts.Number

/-! ### Dividing downward -/

/-- A run of the loop that divides a base out of a number as long as it can: it starts at one number
and ends at another. -/
inductive DividesDown (base : Int) : Int → Int → Prop where
  | stop {n : Int} : ¬ (1 < n ∧ n % base = 0) → DividesDown base n n
  | next {n last : Int} : 1 < n → n % base = 0 → DividesDown base (n / base) last →
      DividesDown base n last

/-- A run ends at one exactly for the powers of the base. -/
theorem DividesDown.eq_one_iff {base n last : Int} (run : DividesDown base n last) (large : 2 ≤ base)
    (positive : 1 ≤ n) : last = 1 ↔ ∃ exponent : Nat, base ^ exponent = n := by
  induction run with
  | @stop n stops =>
      constructor
      · rintro rfl
        exact ⟨0, pow_zero base⟩
      · rintro ⟨exponent, power⟩
        cases exponent with
        | zero => rw [← power, pow_zero]
        | succ exponent =>
            -- A positive exponent leaves a factor that the loop would have divided out.
            have divides : n % base = 0 := by
              rw [← power, pow_succ]
              exact Int.mul_emod_left _ _
            omega
  | @next n last _ noRemainder _ inductionHypothesis =>
      have divides : base ∣ n := Int.dvd_of_emod_eq_zero noRemainder
      have product : base * (n / base) = n := Int.mul_ediv_cancel' divides
      have quotientPositive : 1 ≤ n / base :=
        Int.ediv_pos_of_pos_of_dvd (by omega) (by omega) divides
      rw [inductionHypothesis quotientPositive]
      constructor
      · rintro ⟨exponent, power⟩
        exact ⟨exponent + 1, by rw [pow_succ', power, product]⟩
      · rintro ⟨exponent, power⟩
        cases exponent with
        | zero => rw [pow_zero] at power; omega
        | succ exponent =>
            refine ⟨exponent, ?_⟩
            rw [← power, pow_succ, Int.mul_ediv_cancel _ (by omega)]

/-- Dividing natural numbers is such a run. -/
private theorem exists_dividesDown_natCast {n base : Nat} (large : 2 ≤ base) :
    ∃ last, DividesDown base n last ∧ (isNatPowerOf n base = true ↔ last = 1) := by
  fun_induction isNatPowerOf n base with
  | case1 n divisible inductionHypothesis =>
      obtain ⟨last, run, tells⟩ := inductionHypothesis
      rw [Int.natCast_ediv] at run
      exact ⟨last, .next (by omega) (by omega) run, tells⟩
  | case2 n indivisible =>
      refine ⟨n, .stop (by omega), ?_⟩
      rw [beq_iff_eq]
      omega

/-- From every number the loop comes to an end, and what is left tells a power. -/
theorem exists_dividesDown {base : Int} (large : 2 ≤ base) (n : Int) :
    ∃ last, DividesDown base n last ∧ (isPowerOf n base = true ↔ last = 1) := by
  rw [isPowerOf]
  split
  next aboveOne =>
    obtain ⟨natural, rfl⟩ := Int.eq_ofNat_of_zero_le (by omega : 0 ≤ n)
    obtain ⟨naturalBase, rfl⟩ := Int.eq_ofNat_of_zero_le (by omega : 0 ≤ base)
    exact exists_dividesDown_natCast (by omega)
  next notAboveOne =>
    refine ⟨n, .stop fun continues => notAboveOne continues.1, ?_⟩
    rw [beq_iff_eq]

/-- A positive integer is recognised as a power exactly when it is one. -/
theorem isPowerOf_iff_pow {base n : Int} (large : 2 ≤ base) (positive : 1 ≤ n) :
    isPowerOf n base = true ↔ ∃ exponent : Nat, base ^ exponent = n := by
  obtain ⟨last, run, tells⟩ := exists_dividesDown large n
  rw [tells, run.eq_one_iff large positive]

/-- A positive number is recognised as a power exactly when it is one. -/
theorem isPowerOf_iff {n base : Nat} (positive : 1 ≤ n) (large : 2 ≤ base) :
    isPowerOf n base = true ↔ ∃ exponent, base ^ exponent = n := by
  rw [isPowerOf_iff_pow (by omega) (by omega)]
  norm_cast

/-! ### Multiplying upward -/

/-- A run of the loop that multiplies a value by a base until it exceeds a limit, with the values
that it meets before. -/
inductive MultipliesUp (base limit : Int) : Int → List Int → Prop where
  | stop {value : Int} : limit < value → MultipliesUp base limit value []
  | next {value : Int} {later : List Int} : value ≤ limit →
      MultipliesUp base limit (value * base) later → MultipliesUp base limit value (value :: later)

/-- A run meets its start value times powers, as long as they are within the limit. -/
theorem MultipliesUp.mem_iff {base limit value : Int} {met : List Int}
    (run : MultipliesUp base limit value met) (large : 2 ≤ base) (positive : 0 < value) {x : Int} :
    x ∈ met ↔ x ≤ limit ∧ ∃ exponent : Nat, value * base ^ exponent = x := by
  induction run with
  | @stop value beyond =>
      simp only [List.not_mem_nil, false_iff, not_and, not_exists]
      rintro upper exponent rfl
      have factor : 1 ≤ base ^ exponent := Int.pow_pos (by omega)
      have grown : value * 1 ≤ value * base ^ exponent :=
        Int.mul_le_mul_of_nonneg_left factor (by omega)
      omega
  | @next value later within _ inductionHypothesis =>
      rw [List.mem_cons, inductionHypothesis (Int.mul_pos positive (by omega))]
      constructor
      · rintro (rfl | ⟨upper, exponent, power⟩)
        · exact ⟨within, 0, by simp⟩
        · exact ⟨upper, exponent + 1, by rw [← power, pow_succ', mul_assoc]⟩
      · rintro ⟨upper, exponent, power⟩
        cases exponent with
        | zero => exact .inl (by simpa using power.symm)
        | succ exponent => exact .inr ⟨upper, exponent, by rw [← power, pow_succ', mul_assoc]⟩

/-- Enough steps for the value to exceed the limit are a run. -/
private theorem multipliesUp_powersFrom {base limit : Int} (steps : Nat) {value : Int}
    (enough : limit < value * base ^ steps) :
    MultipliesUp base limit value (powersFrom base limit steps value) := by
  induction steps generalizing value with
  | zero => exact .stop (by simpa using enough)
  | succ steps inductionHypothesis =>
      rw [powersFrom]
      split
      next within =>
        rw [pow_succ', ← mul_assoc] at enough
        exact .next within (inductionHypothesis enough)
      next beyond => exact .stop (by omega)

/-- From one the loop comes to an end, and the values that it meets are listed. -/
theorem multipliesUp_powersUpTo {base : Int} (large : 2 ≤ base) (limit : Int) :
    MultipliesUp base limit 1 (powersUpTo base limit) := by
  apply multipliesUp_powersFrom
  -- Powers of two are the smallest powers, so the logarithm bounds the number of steps.
  have smallest : (2 : Int) ^ (2 * limit.toNat.log2 + 3) ≤ base ^ (2 * limit.toNat.log2 + 3) :=
    pow_le_pow_left₀ (by omega) large _
  have beyond : limit.toNat < 2 ^ (2 * limit.toNat.log2 + 3) :=
    Nat.lt_of_lt_of_le Nat.lt_log2_self (Nat.pow_le_pow_right (by decide) (by omega))
  have cast : ((2 ^ (2 * limit.toNat.log2 + 3) : Nat) : Int) = 2 ^ (2 * limit.toNat.log2 + 3) := by
    push_cast
    rfl
  omega

/-- Multiplying upward lists exactly the powers within the limit. -/
theorem mem_powersUpTo {base limit x : Int} (large : 2 ≤ base) :
    x ∈ powersUpTo base limit ↔ x ≤ limit ∧ ∃ exponent : Nat, base ^ exponent = x := by
  rw [(multipliesUp_powersUpTo large limit).mem_iff large Int.one_pos]
  simp only [Int.one_mul]

/-! ### Both loops -/

/-- The list of powers up to a limit and the test for powers agree on a number. -/
structure PowersAgree (base limit n : Int) : Prop where
  generated : MultipliesUp base limit 1 (powersUpTo base limit)
  /-- Dividing downward comes to an end, at one exactly when the number is recognised. -/
  divided : ∃ last, DividesDown base n last ∧ (isPowerOf n base = true ↔ last = 1)
  recognised : n ∈ powersUpTo base limit ↔ (1 ≤ n ∧ n ≤ limit) ∧ isPowerOf n base = true
  listed : n ∈ powersUpTo base limit ↔ n ≤ limit ∧ ∃ exponent : Nat, n = base ^ exponent

/-- Above base one, generating powers and recognising them agree, for every limit and number. -/
theorem powers_agree {base : Int} (large : 2 ≤ base) (limit n : Int) :
    PowersAgree base limit n where
  generated := multipliesUp_powersUpTo large limit
  divided := exists_dividesDown large n
  recognised := by
    rw [mem_powersUpTo large]
    constructor
    · rintro ⟨upper, exponent, rfl⟩
      have positive : 1 ≤ base ^ exponent := Int.pow_pos (by omega)
      exact ⟨⟨positive, upper⟩, (isPowerOf_iff_pow large positive).2 ⟨exponent, rfl⟩⟩
    · rintro ⟨⟨positive, upper⟩, isPower⟩
      exact ⟨upper, (isPowerOf_iff_pow large positive).1 isPower⟩
  listed := by
    simp only [mem_powersUpTo large, eq_comm]

/-- They agree on 81 as a power of 3 at the limit itself; dividing downward ends at one. -/
theorem powers_agree_on_eighty_one : PowersAgree 3 81 81 ∧ (81 : Int) ∈ powersUpTo 3 81 := by
  have agree : PowersAgree 3 81 81 := powers_agree (by decide) 81 81
  exact ⟨agree, agree.listed.2 ⟨by decide, 4, by decide⟩⟩

/-! ### Roots -/

/-- The integer root is the greatest number whose power does not exceed the argument. -/
theorem root_spec {degree : Nat} (positive : 0 < degree) (n : Nat) :
    root degree n ^ degree ≤ n ∧ n < (root degree n + 1) ^ degree := by
  induction n using Nat.strongRecOn with
  | ind n inductionHypothesis =>
      rw [root]
      split
      next shrinks =>
        have scale : 0 < 2 ^ degree := Nat.two_pow_pos degree
        obtain ⟨lower, upper⟩ := inductionHypothesis (n / Nat.pow 2 degree)
          (Nat.div_lt_self shrinks.2 (Nat.one_lt_two_pow (by omega)))
        rw [Nat.pow_eq] at lower upper ⊢
        generalize root degree (n / 2 ^ degree) = half at lower upper ⊢
        have doubledLower : (2 * half) ^ degree ≤ n := by
          rw [Nat.mul_pow, Nat.mul_comm]
          exact (Nat.le_div_iff_mul_le scale).1 lower
        have doubledUpper : n < (2 * half + 1 + 1) ^ degree := by
          have twice : 2 * half + 1 + 1 = 2 * (half + 1) := by omega
          rw [twice, Nat.mul_pow, Nat.mul_comm]
          exact (Nat.div_lt_iff_lt_mul scale).1 upper
        simp only [Nat.pow_eq]
        split
        next odd => exact ⟨odd, doubledUpper⟩
        next even => exact ⟨doubledLower, Nat.lt_of_not_le even⟩
      next stops =>
        have zero : n = 0 := by omega
        subst zero
        rw [Nat.zero_pow positive]
        exact ⟨Nat.le_refl 0, Nat.pow_pos (by omega)⟩

/-- The root of a power is its base. -/
theorem root_pow {degree : Nat} (positive : 0 < degree) (base : Nat) :
    root degree (base ^ degree) = base := by
  obtain ⟨lower, upper⟩ := root_spec positive (base ^ degree)
  have notAbove : root degree (base ^ degree) ≤ base :=
    (Nat.pow_le_pow_iff_left (by omega)).1 lower
  have notBelow : base < root degree (base ^ degree) + 1 :=
    (Nat.pow_lt_pow_iff_left (by omega)).1 upper
  omega

/-- A number is recognised as a square exactly when it is the product of a number with itself. -/
theorem isSquare_iff {n : Nat} : isSquare n = true ↔ ∃ side, side * side = n := by
  rw [isSquare, beq_iff_eq]
  constructor
  · intro square
    exact ⟨root 2 n, square⟩
  · rintro ⟨side, rfl⟩
    have isRoot : root 2 (side * side) = side := by
      rw [← Nat.pow_two]
      exact root_pow (by decide) side
    simp only [isRoot]

end NumberConcepts.Number
