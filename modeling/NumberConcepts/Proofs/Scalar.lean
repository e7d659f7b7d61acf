import Mathlib.Analysis.SpecialFunctions.Log.Basic
import NumberConcepts.Scalar
/-!
# Scalars without rounding

`Exact` has the real numbers beside the infinities and the undefined value, so
that everything written over a `Scalar` can be read without rounding, overflow or
underflow. Zero has no sign, and a quotient by zero is undefined.
-/

namespace NumberConcepts

/-- A scalar without rounding. -/
inductive Exact where
  | real (value : ℝ)
  | negInf
  | posInf
  | undefined

namespace Exact

/-- A number with the sign of the scalar; zero for zero and for the undefined value. -/
def direction : Exact → ℝ
  | real x => x
  | negInf => -1
  | posInf => 1
  | undefined => 0

/-- The infinity with the sign of a number; zero has none. -/
noncomputable def infinity (sign : ℝ) : Exact :=
  if 0 < sign then posInf else if sign < 0 then negInf else undefined

/-- The sum. Opposite infinities have none. -/
noncomputable def add : Exact → Exact → Exact
  | real x, real y => real (x + y)
  | real _, negInf | negInf, real _ | negInf, negInf => negInf
  | real _, posInf | posInf, real _ | posInf, posInf => posInf
  | _, _ => undefined

/-- The negation. -/
noncomputable def neg : Exact → Exact
  | real x => real (-x)
  | negInf => posInf
  | posInf => negInf
  | undefined => undefined

/-- The product. Zero and an infinity have none. -/
noncomputable def mul : Exact → Exact → Exact
  | real x, real y => real (x * y)
  | a, b => infinity (a.direction * b.direction)

/-- The quotient. It is zero below an infinity. -/
noncomputable def div : Exact → Exact → Exact
  | real x, real y => if y = 0 then undefined else real (x / y)
  | real _, negInf | real _, posInf => real 0
  | negInf, real y => infinity (-y)
  | posInf, real y => infinity y
  | _, _ => undefined

/-- The natural logarithm. -/
noncomputable def log : Exact → Exact
  | real x => if 0 < x then real (Real.log x) else if x = 0 then negInf else undefined
  | posInf => posInf
  | negInf | undefined => undefined

/-- The exponential function. -/
noncomputable def exp : Exact → Exact
  | real x => real (Real.exp x)
  | negInf => real 0
  | posInf => posInf
  | undefined => undefined

/-- The square root. -/
noncomputable def sqrt : Exact → Exact
  | real x => if 0 ≤ x then real (Real.sqrt x) else undefined
  | posInf => posInf
  | negInf | undefined => undefined

/-- The scalar is a real number. -/
def isFinite : Exact → Bool
  | real _ => true
  | _ => false

/-- Less than; nothing is less or greater than the undefined value. -/
noncomputable def lt : Exact → Exact → Bool
  | real x, real y => decide (x < y)
  | negInf, real _ | negInf, posInf | real _, posInf => true
  | _, _ => false

/-- Less than or equal; the undefined value is not even equal to itself. -/
noncomputable def le : Exact → Exact → Bool
  | real x, real y => decide (x ≤ y)
  | undefined, _ | _, undefined => false
  | negInf, _ | _, posInf => true
  | _, _ => false

noncomputable instance : Scalar Exact where
  add := add
  sub a b := add a (neg b)
  mul := mul
  div := div
  neg := neg
  ofNat n := real n
  negInf := negInf
  log := log
  exp := exp
  sqrt := sqrt
  isFinite := isFinite
  lt := lt
  le := le

section Reals

variable (x y : ℝ)

@[simp] theorem real_add_real : real x + real y = real (x + y) := rfl

@[simp] theorem real_sub_real : real x - real y = real (x - y) := by
  rw [sub_eq_add_neg]
  rfl

@[simp] theorem real_mul_real : real x * real y = real (x * y) := rfl

@[simp] theorem neg_real : -real x = real (-x) := rfl

@[simp] theorem lt_real : Scalar.lt (real x) (real y) = decide (x < y) := rfl

@[simp] theorem le_real : Scalar.le (real x) (real y) = decide (x ≤ y) := rfl

@[simp] theorem exp_real : Scalar.exp (real x) = real (Real.exp x) := rfl

@[simp] theorem isFinite_real : Scalar.isFinite (real x) = true := rfl

@[simp] theorem max_real : Scalar.max (real x) (real y) = real (max x y) := by
  rw [Scalar.max, lt_real]
  by_cases less : x < y
  · simp [less, max_eq_right less.le]
  · simp [less, max_eq_left (not_lt.1 less)]

@[simp] theorem min_real : Scalar.min (real x) (real y) = real (min x y) := by
  rw [Scalar.min, lt_real]
  by_cases less : y < x
  · simp [less, min_eq_right less.le]
  · simp [less, min_eq_left (not_lt.1 less)]

end Reals

theorem real_div_real {x y : ℝ} (nonzero : y ≠ 0) : real x / real y = real (x / y) :=
  if_neg nonzero

theorem real_div_zero (x : ℝ) : real x / real 0 = undefined := if_pos rfl

/-- A positive real number divides and multiplies every scalar back. -/
theorem real_mul_div_cancel {x : ℝ} (positive : 0 < x) (a : Exact) : real x * (a / real x) = a := by
  have upward : infinity x = posInf := if_pos positive
  have downward : infinity (-x) = negInf :=
    (if_neg (neg_nonpos.2 positive.le).not_gt).trans (if_pos (neg_lt_zero.2 positive))
  cases a with
  | real y => rw [real_div_real positive.ne', real_mul_real, mul_div_cancel₀ y positive.ne']
  | negInf =>
      change real x * infinity (-x) = negInf
      rw [downward]
      change infinity (x * -1) = negInf
      rw [mul_neg_one, downward]
  | posInf =>
      change real x * infinity x = posInf
      rw [upward]
      change infinity (x * 1) = posInf
      rw [mul_one, upward]
  | undefined =>
      change infinity (x * 0) = undefined
      simp [infinity]

theorem log_real {x : ℝ} (positive : 0 < x) : Scalar.log (real x) = real (Real.log x) :=
  if_pos positive

@[simp] theorem ofNat_eq (n : Nat) : (Scalar.ofNat n : Exact) = real n := rfl

@[simp] theorem zero_eq : (Scalar.zero : Exact) = real 0 := by
  rw [Scalar.zero, ofNat_eq, Nat.cast_zero]

@[simp] theorem one_eq : (Scalar.one : Exact) = real 1 := by
  rw [Scalar.one, ofNat_eq, Nat.cast_one]

@[simp] theorem ofInt_eq (n : Int) : (Scalar.ofInt n : Exact) = real n := by
  cases n with
  | ofNat m => rfl
  | negSucc m => simp [Scalar.ofInt]

/-- A scalar is finite exactly when it is a real number. -/
theorem isFinite_iff {a : Exact} : Scalar.isFinite a = true ↔ ∃ x, a = real x := by
  cases a with
  | real x => exact ⟨fun _ => ⟨x, rfl⟩, fun _ => rfl⟩
  | negInf | posInf | undefined =>
      constructor
      · intro impossible
        cases impossible
      · rintro ⟨x, impossible⟩
        cases impossible

/-- A scalar that is at least another one is not below it. -/
theorem lt_eq_false_of_le {a b : Exact} (notAbove : Scalar.le a b = true) :
    Scalar.lt b a = false := by
  change lt b a = false
  change le a b = true at notAbove
  cases a <;> cases b <;> simp_all [lt, le]

/-- Real numbers are added as such. -/
theorem sum_map_real (values : List ℝ) : Scalar.sum (values.map real) = real values.sum := by
  have fromStart : ∀ start, (values.map real).foldl (· + ·) (real start) =
      real (start + values.sum) := by
    induction values with
    | nil => simp
    | cons first rest inductionHypothesis =>
        intro start
        rw [List.map_cons, List.foldl_cons, real_add_real, inductionHypothesis, List.sum_cons,
          add_assoc]
  rw [Scalar.sum, zero_eq, fromStart, zero_add]

@[simp] theorem add_undefined (a : Exact) : a + undefined = undefined := by
  cases a <;> rfl

@[simp] theorem undefined_add (a : Exact) : undefined + a = undefined := by
  cases a <;> rfl

/-- A sum with an undefined term is undefined. -/
theorem sum_eq_undefined {values : List Exact} (listed : undefined ∈ values) :
    Scalar.sum values = undefined := by
  have stays : ∀ rest : List Exact, rest.foldl (· + ·) undefined = undefined := by
    intro rest
    induction rest with
    | nil => rfl
    | cons first others inductionHypothesis =>
        rw [List.foldl_cons, undefined_add, inductionHypothesis]
  obtain ⟨before, after, rfl⟩ := List.append_of_mem listed
  rw [Scalar.sum, List.foldl_append, List.foldl_cons, add_undefined, stays]

/-- Scalars are added in any order, also where they are not real numbers. -/
theorem add_swap (a b c : Exact) : a + b + c = a + c + b := by
  change add (add a b) c = add (add a c) b
  cases a <;> cases b <;> cases c <;> simp [add, add_right_comm]

/-- The order of scalars does not show in their sum. -/
theorem sum_perm {first second : List Exact} (same : first.Perm second) :
    Scalar.sum first = Scalar.sum second :=
  have : RightCommutative fun a b : Exact => a + b := ⟨add_swap⟩
  same.foldl_eq _

/-! ### Scalars that are not below zero -/

/-- The scalar is not below zero: it is a number that is not negative, or positive infinity, or
undefined. -/
def NotBelow : Exact → Prop
  | real x => 0 ≤ x
  | posInf | undefined => True
  | negInf => False

theorem notBelow_iff {a : Exact} : a.NotBelow ↔ Scalar.lt a Scalar.zero = false := by
  rw [zero_eq]
  cases a with
  | real x => rw [lt_real, decide_eq_false_iff_not, not_lt]; rfl
  | posInf | undefined => exact ⟨fun _ => rfl, fun _ => trivial⟩
  | negInf => exact ⟨nofun, nofun⟩

/-- What is not zero or less is not below zero. -/
theorem notBelow_of_not_le {a : Exact} (positive : Scalar.le a Scalar.zero = false) :
    a.NotBelow := by
  rw [zero_eq] at positive
  cases a with
  | real x =>
      rw [le_real, decide_eq_false_iff_not] at positive
      exact (not_le.1 positive).le
  | posInf | undefined => trivial
  | negInf => cases positive

theorem NotBelow.add {a b : Exact} (first : a.NotBelow) (second : b.NotBelow) :
    (a + b).NotBelow := by
  cases a with
  | real x =>
      cases b with
      | real y => exact add_nonneg first second
      | posInf | undefined => trivial
      | negInf => cases second
  | posInf | undefined => cases b <;> trivial
  | negInf => cases first

/-- A scalar that is not below zero stays so after a division by one. -/
theorem NotBelow.div {a b : Exact} (first : a.NotBelow) (second : b.NotBelow) :
    (a / b).NotBelow := by
  cases a with
  | negInf => cases first
  | undefined => cases b <;> trivial
  | real x =>
      cases b with
      | negInf => cases second
      | posInf => exact le_refl (0 : ℝ)
      | undefined => trivial
      | real y =>
          by_cases zero : y = 0
          · rw [zero, real_div_zero]
            trivial
          · rw [real_div_real zero]
            exact div_nonneg first second
  | posInf =>
      cases b with
      | negInf => cases second
      | posInf | undefined => trivial
      | real y =>
          change (infinity y).NotBelow
          rw [infinity, if_neg (not_lt.2 second : ¬ y < 0)]
          split <;> trivial

theorem NotBelow.le_zero_iff {a : Exact} (notBelow : a.NotBelow) :
    Scalar.le a Scalar.zero = true ↔ a = real 0 := by
  rw [zero_eq]
  cases a with
  | real x =>
      rw [le_real, decide_eq_true_iff, real.injEq]
      exact ⟨fun atMost => le_antisymm atMost notBelow, le_of_eq⟩
  | posInf | undefined => exact ⟨nofun, nofun⟩
  | negInf => cases notBelow

end Exact

end NumberConcepts
