import NumberConcepts.Proofs.Scalar
/-!
# Scalars with rounding

`Scalar.Rounding` collects what is left of the laws of arithmetic where sums, products
and quotients are rounded, overflow and underflow: signs, which results are undefined,
and that no part is more than the whole. Scalars without rounding keep these laws too,
so that what is proved from them holds of both.
-/

namespace NumberConcepts

namespace Scalar

variable {α : Type} [Scalar α]

/-- The scalar is not even equal to itself. -/
def IsUndefined (x : α) : Prop := le x x = false

/-- What the logarithm of a weight may be: a finite number, or minus infinity. -/
def IsLogarithm (x : α) : Prop := isFinite x = true ∨ le x negInf = true

/-- The scalar is zero, greater than zero or undefined. -/
def NotBelow (x : α) : Prop := lt x zero = false

/-- Both scalars are defined, and not both are infinite. -/
def HasQuotient (x y : α) : Prop :=
  ¬IsUndefined x ∧ ¬IsUndefined y ∧ (isFinite x = true ∨ isFinite y = true)

/-- The laws of arithmetic that rounding keeps. -/
class Rounding (α : Type) [Scalar α] : Prop where
  le_trans : ∀ {x y z : α}, NotBelow x → NotBelow y → NotBelow z → le x y = true →
    le y z = true → le x z = true
  zero_le_zero : le (zero : α) zero = true
  isLogarithm_negInf : IsLogarithm (negInf : α)
  isLogarithm_of_le_zero : ∀ {x : α}, le x zero = true → IsLogarithm x
  not_isLogarithm : ∀ {x : α}, IsUndefined x → ¬IsLogarithm x
  notBelow_of_le : ∀ {x : α}, le zero x = true → NotBelow x
  notBelow_of_not_le : ∀ {x : α}, le x zero = false → NotBelow x
  beq_zero : ∀ {x : α}, NotBelow x → le x zero = true → beq x zero = true
  notBelow_ofNat : ∀ n : Nat, NotBelow (ofNat n : α)
  notBelow_add : ∀ {x y : α}, NotBelow x → NotBelow y → NotBelow (x + y)
  notBelow_mul : ∀ {x y : α}, NotBelow x → NotBelow y → NotBelow (x * y)
  notBelow_square : ∀ x : α, NotBelow (x * x)
  notBelow_div : ∀ {x y : α}, NotBelow x → le y zero = false → NotBelow (x / y)
  notBelow_div_ofNat : ∀ {x : α} (n : Nat), NotBelow x → NotBelow (x / ofNat n)
  add_le_zero : ∀ {x y : α}, le x zero = true → le y zero = true → le (x + y) zero = true
  isUndefined_add : ∀ {x y : α}, IsUndefined x ∨ IsUndefined y → IsUndefined (x + y)
  le_add : ∀ {x y : α}, NotBelow x → NotBelow y → isFinite (x + y) = true →
    isFinite x = true ∧ le x (x + y) = true ∧ le y (x + y) = true
  div_le_one : ∀ {x y : α}, NotBelow x → le x y = true → isFinite y = true →
    le y zero = false → le (x / y) one = true
  /-- Nothing has a share above zero of a whole that is infinite or undefined. -/
  div_endless : ∀ {x y : α}, NotBelow x → le y zero = false → isFinite y = false →
    le (x / y) zero = true ∨ IsUndefined (x / y)
  neg_div_le_zero : ∀ {x y : α}, NotBelow x → le y zero = false → HasQuotient x y →
    le (-x / y) zero = true
  isUndefined_neg_div : ∀ {x y : α}, NotBelow x → le y zero = false → ¬HasQuotient x y →
    IsUndefined (-x / y)

/-- What is used of the logarithm: that of a positive scalar up to one is not above zero, and that of
the undefined scalar is undefined. The logarithm of doubles has no definition from which this could
be proved, so that statements about doubles assume it. -/
structure Logarithmic (α : Type) [Scalar α] : Prop where
  log_le_zero : ∀ {x : α}, le x zero = false → le x one = true → le (log x) zero = true
  isUndefined_log : ∀ {x : α}, IsUndefined x → IsUndefined (log x)

section Sums

variable [Rounding α] {values : List α}

theorem notBelow_sum (notBelow : ∀ value ∈ values, NotBelow value) : NotBelow (sum values) :=
  List.foldlRecOn values (· + ·) (Rounding.notBelow_of_le Rounding.zero_le_zero)
    fun _ soFar value listed => Rounding.notBelow_add soFar (notBelow value listed)

/-- Each term of a finite sum is at most the sum. -/
theorem le_sum (notBelow : ∀ value ∈ values, NotBelow value)
    (finite : isFinite (sum values) = true) : ∀ value ∈ values, le value (sum values) = true := by
  -- The last term was added last, so that the sum of the others is finite too.
  induction values using List.reverseRecOn with
  | nil => exact List.forall_mem_nil _
  | append_singleton others last inductionHypothesis =>
      rw [List.forall_mem_append, List.forall_mem_singleton] at notBelow
      obtain ⟨before, ofLast⟩ := notBelow
      rw [sum, List.foldl_append] at finite ⊢
      have soFar := notBelow_sum before
      have grows := Rounding.le_add soFar ofLast finite
      rw [List.forall_mem_append, List.forall_mem_singleton]
      refine ⟨fun value listed => ?_, grows.2.2⟩
      exact Rounding.le_trans (before value listed) soFar (Rounding.notBelow_add soFar ofLast)
        (inductionHypothesis before grows.1 value listed) grows.2.1

end Sums

/-- What is not above zero under a condition and undefined without it is a logarithm under it. -/
theorem isLogarithm_iff_of_cases [Rounding α] {x : α} {holds : Prop}
    (cases : holds ∧ le x zero = true ∨ ¬holds ∧ IsUndefined x) : IsLogarithm x ↔ holds := by
  obtain ⟨given, atMost⟩ | ⟨lacks, isUndefined⟩ := cases
  · exact iff_of_true (Rounding.isLogarithm_of_le_zero atMost) given
  · exact iff_of_false (Rounding.not_isLogarithm isUndefined) lacks

/-- So is the sum of two such scalars under both conditions. -/
theorem isLogarithm_add_iff [Rounding α] {x y : α} {first second : Prop}
    (ofFirst : first ∧ le x zero = true ∨ ¬first ∧ IsUndefined x)
    (ofSecond : second ∧ le y zero = true ∨ ¬second ∧ IsUndefined y) :
    IsLogarithm (x + y) ↔ first ∧ second := by
  apply isLogarithm_iff_of_cases
  obtain ⟨given, atMost⟩ | ⟨lacks, isUndefined⟩ := ofFirst
  · obtain ⟨given', atMost'⟩ | ⟨lacks, isUndefined⟩ := ofSecond
    · exact .inl ⟨⟨given, given'⟩, Rounding.add_le_zero atMost atMost'⟩
    · exact .inr ⟨fun both => lacks both.2, Rounding.isUndefined_add (.inr isUndefined)⟩
  · exact .inr ⟨fun both => lacks both.1, Rounding.isUndefined_add (.inl isUndefined)⟩

end Scalar

/-! ### Scalars without rounding -/

namespace Exact

theorem isUndefined_iff {a : Exact} : Scalar.IsUndefined a ↔ a = undefined := by
  cases a with
  | real x => simp [Scalar.IsUndefined]
  | negInf | posInf => exact ⟨nofun, nofun⟩
  | undefined => exact ⟨fun _ => rfl, fun _ => rfl⟩

theorem isLogarithm_iff {a : Exact} :
    Scalar.IsLogarithm a ↔ (∃ x, a = real x) ∨ a = negInf := by
  cases a with
  | real x => exact ⟨fun _ => .inl ⟨x, rfl⟩, fun _ => .inl rfl⟩
  | negInf => exact ⟨fun _ => .inr rfl, fun _ => .inr rfl⟩
  | posInf | undefined => simp [Scalar.IsLogarithm, Scalar.isFinite, isFinite, Scalar.le, le]

theorem le_zero_iff {a : Exact} : Scalar.le a Scalar.zero = true ↔
    (∃ x, x ≤ 0 ∧ a = real x) ∨ a = negInf := by
  rw [zero_eq]
  cases a with
  | real x => simp
  | negInf => exact ⟨fun _ => .inr rfl, fun _ => rfl⟩
  | posInf | undefined => exact ⟨nofun, by simp⟩

/-- What is not zero or less is a positive number, infinite or undefined. -/
theorem not_le_zero_iff {a : Exact} : Scalar.le a Scalar.zero = false ↔
    (∃ x, 0 < x ∧ a = real x) ∨ a = posInf ∨ a = undefined := by
  rw [zero_eq]
  cases a with
  | real x => simp
  | negInf => exact ⟨nofun, by simp⟩
  | posInf | undefined => exact ⟨fun _ => by simp, fun _ => rfl⟩

theorem notBelow_infinity {sign : ℝ} (nonnegative : 0 ≤ sign) : (infinity sign).NotBelow := by
  rw [infinity, if_neg nonnegative.not_gt]
  split <;> trivial

theorem NotBelow.mul {a b : Exact} (first : a.NotBelow) (second : b.NotBelow) :
    (a * b).NotBelow := by
  have direction_nonneg : ∀ {c : Exact}, c.NotBelow → 0 ≤ c.direction := by
    rintro (x | _ | _ | _) notBelow
    · exact notBelow
    · cases notBelow
    · exact zero_le_one
    · exact le_refl (0 : ℝ)
  have product := mul_nonneg (direction_nonneg first) (direction_nonneg second)
  cases a with
  | real x =>
      cases b with
      | real y => exact product
      | negInf | posInf | undefined => exact notBelow_infinity product
  | negInf | posInf | undefined => exact notBelow_infinity product

theorem notBelow_square (a : Exact) : (a * a).NotBelow := by
  cases a with
  | real x => exact mul_self_nonneg x
  | negInf | posInf | undefined => exact notBelow_infinity (mul_self_nonneg _)

/-- A quotient below zero, side by side. -/
theorem neg_div_cases {a b : Exact} (notBelow : a.NotBelow)
    (positive : Scalar.le b Scalar.zero = false) :
    Scalar.HasQuotient a b ∧ Scalar.le (-a / b) Scalar.zero = true ∨
      ¬Scalar.HasQuotient a b ∧ -a / b = undefined := by
  simp only [Scalar.HasQuotient, isUndefined_iff]
  obtain ⟨y, some, rfl⟩ | rfl | rfl := not_le_zero_iff.1 positive
  · cases a with
    | negInf => cases notBelow
    | undefined => exact .inr ⟨by simp, rfl⟩
    | real x =>
        refine .inl ⟨by simp, ?_⟩
        rw [neg_real, real_div_real some.ne', zero_eq, le_real, decide_eq_true_iff, neg_div]
        exact neg_nonpos.2 (div_nonneg notBelow some.le)
    | posInf =>
        have quotient : -posInf / real y = negInf :=
          (if_neg (neg_nonpos.2 some.le).not_gt).trans (if_pos (neg_lt_zero.2 some))
        exact .inl ⟨by simp, by rw [quotient, zero_eq]; rfl⟩
  · cases a with
    | negInf => cases notBelow
    | undefined => exact .inr ⟨by simp, rfl⟩
    | real x =>
        have quotient : -real x / posInf = real 0 := rfl
        exact .inl ⟨by simp, by rw [quotient, zero_eq, le_real, decide_eq_true (le_refl 0)]⟩
    | posInf => exact .inr ⟨by simp [Scalar.isFinite, isFinite], rfl⟩
  · refine .inr ⟨by simp, ?_⟩
    cases a <;> rfl

/-- Each term of a finite sum is a part of it. -/
theorem le_add {a b : Exact} (first : a.NotBelow) (second : b.NotBelow)
    (finite : Scalar.isFinite (a + b) = true) :
    Scalar.isFinite a = true ∧ Scalar.le a (a + b) = true ∧ Scalar.le b (a + b) = true := by
  cases a with
  | real x =>
      cases b with
      | real y =>
          exact ⟨rfl, decide_eq_true (le_add_of_nonneg_right second),
            decide_eq_true (le_add_of_nonneg_left first)⟩
      | negInf | posInf | undefined => cases finite
  | negInf | posInf | undefined => cases b <;> cases finite

/-- The share of a part is at most one. -/
theorem div_le_one {a b : Exact} (notBelow : a.NotBelow) (atMost : Scalar.le a b = true)
    (finite : Scalar.isFinite b = true) (positive : Scalar.le b Scalar.zero = false) :
    Scalar.le (a / b) Scalar.one = true := by
  obtain ⟨y, some, rfl⟩ | rfl | rfl := not_le_zero_iff.1 positive
  · cases a with
    | real x =>
        rw [le_real, decide_eq_true_iff] at atMost
        rw [real_div_real some.ne', one_eq, le_real, decide_eq_true_iff]
        exact (div_le_one₀ some).2 atMost
    | negInf => cases notBelow
    | posInf | undefined => cases atMost
  · cases finite
  · cases finite

/-- The share of an infinite whole is zero or undefined. -/
theorem div_endless {a b : Exact} (notBelow : a.NotBelow)
    (positive : Scalar.le b Scalar.zero = false) (infinite : Scalar.isFinite b = false) :
    Scalar.le (a / b) Scalar.zero = true ∨ Scalar.IsUndefined (a / b) := by
  obtain ⟨y, _, rfl⟩ | rfl | rfl := not_le_zero_iff.1 positive
  · cases infinite
  · cases a with
    | real x =>
        have share : real x / posInf = real 0 := rfl
        exact .inl (by rw [share, zero_eq, le_real, decide_eq_true (le_refl 0)])
    | negInf => cases notBelow
    | posInf | undefined => exact .inr rfl
  · exact .inr (isUndefined_iff.2 (by cases a <;> rfl))

instance : Scalar.Rounding Exact where
  le_trans {a b c} _ _ _ first second := by
    change le a b = true at first
    change le b c = true at second
    change le a c = true
    cases a <;> cases b <;> cases c <;> simp_all only [le, decide_eq_true_eq, Bool.false_eq_true]
    exact first.trans second
  zero_le_zero := by simp
  isLogarithm_negInf := isLogarithm_iff.2 (.inr rfl)
  isLogarithm_of_le_zero atMost := isLogarithm_iff.2 <|
    (le_zero_iff.1 atMost).imp_left fun ⟨x, _, isReal⟩ => ⟨x, isReal⟩
  not_isLogarithm isUndefined := by
    rw [isLogarithm_iff, isUndefined_iff.1 isUndefined]
    simp
  notBelow_of_le := lt_eq_false_of_le
  notBelow_of_not_le positive := notBelow_iff.1 (notBelow_of_not_le positive)
  beq_zero notBelow atMost := by
    rw [(notBelow_iff.2 notBelow).le_zero_iff.1 atMost]
    simp [Scalar.beq]
  notBelow_ofNat n := notBelow_iff.1 (Nat.cast_nonneg n)
  notBelow_add first second :=
    notBelow_iff.1 ((notBelow_iff.2 first).add (notBelow_iff.2 second))
  notBelow_mul first second :=
    notBelow_iff.1 ((notBelow_iff.2 first).mul (notBelow_iff.2 second))
  notBelow_square a := notBelow_iff.1 (notBelow_square a)
  notBelow_div first second :=
    notBelow_iff.1 ((notBelow_iff.2 first).div (notBelow_of_not_le second))
  notBelow_div_ofNat n first :=
    notBelow_iff.1 ((notBelow_iff.2 first).div (Nat.cast_nonneg n))
  add_le_zero first second := by
    obtain ⟨x, atMost, rfl⟩ | rfl := le_zero_iff.1 first
    · obtain ⟨y, atMost', rfl⟩ | rfl := le_zero_iff.1 second
      · exact le_zero_iff.2 (.inl ⟨x + y, add_nonpos atMost atMost', rfl⟩)
      · exact le_zero_iff.2 (.inr rfl)
    · obtain ⟨y, _, rfl⟩ | rfl := le_zero_iff.1 second <;> exact le_zero_iff.2 (.inr rfl)
  isUndefined_add := by
    rintro a b (first | second)
    · rw [isUndefined_iff.1 first, undefined_add]
      rfl
    · rw [isUndefined_iff.1 second, add_undefined]
      rfl
  le_add first second finite := le_add (notBelow_iff.2 first) (notBelow_iff.2 second) finite
  div_le_one notBelow atMost finite positive :=
    div_le_one (notBelow_iff.2 notBelow) atMost finite positive
  div_endless notBelow positive infinite :=
    div_endless (notBelow_iff.2 notBelow) positive infinite
  neg_div_le_zero notBelow positive quotient :=
    ((neg_div_cases (notBelow_iff.2 notBelow) positive).resolve_right
      fun other => other.1 quotient).2
  isUndefined_neg_div notBelow positive lacks :=
    isUndefined_iff.2 ((neg_div_cases (notBelow_iff.2 notBelow) positive).resolve_left
      fun other => lacks other.1).2

theorem logarithmic : Scalar.Logarithmic Exact where
  log_le_zero {a} positive atMost := by
    cases a with
    | real x =>
        simp only [zero_eq, one_eq, le_real, decide_eq_false_iff_not, not_le,
          decide_eq_true_iff] at positive atMost
        rw [log_real positive, zero_eq, le_real, decide_eq_true_iff]
        exact Real.log_nonpos positive.le atMost
    | negInf => rw [zero_eq] at positive; cases positive
    | posInf | undefined => rw [one_eq] at atMost; cases atMost
  isUndefined_log isUndefined := by
    rw [isUndefined_iff.1 isUndefined]
    rfl

end Exact

end NumberConcepts
