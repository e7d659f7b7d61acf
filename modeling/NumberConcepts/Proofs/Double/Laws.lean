import NumberConcepts.Proofs.Double.Rounding
import NumberConcepts.Proofs.Scalar.Rounding
/-!
# Laws of doubles

Doubles keep the laws of `Scalar.Rounding`. They are read off the unpacked forms: signs
from the side of zero on which a result lies, undefined results from the cases in which
an operation has none, and parts against wholes from the bounds on what is rounded.
-/

namespace NumberConcepts.Double

open Float.Model (Format UnpackedFloat)
open Float.Model.UnpackedFloat

theorem notBelow_iff {x : Float} : Scalar.NotBelow x ↔ Toward .positive x.toModel.unpack := by
  rw [Scalar.NotBelow, lt_zero_eq_false_iff_unpacked]
  cases x.toModel.unpack with
  | notANumber | zero => exact ⟨fun _ => trivial, fun _ => Bool.false_ne_true⟩
  | infinity sign | finite sign =>
      cases sign with
      | positive => exact ⟨fun _ => rfl, fun _ => Bool.false_ne_true⟩
      | negative => exact ⟨fun above => absurd rfl above, nofun⟩

theorem isUndefined_iff {x : Float} :
    Scalar.IsUndefined x ↔ x.toModel.unpack = .notANumber := by
  rw [Scalar.IsUndefined, ← Bool.not_eq_true, le_iff]
  cases x.toModel.unpack with
  | notANumber => exact iff_of_true Bool.false_ne_true rfl
  | zero => exact iff_of_false (not_not_intro rfl) (Signed.ne rfl)
  | infinity sign => cases sign <;> exact iff_of_false (not_not_intro rfl) (Signed.ne rfl)
  | finite sign mantissa exponent =>
      refine iff_of_false (not_not_intro ?_) (Signed.ne rfl)
      cases sign <;> simp [UnpackedFloat.le, UnpackedFloat.compare]

theorem isLogarithm_iff {x : Float} : Scalar.IsLogarithm x ↔
    x.toModel.unpack.isFinite = true ∨ x.toModel.unpack = .infinity .negative := by
  have negInf : (Scalar.negInf : Float).toModel.unpack = .infinity .negative := rfl
  rw [Scalar.IsLogarithm, le_iff, negInf]
  refine or_congr_right' fun notFinite => ?_
  cases unpacked : x.toModel.unpack with
  | zero | finite => exact absurd (congrArg UnpackedFloat.isFinite unpacked) notFinite
  | notANumber => exact iff_of_false Bool.false_ne_true (by simp)
  | infinity sign =>
      cases sign with
      | positive => exact iff_of_false Bool.false_ne_true (by simp)
      | negative => exact iff_of_true rfl rfl

/-- A quotient is undefined only where a side is, or where both are infinite. -/
theorem div_eq_notANumber_iff {a b : UnpackedFloat} (nonzero : ∀ sign, b ≠ .zero sign) :
    UnpackedFloat.div Format.binary64 a b = .notANumber ↔
      a = .notANumber ∨ b = .notANumber ∨ a.isFinite = false ∧ b.isFinite = false := by
  cases b with
  | zero sign => exact absurd rfl (nonzero sign)
  | notANumber => cases a <;> simp [UnpackedFloat.div]
  | infinity => cases a <;> simp [UnpackedFloat.div, UnpackedFloat.isFinite]
  | finite =>
      cases a with
      | notANumber | infinity | zero => simp [UnpackedFloat.div, UnpackedFloat.isFinite]
      | finite =>
          refine iff_of_false (signed_roundWithAccuracy ..).ne ?_
          simp [UnpackedFloat.isFinite]

section Quotients

variable {x y : Float}

theorem isUndefined_div_iff (positive : Scalar.le y Scalar.zero = false) :
    Scalar.IsUndefined (x / y) ↔ ¬Scalar.HasQuotient x y := by
  have nonzero : ∀ sign, y.toModel.unpack ≠ .zero sign := by
    obtain isUndefined | ⟨_, nonzero⟩ := positive_of_not_le positive
    · rw [isUndefined]
      exact nofun
    · exact nonzero
  have isFinite : ∀ z : Float, Scalar.isFinite z = z.toModel.unpack.isFinite := fun _ => rfl
  rw [Scalar.HasQuotient, isUndefined_iff, isUndefined_iff, isUndefined_iff, isFinite, isFinite]
  change unpack _ (UnpackedFloat.pack _ (UnpackedFloat.div _ _ _)) = .notANumber ↔ _
  rw [unpack_pack_eq_notANumber_iff, div_eq_notANumber_iff nonzero]
  simp only [not_and_or, not_or, not_not, Bool.not_eq_true]

/-- A quotient by what is above zero stays on its side. -/
theorem toward_div {sign : Sign} (toward : Toward sign x.toModel.unpack)
    (positive : Scalar.le y Scalar.zero = false) : Toward sign (x / y).toModel.unpack := by
  change Toward sign (unpack _ (UnpackedFloat.pack _ (UnpackedFloat.div _ _ _)))
  obtain isUndefined | ⟨signed, _⟩ := positive_of_not_le positive
  · rw [isUndefined]
    cases x.toModel.unpack <;> exact Toward.pack trivial
  · exact (toward.div signed).pack

/-- Nothing has a share above zero of an infinite whole. -/
theorem le_zero_div_endless
    (infinite : Scalar.isFinite y = false) (quotient : Scalar.HasQuotient x y) :
    Scalar.le (x / y) Scalar.zero = true := by
  obtain ⟨_, defined, finite⟩ := quotient
  change x.toModel.unpack.isFinite = true ∨ y.toModel.unpack.isFinite = true at finite
  change y.toModel.unpack.isFinite = false at infinite
  rw [isUndefined_iff] at defined
  rw [le_zero_iff]
  change Toward .negative (unpack _ (UnpackedFloat.pack _ (UnpackedFloat.div _ _ _))) ∧
    unpack _ (UnpackedFloat.pack _ (UnpackedFloat.div _ _ _)) ≠ .notANumber
  rw [Ne, unpack_pack_eq_notANumber_iff]
  generalize x.toModel.unpack = a at finite ⊢
  generalize y.toModel.unpack = b at finite infinite defined ⊢
  cases b with
  | notANumber => exact absurd rfl defined
  | zero | finite => cases infinite
  | infinity =>
      cases a with
      | notANumber | infinity => cases finite <;> contradiction
      | zero | finite => exact ⟨Toward.pack trivial, nofun⟩

end Quotients

/-- Nothing but the sign is changed by a negation. -/
theorem unpack_neg (x : Float) : (-x).toModel.unpack = x.toModel.unpack.neg := by
  change unpack _ (UnpackedFloat.pack _ x.toModel.unpack.neg) = _
  have settled := settled_unpack x.toModel.toBits.toBitVec
  change Settled x.toModel.unpack at settled
  generalize x.toModel.unpack = a at settled ⊢
  cases a with
  | notANumber => exact unpack_packedNaN
  | infinity sign => cases sign <;> rfl
  | zero sign => exact unpack_packedZero
  | finite sign => exact unpack_pack settled.1 settled.2 (-sign)

/-- Neither does it touch whether there is a quotient. -/
theorem hasQuotient_neg {x y : Float} : Scalar.HasQuotient (-x) y ↔ Scalar.HasQuotient x y := by
  have isFinite : ∀ z : Float, Scalar.isFinite z = z.toModel.unpack.isFinite := fun _ => rfl
  simp only [Scalar.HasQuotient, isUndefined_iff, isFinite, unpack_neg]
  cases x.toModel.unpack <;> simp [UnpackedFloat.neg, UnpackedFloat.isFinite]

theorem toward_neg {x : Float} (notBelow : Scalar.NotBelow x) :
    Toward .negative (-x).toModel.unpack := by
  rw [notBelow_iff] at notBelow
  rw [unpack_neg]
  cases unpacked : x.toModel.unpack with
  | notANumber | zero => trivial
  | infinity | finite => rw [unpacked] at notBelow; cases notBelow; rfl

instance : Scalar.Rounding Float where
  le_trans least middle greatest first second :=
    le_iff.2 ((notBelow_iff.1 least).le_trans (notBelow_iff.1 middle) (notBelow_iff.1 greatest)
      (le_iff.1 first) (le_iff.1 second))
  zero_le_zero := by decide
  isLogarithm_negInf := .inr (by decide)
  isLogarithm_of_le_zero {x} atMost := by
    obtain ⟨toward, defined⟩ := le_zero_iff.1 atMost
    rw [isLogarithm_iff]
    cases unpacked : x.toModel.unpack with
    | notANumber => exact absurd unpacked defined
    | zero | finite => exact .inl rfl
    | infinity => rw [unpacked] at toward; cases toward; exact .inr rfl
  not_isLogarithm isUndefined := by
    rw [isLogarithm_iff, isUndefined_iff.1 isUndefined]
    simp [UnpackedFloat.isFinite]
  notBelow_of_le := not_lt_zero
  notBelow_of_not_le positive := by
    rw [notBelow_iff]
    obtain isUndefined | ⟨signed, _⟩ := positive_of_not_le positive
    · rw [isUndefined]
      trivial
    · exact signed.toward
  beq_zero {x} notBelow atMost := by
    have defined : x.isNaN = false := by
      rw [← Bool.not_eq_true]
      change ¬x.toModel.unpack.isNaN = true
      rw [isNaN_iff]
      exact (le_zero_iff.1 atMost).2
    rw [Scalar.beq, atMost, zero_le_of_not_lt notBelow defined]
    rfl
  notBelow_ofNat n := notBelow_iff.2 (signed_scalar_ofNat n).toward
  notBelow_add first second :=
    notBelow_iff.2 ((notBelow_iff.1 first).add (notBelow_iff.1 second)).pack
  notBelow_mul first second :=
    notBelow_iff.2 ((notBelow_iff.1 first).mul (notBelow_iff.1 second)).pack
  notBelow_square x := notBelow_iff.2 (toward_mul_self x.toModel.unpack).pack
  notBelow_div first positive := notBelow_iff.2 (toward_div (notBelow_iff.1 first) positive)
  notBelow_div_ofNat n first :=
    notBelow_iff.2 ((notBelow_iff.1 first).div (signed_scalar_ofNat n)).pack
  add_le_zero first second := by
    obtain ⟨below, defined⟩ := le_zero_iff.1 first
    obtain ⟨below', defined'⟩ := le_zero_iff.1 second
    exact le_zero_iff.2 ⟨(below.add below').pack,
      unpack_pack_eq_notANumber_iff.not.2 (below.add_ne below' defined defined')⟩
  isUndefined_add {x y} isUndefined := by
    rw [isUndefined_iff, isUndefined_iff] at isUndefined
    rw [isUndefined_iff]
    change unpack _ (UnpackedFloat.pack _ (UnpackedFloat.add _ _ _)) = .notANumber
    rw [unpack_pack_eq_notANumber_iff]
    obtain first | second := isUndefined
    · rw [first]
      rfl
    · rw [second]
      cases x.toModel.unpack <;> rfl
  le_add {x y} first second finite := by
    have sums := le_unpack_pack_add (settled_unpack x.toModel.toBits.toBitVec)
      (settled_unpack y.toModel.toBits.toBitVec) (notBelow_iff.1 first) (notBelow_iff.1 second) finite
    exact ⟨sums.1, le_iff.2 sums.2.1, le_iff.2 sums.2.2⟩
  div_le_one {x y} first atMost finite positive := by
    obtain isUndefined | ⟨signed, nonzero⟩ := positive_of_not_le positive
    · change y.toModel.unpack.isFinite = true at finite
      rw [isUndefined] at finite
      cases finite
    · exact le_iff.2 (unpack_pack_div_le_one (settled_unpack x.toModel.toBits.toBitVec)
        (settled_unpack y.toModel.toBits.toBitVec) (notBelow_iff.1 first) signed finite
        (nonzero _) (le_iff.1 atMost))
  div_endless {x y} _ positive infinite := by
    by_cases quotient : Scalar.HasQuotient x y
    · exact .inl (le_zero_div_endless infinite quotient)
    · exact .inr ((isUndefined_div_iff positive).2 quotient)
  neg_div_le_zero {x y} notBelow positive quotient := by
    rw [← hasQuotient_neg] at quotient
    refine le_zero_iff.2 ⟨toward_div (toward_neg notBelow) positive, fun isUndefined => ?_⟩
    exact (isUndefined_div_iff positive).1 (isUndefined_iff.2 isUndefined) quotient
  isUndefined_neg_div _ positive lacks :=
    (isUndefined_div_iff positive).2 (hasQuotient_neg.not.2 lacks)

end NumberConcepts.Double
