import Mathlib
import NumberConcepts.Scalar
/-!
# Doubles and zero

Doubles are compared as they are unpacked: by class, sign, exponent and mantissa. How a
double compares with zero shows in its class and sign alone, and both are kept when a
double is packed. So what follows here needs no bound on rounding errors: natural
numbers and their quotients are not below zero, and sums, products and quotients stay on
the side of zero on which exact arithmetic has them.
-/

namespace NumberConcepts.Double

open Float.Model (Format UnpackedFloat)
open Float.Model.UnpackedFloat

/-! ### Comparisons -/

/-- The unpacked double has a value, and the given sign. -/
def Signed (sign : Sign) : UnpackedFloat → Prop
  | .infinity own | .zero own | .finite own .. => own = sign
  | .notANumber => False

/-- The unpacked double is zero or undefined, or has the given sign. -/
def Toward (sign : Sign) : UnpackedFloat → Prop
  | .infinity own | .finite own .. => own = sign
  | .zero _ | .notANumber => True

theorem Signed.toward {sign : Sign} {value : UnpackedFloat} (signed : Signed sign value) :
    Toward sign value := by
  cases value with
  | notANumber | zero => trivial
  | infinity | finite => exact signed

theorem Signed.ne {sign : Sign} {value : UnpackedFloat} (signed : Signed sign value) :
    value ≠ .notANumber := by
  rintro rfl
  exact signed

theorem unpack_zero : (Scalar.zero : Float).toModel.unpack = .zero .positive := rfl

theorem lt_zero_eq_false_iff {x : Float} : Scalar.lt x Scalar.zero = false ↔ ¬ x < 0.0 :=
  decide_eq_false_iff_not

theorem le_zero_eq_false_iff {x : Float} : Scalar.le x Scalar.zero = false ↔ ¬ x ≤ 0.0 :=
  decide_eq_false_iff_not

theorem le_iff {x y : Float} :
    Scalar.le x y = true ↔ x.toModel.unpack.le y.toModel.unpack = true := by
  change decide (decide (x.toModel.unpack.le y.toModel.unpack = true)) = true ↔ _
  rw [decide_eq_true_iff, decide_eq_true_iff]

/-- Zero is compared with what the double is unpacked to. -/
theorem zero_le_iff {x : Float} : Scalar.le Scalar.zero x = true ↔
    UnpackedFloat.le (.zero .positive) x.toModel.unpack = true := by
  rw [le_iff, unpack_zero]

theorem lt_zero_eq_false_iff_unpacked {x : Float} : Scalar.lt x Scalar.zero = false ↔
    ¬ x.toModel.unpack.lt (.zero .positive) = true := by
  change decide (decide (x.toModel.unpack.lt (Scalar.zero : Float).toModel.unpack = true)) = false ↔ _
  rw [unpack_zero, decide_eq_false_iff_not, decide_eq_true_iff]

/-- A double with the positive sign is not below zero. -/
theorem zero_le {x : Float} (signed : Signed .positive x.toModel.unpack) :
    Scalar.le Scalar.zero x = true := by
  rw [zero_le_iff]
  cases unpacked : x.toModel.unpack with
  | notANumber => rw [unpacked] at signed; cases signed
  | infinity sign | zero sign | finite sign => rw [unpacked] at signed; cases signed; rfl

/-- Nothing that is at least zero is below zero. -/
theorem not_lt_zero {x : Float} (notBelow : Scalar.le Scalar.zero x = true) :
    Scalar.lt x Scalar.zero = false := by
  rw [zero_le_iff] at notBelow
  rw [lt_zero_eq_false_iff_unpacked]
  cases unpacked : x.toModel.unpack with
  | notANumber => rw [unpacked] at notBelow; cases notBelow
  | zero sign => exact Bool.false_ne_true
  | infinity sign | finite sign =>
      rw [unpacked] at notBelow
      cases sign with
      | positive => exact Bool.false_ne_true
      | negative => cases notBelow

/-- What is neither below zero nor undefined is at least zero. -/
theorem zero_le_of_not_lt {x : Float} (notBelow : Scalar.lt x Scalar.zero = false)
    (defined : x.isNaN = false) : Scalar.le Scalar.zero x = true := by
  change x.toModel.unpack.isNaN = false at defined
  rw [lt_zero_eq_false_iff_unpacked] at notBelow
  rw [zero_le_iff]
  cases unpacked : x.toModel.unpack with
  | notANumber => rw [unpacked] at defined; cases defined
  | zero sign => rfl
  | infinity sign | finite sign =>
      rw [unpacked] at notBelow
      cases sign with
      | positive => rfl
      | negative => exact absurd rfl notBelow

theorem le_zero_iff {x : Float} : Scalar.le x Scalar.zero = true ↔
    Toward .negative x.toModel.unpack ∧ x.toModel.unpack ≠ .notANumber := by
  rw [le_iff, unpack_zero]
  cases x.toModel.unpack with
  | notANumber => exact ⟨nofun, fun other => absurd rfl other.2⟩
  | zero => exact ⟨fun _ => ⟨trivial, nofun⟩, fun _ => rfl⟩
  | infinity sign | finite sign =>
      cases sign with
      | positive => exact ⟨nofun, fun other => nomatch other.1⟩
      | negative => exact ⟨fun _ => ⟨rfl, nofun⟩, fun _ => rfl⟩

theorem positive_of_not_le {x : Float} (positive : Scalar.le x Scalar.zero = false) :
    x.toModel.unpack = .notANumber ∨
      Signed .positive x.toModel.unpack ∧ ∀ sign, x.toModel.unpack ≠ .zero sign := by
  rw [← Bool.not_eq_true, le_zero_iff] at positive
  cases unpacked : x.toModel.unpack with
  | notANumber => exact .inl rfl
  | zero => exact absurd ⟨trivial, nofun⟩ (unpacked ▸ positive)
  | infinity sign | finite sign =>
      cases sign with
      | positive => exact .inr ⟨rfl, nofun⟩
      | negative => exact absurd ⟨rfl, nofun⟩ (unpacked ▸ positive)

/-- Finite doubles above zero are ordered by exponent, and by mantissa where that is the same. -/
theorem le_finite_iff {m n : Nat} {e f : Int} {positive : 0 < m} {positive' : 0 < n} :
    UnpackedFloat.le (.finite .positive m e positive) (.finite .positive n f positive') = true ↔
      e < f ∨ e = f ∧ m ≤ n := by
  simp only [UnpackedFloat.le, UnpackedFloat.compare, Option.any_some, Ordering.isLE_then_iff_or,
    Nat.isLE_compare, Int.compare_eq_lt, Int.compare_eq_eq]

theorem Toward.le_trans {a b c : UnpackedFloat} (least : Toward .positive a)
    (middle : Toward .positive b) (greatest : Toward .positive c) (first : a.le b = true)
    (second : b.le c = true) : a.le c = true := by
  cases a with
  | notANumber => cases first
  | zero =>
      cases c with
      | notANumber => cases b <;> cases second
      | zero => rfl
      | infinity | finite => cases greatest; rfl
  | infinity =>
      cases least
      cases b with
      | notANumber | zero | finite => cases first
      | infinity => cases middle; exact second
  | finite =>
      cases least
      cases b with
      | notANumber | zero => cases first
      | infinity =>
          cases middle
          cases c with
          | notANumber | zero | finite => cases second
          | infinity => cases greatest; rfl
      | finite =>
          cases middle
          cases c with
          | notANumber | zero => cases second
          | infinity => cases greatest; rfl
          | finite =>
              cases greatest
              rw [le_finite_iff] at first second ⊢
              omega

theorem le_self {value : UnpackedFloat} (toward : Toward .positive value)
    (defined : value ≠ .notANumber) : value.le value = true := by
  cases value with
  | notANumber => exact absurd rfl defined
  | zero => rfl
  | infinity => cases toward; rfl
  | finite => cases toward; exact le_finite_iff.2 (.inr ⟨rfl, le_rfl⟩)

/-! ### Signs of results -/

/-- Components have a value of their sign, unless they are those of the undefined one. -/
theorem signed_packComponents {spec : Format} {sign : Sign} {exponent : BitVec spec.exponentBits}
    {mantissa : BitVec spec.mantissaBitsWithoutImplicit}
    (defined : exponent ≠ -1#_ ∨ mantissa = 0#_) :
    Signed sign (unpack spec (packComponents spec sign exponent mantissa)) := by
  simp only [unpack, unpackExponent_packComponents, unpackMantissa_packComponents,
    unpackSign_packComponents, Sign.ofBitVec_toBitVec]
  split
  next full =>
    split
    next => rfl
    next notEmpty => exact defined.elim (absurd full) (absurd · notEmpty)
  next =>
    split
    next => split <;> rfl
    next => rfl

/-- Packing keeps the sign of a value. -/
theorem Signed.pack {spec : Format} {sign : Sign} {value : UnpackedFloat}
    (signed : Signed sign value) : Signed sign (unpack spec (UnpackedFloat.pack spec value)) := by
  cases value with
  | notANumber => cases signed
  | infinity | zero => cases signed; exact signed_packComponents (.inr rfl)
  | finite own mantissa exponent positive =>
      cases signed
      simp only [UnpackedFloat.pack]
      split
      next => exact signed_packComponents (.inr rfl)
      -- Only an exponent of ones stands for an undefined value, and no finite one is packed so.
      next fits =>
        split
        next =>
          refine signed_packComponents (.inl fun full => ?_)
          have ones := congrArg BitVec.toNat full
          rw [BitVec.neg_one_eq_allOnes, BitVec.toNat_ofNat, BitVec.toNat_allOnes,
            Nat.mod_eq_of_lt (by omega)] at ones
          omega
        next =>
          refine signed_packComponents (.inl fun full => ?_)
          have ones := congrArg BitVec.toNat full
          rw [BitVec.neg_one_eq_allOnes, BitVec.toNat_ofNat, BitVec.toNat_allOnes,
            Nat.zero_mod] at ones
          have large := Nat.one_lt_two_pow (Nat.pos_iff_ne_zero.1 spec.he)
          omega

theorem signed_roundWithAccuracy (spec : Format) (sign : Sign) (mantissa : Nat) (exponent : Int)
    (accuracy : Accuracy) : Signed sign (roundWithAccuracy spec sign mantissa exponent accuracy) := by
  simp only [roundWithAccuracy]
  split <;> rfl

/-- Numbers that are not negative are rounded to doubles with the positive sign. -/
theorem signed_normalize (spec : Format) (mantissa : Nat) (exponent : Int) :
    Signed .positive (UnpackedFloat.normalize spec mantissa exponent .positive) := by
  simp only [UnpackedFloat.normalize]
  split
  next below => exact absurd (Int.compare_eq_lt.1 below) (by omega)
  next => rfl
  next => exact signed_roundWithAccuracy ..

section Quotients

variable {spec : Format} {sign : Sign} {value : UnpackedFloat} {mantissa : Nat} {exponent : Int}
  {positive : 0 < mantissa}

/-- A product with a positive number keeps the sign. -/
theorem Signed.mul (signed : Signed sign value) :
    Signed sign (UnpackedFloat.mul spec value (.finite .positive mantissa exponent positive)) := by
  have same : sign * .positive = sign := by cases sign <;> rfl
  cases value with
  | notANumber => cases signed
  | infinity | zero => cases signed; exact same
  | finite =>
      cases signed
      rw [UnpackedFloat.mul, same]
      exact signed_roundWithAccuracy ..

/-- A quotient by a positive number keeps the sign. -/
theorem Signed.div (signed : Signed sign value) :
    Signed sign (UnpackedFloat.div spec value (.finite .positive mantissa exponent positive)) := by
  have same : sign / .positive = sign := by cases sign <;> rfl
  cases value with
  | notANumber => cases signed
  | infinity | zero => cases signed; exact same
  | finite =>
      cases signed
      rw [UnpackedFloat.div, same]
      exact signed_roundWithAccuracy ..

end Quotients

theorem signed_ofScientific (spec : Format) (n : Nat) :
    Signed .positive (UnpackedFloat.ofScientific spec n 0) := by
  rw [UnpackedFloat.ofScientific]
  split
  next => rfl
  next =>
    split
    next => rfl
    next =>
      split
      next => rfl
      next =>
        rw [if_pos le_rfl]
        exact signed_roundWithAccuracy ..

/-- A natural number is a double with the positive sign, however it is read. -/
theorem signed_scalar_ofNat (n : Nat) :
    Signed .positive (Scalar.ofNat n : Float).toModel.unpack := by
  change Signed .positive (Float.ofScientific n false 0).toModel.unpack
  rw [Float.ofScientific]
  split
  next =>
    have one : (1.0 : Float).toModel.unpack = .finite .positive (2 ^ 52) (-52) (by decide) := by rfl
    change Signed .positive (unpack _ (UnpackedFloat.pack _
      (UnpackedFloat.mul _ (unpack _ (UnpackedFloat.pack _ (UnpackedFloat.ofNat _ _)))
        (1.0 : Float).toModel.unpack)))
    rw [one]
    exact (signed_normalize ..).pack.mul.pack
  next => exact (signed_ofScientific ..).pack

/-- A number of the unit interval in units of `2 ^ -53` is not below zero. -/
theorem signed_quotient (units : Nat) :
    Signed .positive (Scalar.ofNat units / Scalar.ofNat (Nat.pow 2 53) : Float).toModel.unpack := by
  have scale : (Scalar.ofNat (Nat.pow 2 53) : Float).toModel.unpack =
      .finite .positive (2 ^ 52) 1 (by decide) := by rfl
  change Signed .positive (unpack _ (UnpackedFloat.pack _ (UnpackedFloat.div _
    (Scalar.ofNat units : Float).toModel.unpack
    (Scalar.ofNat (Nat.pow 2 53) : Float).toModel.unpack)))
  rw [scale]
  exact (signed_scalar_ofNat units).div.pack

/-! ### Sides of zero -/

section Packing

variable {sign : Sign} {value : UnpackedFloat}

theorem Toward.pack (toward : Toward sign value) :
    Toward sign (unpack Format.binary64 (UnpackedFloat.pack Format.binary64 value)) := by
  have ofSigned : Signed sign value →
      Toward sign (unpack Format.binary64 (UnpackedFloat.pack Format.binary64 value)) :=
    fun signed => signed.pack.toward
  cases value with
  | notANumber => trivial
  | zero own => cases own <;> trivial
  | infinity | finite => exact ofSigned toward

/-- Only the undefined double is packed as one that is undefined. -/
theorem unpack_pack_eq_notANumber_iff :
    unpack Format.binary64 (UnpackedFloat.pack Format.binary64 value) = .notANumber ↔
      value = .notANumber := by
  have ofSigned : ∀ own, Signed own value →
      unpack Format.binary64 (UnpackedFloat.pack Format.binary64 value) ≠ .notANumber :=
    fun _ signed => signed.pack.ne
  cases value with
  | notANumber => exact iff_of_true unpack_packedNaN rfl
  | infinity own | zero own | finite own => exact iff_of_false (ofSigned own rfl) nofun

end Packing

section Operations

variable {spec : Format} {sign : Sign} {a b : UnpackedFloat}

theorem toward_normalize (mantissa : Nat) (exponent : Int) (ofZero : Sign) :
    Toward sign (UnpackedFloat.normalize spec (sign.apply mantissa) exponent ofZero) := by
  rw [UnpackedFloat.normalize]
  cases sign with
  | positive =>
      split
      next below => exact absurd (Int.compare_eq_lt.1 below) (by simp only [Sign.apply]; omega)
      next => trivial
      next => exact (signed_roundWithAccuracy ..).toward
  | negative =>
      split
      next => exact (signed_roundWithAccuracy ..).toward
      next => trivial
      next above => exact absurd (Int.compare_eq_gt.1 above) (by simp only [Sign.apply]; omega)

theorem Toward.add (first : Toward sign a) (second : Toward sign b) :
    Toward sign (UnpackedFloat.add spec a b) := by
  cases a with
  | notANumber => trivial
  | zero =>
      cases b with
      | notANumber => trivial
      | zero => rw [UnpackedFloat.add]; split <;> trivial
      | infinity | finite => exact second
  | infinity =>
      cases b with
      | notANumber => trivial
      | zero | finite => exact first
      | infinity => cases first; cases second; simp [UnpackedFloat.add, Toward]
  | finite _ mantissa exponent =>
      cases b with
      | notANumber => trivial
      | zero => exact first
      | infinity => exact second
      | finite =>
          have linear : ∀ m n : Nat,
              sign.apply m + sign.apply n = sign.apply ((m + n : Nat) : Int) := by
            intro m n
            cases sign <;> simp only [Sign.apply] <;> omega
          cases first
          cases second
          simp only [UnpackedFloat.add, linear]
          exact toward_normalize ..

/-- On one side of zero no sum of defined doubles is undefined. -/
theorem Toward.add_ne (first : Toward sign a) (second : Toward sign b) (defined : a ≠ .notANumber)
    (defined' : b ≠ .notANumber) : UnpackedFloat.add spec a b ≠ .notANumber := by
  cases a with
  | notANumber => exact absurd rfl defined
  | zero =>
      cases b with
      | notANumber => exact absurd rfl defined'
      | zero => rw [UnpackedFloat.add]; split <;> exact nofun
      | infinity | finite => exact nofun
  | infinity =>
      cases b with
      | notANumber => exact absurd rfl defined'
      | zero | finite => exact nofun
      | infinity => cases first; cases second; simp [UnpackedFloat.add]
  | finite =>
      cases b with
      | notANumber => exact absurd rfl defined'
      | zero | infinity => exact nofun
      | finite =>
          simp only [UnpackedFloat.add, UnpackedFloat.normalize]
          split
          next => exact (signed_roundWithAccuracy ..).ne
          next => exact nofun
          next => exact (signed_roundWithAccuracy ..).ne

theorem Toward.mul (first : Toward .positive a) (second : Toward .positive b) :
    Toward .positive (UnpackedFloat.mul spec a b) := by
  cases a with
  | notANumber => trivial
  | zero => cases b <;> trivial
  | infinity =>
      cases b with
      | notANumber | zero => trivial
      | infinity | finite => cases first; cases second; rfl
  | finite =>
      cases b with
      | notANumber | zero => trivial
      | infinity => cases first; cases second; rfl
      | finite => cases first; cases second; exact (signed_roundWithAccuracy ..).toward

/-- Signs that are equal have a positive product. -/
theorem toward_mul_self (a : UnpackedFloat) : Toward .positive (UnpackedFloat.mul spec a a) := by
  cases a with
  | notANumber | zero => trivial
  | infinity own => cases own <;> rfl
  | finite own => cases own <;> exact (signed_roundWithAccuracy ..).toward

/-- A quotient by what has the positive sign stays on its side of zero. -/
theorem Toward.div (first : Toward sign a) (second : Signed .positive b) :
    Toward sign (UnpackedFloat.div spec a b) := by
  have same : sign / .positive = sign := by cases sign <;> rfl
  cases a with
  | notANumber => trivial
  | zero => cases b <;> trivial
  | infinity =>
      cases b with
      | notANumber | infinity => trivial
      | zero | finite => cases first; cases second; exact same
  | finite =>
      cases b with
      | notANumber | infinity => trivial
      | zero => cases first; cases second; exact same
      | finite =>
          cases first
          cases second
          rw [UnpackedFloat.div, same]
          exact (signed_roundWithAccuracy ..).toward

end Operations

end NumberConcepts.Double
