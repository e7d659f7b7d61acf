import NumberConcepts.Proofs.Double
/-!
# Rounding of doubles

The numbers that a double can hold are told by mantissa and exponent, as `Fits`. Rounding
cuts digits off down to the exponent `target` and takes the mantissa that is left or the
next one; this is opened once, by `roundWithAccuracy_cases`. A term of a sum fits already,
so that it is not above the rounded sum, and the quotient of a part by its whole is rounded
below one.
-/

namespace NumberConcepts.Double

open Float.Model (Format UnpackedFloat totalExponent)
open Float.Model.UnpackedFloat

/-- Mantissa and exponent of a double that is neither zero nor too large. -/
structure Fits (mantissa : Nat) (exponent : Int) : Prop where
  positive : 0 < mantissa
  bounded : mantissa < 2 ^ 53
  least : -1074 ≤ exponent
  /-- Only the doubles next to zero have fewer digits than there is room for. -/
  full : 2 ^ 52 ≤ mantissa ∨ exponent = -1074

/-- The digit that is not stored counts as the highest one. -/
theorem toNat_implicit_append {width : Nat} (fraction : BitVec width) :
    (1#1 ++ fraction).toNat = 2 ^ width + fraction.toNat := by
  rw [BitVec.toNat_append, ← Nat.shiftLeft_add_eq_or_of_lt fraction.isLt, Nat.shiftLeft_eq]
  simp

theorem fits_of_unpack {bits : BitVec Format.binary64.numBits} {sign : Sign} {mantissa : Nat}
    {exponent : Int} {positive : 0 < mantissa}
    (unpacked : unpack Format.binary64 bits = .finite sign mantissa exponent positive) :
    Fits mantissa exponent ∧ exponent ≤ 971 := by
  have bias : Format.binary64.exponentBias = 1023 := rfl
  have width : (unpackMantissa bits).toNat < 2 ^ 52 := (unpackMantissa bits).isLt
  have range : (unpackExponent bits).toNat < 2 ^ 11 := (unpackExponent bits).isLt
  simp only [unpack] at unpacked
  split at unpacked
  next => split at unpacked <;> cases unpacked
  next notFull =>
    split at unpacked
    next none =>
      split at unpacked
      next => cases unpacked
      next =>
        cases unpacked
        rw [none, bias]
        exact ⟨⟨positive, by omega, by decide, .inr rfl⟩, by decide⟩
    next some =>
      cases unpacked
      have implicit : (1#1 ++ unpackMantissa bits).toNat = 2 ^ 52 + (unpackMantissa bits).toNat :=
        toNat_implicit_append _
      have notZero : (unpackExponent bits).toNat ≠ 0 := fun zero => some (BitVec.toNat_inj.1 zero)
      have below : (unpackExponent bits).toNat ≠ 2 ^ 11 - 1 := fun ones =>
        notFull (BitVec.toNat_inj.1 ones)
      rw [implicit, bias]
      exact ⟨⟨by omega, by omega, by omega, .inl (by omega)⟩, by omega⟩

theorem unpack_normal (sign : Sign) {stored : BitVec 11} (fraction : BitVec 52)
    (notFull : stored ≠ -1#_) (notZero : stored ≠ 0#_) :
    unpack Format.binary64 (packComponents Format.binary64 sign stored fraction) =
      .finite sign (2 ^ 52 + fraction.toNat) (stored.toNat - 1075)
        (Nat.add_pos_left (Nat.two_pow_pos 52) _) := by
  simp only [unpack, unpackExponent_packComponents, unpackMantissa_packComponents,
    unpackSign_packComponents, Sign.ofBitVec_toBitVec, toNat_implicit_append, notFull, notZero,
    if_false]
  rfl

/-- Next to zero all digits are stored. -/
theorem unpack_subnormal (sign : Sign) {fraction : BitVec 52} (positive : 0 < fraction.toNat) :
    unpack Format.binary64 (packComponents Format.binary64 sign 0#11 fraction) =
      .finite sign fraction.toNat (-1074) positive := by
  have notFull : (0#11 : BitVec Format.binary64.exponentBits) ≠ -1#_ := by decide
  have notZero : fraction ≠ 0#_ := by
    rintro rfl
    exact absurd positive (by decide)
  simp only [unpack, unpackExponent_packComponents, unpackMantissa_packComponents,
    unpackSign_packComponents, Sign.ofBitVec_toBitVec, notFull, notZero, if_false, if_true,
    dite_false]
  rfl

/-- What fits is unpacked as it was packed. -/
theorem unpack_pack {mantissa : Nat} {exponent : Int} (fits : Fits mantissa exponent)
    (small : exponent ≤ 971) (sign : Sign) :
    unpack Format.binary64 (pack Format.binary64 (.finite sign mantissa exponent fits.positive)) =
      .finite sign mantissa exponent fits.positive := by
  obtain ⟨positive, bounded, least, full⟩ := fits
  obtain ⟨stored, rfl⟩ : ∃ stored : Nat, exponent = stored - 1075 :=
    ⟨(exponent + 1075).toNat, by omega⟩
  have biased : ((stored - 1075 : Int) + Format.binary64.exponentBias +
      Format.binary64.mantissaBitsWithoutImplicit).toNat = stored := by
    change ((stored - 1075 : Int) + 1023 + 52).toNat = stored
    omega
  have toNat_stored : (BitVec.ofNat 11 stored).toNat = stored := by
    rw [BitVec.toNat_ofNat, Nat.mod_eq_of_lt (by omega)]
  have fraction : (BitVec.ofNat 52 mantissa).toNat = mantissa % 2 ^ 52 := BitVec.toNat_ofNat ..
  have isNormal : mantissa.log2 + 1 = Format.binary64.mantissaBits ↔ 2 ^ 52 ≤ mantissa := by
    have digits : mantissa.log2 < 53 := (Nat.log2_lt positive.ne').2 bounded
    change mantissa.log2 + 1 = 53 ↔ _
    rw [← Nat.le_log2 positive.ne']
    omega
  simp only [pack, biased]
  rw [if_neg (by omega)]
  split
  next normal =>
    rw [isNormal] at normal
    have differs : ∀ other : BitVec 11, stored ≠ other.toNat → BitVec.ofNat 11 stored ≠ other :=
      fun other different same => different (by rw [← same, toNat_stored])
    have unpacked := unpack_normal sign (BitVec.ofNat 52 mantissa)
      (differs (-1#_) (by change stored ≠ 2047; omega)) (differs 0#_ (by change stored ≠ 0; omega))
    refine unpacked.trans ?_
    simp only [fraction, toNat_stored]
    congr 1
    omega
  next subnormal =>
    rw [isNormal] at subnormal
    have digits : (BitVec.ofNat 52 mantissa).toNat = mantissa := by
      rw [fraction, Nat.mod_eq_of_lt (by omega)]
    have unpacked := unpack_subnormal sign (digits.symm ▸ positive)
    refine unpacked.trans ?_
    simp only [digits]
    congr 1
    exact (full.resolve_left subnormal).symm

theorem unpack_pack_large {mantissa : Nat} {exponent : Int} (large : 971 < exponent) (sign : Sign)
    (positive : 0 < mantissa) :
    unpack Format.binary64 (pack Format.binary64 (.finite sign mantissa exponent positive)) =
      .infinity sign := by
  have bias : Format.binary64.exponentBias = 1023 := rfl
  simp only [pack, bias]
  rw [if_pos (by simp; omega)]
  cases sign <;> rfl

/-! ### Rounding -/

theorem mantissa_shiftRight (extended : ExtendedMantissa) (places : Nat) :
    (extended >>> places).mantissa = extended.mantissa / 2 ^ places := by
  induction places with
  | zero => simp [HShiftRight.hShiftRight, Nat.repeat]
  | succ places inductionHypothesis =>
      change (extended >>> places).mantissa / 2 = _
      rw [inductionHypothesis, Nat.div_div_eq_div_mul, Nat.pow_succ]

/-- Rounding takes the mantissa or the next one. -/
theorem roundedMantissa_bounds (extended : ExtendedMantissa) :
    extended.mantissa ≤ extended.roundedMantissa ∧
      extended.roundedMantissa ≤ extended.mantissa + 1 := by
  obtain ⟨mantissa, roundBit, stickyBit⟩ := extended
  cases roundBit <;> cases stickyBit <;>
    simp only [ExtendedMantissa.roundedMantissa, ExtendedMantissa.accuracy,
      Accuracy.roundToNearestEven] <;> omega

/-- The least exponent that leaves a mantissa no more digits than there is room for. -/
def target (mantissa : Nat) (exponent : Int) : Int :=
  max (mantissa.log2 + 1 + exponent - 53) (-1074)

theorem least_le_target (mantissa : Nat) (exponent : Int) : -1074 ≤ target mantissa exponent :=
  le_max_right _ _

theorem targetExponent_eq (mantissa : Nat) (exponent : Int) :
    Format.binary64.targetExponent (totalExponent mantissa exponent) = target mantissa exponent := rfl

/-- Up to the target exponent, digits are cut off; the rest fits. -/
theorem shifted_bounds {mantissa : Nat} {exponent : Int}
    (below : exponent ≤ target mantissa exponent) :
    let kept := mantissa / 2 ^ (target mantissa exponent - exponent).toNat
    kept < 2 ^ 53 ∧ (2 ^ 52 ≤ kept ∨ target mantissa exponent = -1074) := by
  obtain ⟨places, isTarget⟩ : ∃ places : Nat, target mantissa exponent = exponent + places :=
    ⟨(target mantissa exponent - exponent).toNat, by omega⟩
  have shift : (exponent + places - exponent).toNat = places := by omega
  simp only [isTarget, shift]
  rw [target] at isTarget
  constructor
  · rw [Nat.div_lt_iff_lt_mul (Nat.two_pow_pos places), ← Nat.pow_add]
    exact Nat.lt_of_lt_of_le Nat.lt_log2_self (Nat.pow_le_pow_right two_pos (by omega))
  · by_cases least : exponent + places = -1074
    · exact .inr least
    · have positive : 0 < mantissa := by
        rcases Nat.eq_zero_or_pos mantissa with rfl | positive
        · rw [Nat.log2_zero] at isTarget
          omega
        · exact positive
      refine .inl ((Nat.le_div_iff_mul_le (Nat.two_pow_pos places)).2 ?_)
      have digits : mantissa.log2 = 52 + places := by omega
      rw [← Nat.pow_add, ← digits]
      exact Nat.log2_self_le positive.ne'

theorem shiftToTargetExponent_of_lt {mantissa : Nat} {exponent : Int} (small : mantissa < 2 ^ 53)
    (least : -1074 ≤ exponent) :
    shiftToTargetExponent Format.binary64 mantissa exponent .exact =
      (⟨mantissa, false, false⟩, exponent) := by
  have digits : mantissa.log2 < 53 := by
    rcases Nat.eq_zero_or_pos mantissa with rfl | positive
    · decide
    · exact (Nat.log2_lt positive.ne').2 small
  have none : (target mantissa exponent - exponent).toNat = 0 := by
    rw [target]
    omega
  simp only [shiftToTargetExponent, targetExponent_eq, shiftToExponent, none]
  exact congrArg _ (Int.add_zero exponent)

theorem shiftToTargetExponent_two_pow {exponent : Int} (least : -1074 ≤ exponent) :
    shiftToTargetExponent Format.binary64 (2 ^ 53) exponent .exact =
      (⟨2 ^ 52, false, false⟩, exponent + 1) := by
  have one : (target (2 ^ 53) exponent - exponent).toNat = 1 := by
    rw [target, Nat.log2_two_pow]
    omega
  simp only [shiftToTargetExponent, targetExponent_eq, shiftToExponent, one]
  rfl

/-- The first shift cuts digits off, and the second one is needed only for a carry. -/
theorem roundWithAccuracy_of_shift (sign : Sign) {mantissa : Nat} {exponent reached : Int}
    {accuracy : Accuracy} {extended : ExtendedMantissa}
    (first : shiftToTargetExponent Format.binary64 mantissa exponent accuracy = (extended, reached))
    (least : -1074 ≤ reached) (bounded : extended.roundedMantissa ≤ 2 ^ 53) :
    let rounded := roundWithAccuracy Format.binary64 sign mantissa exponent accuracy
    extended.roundedMantissa = 0 ∧ rounded = .zero sign ∨
      extended.roundedMantissa < 2 ^ 53 ∧ (∃ positive,
        rounded = .finite sign extended.roundedMantissa reached positive) ∨
      rounded = .finite sign (2 ^ 52) (reached + 1) (by decide) := by
  simp only [roundWithAccuracy, first]
  obtain small | carry : extended.roundedMantissa < 2 ^ 53 ∨ extended.roundedMantissa = 2 ^ 53 := by
    omega
  · simp only [shiftToTargetExponent_of_lt small least]
    split
    next none => exact .inl ⟨none, rfl⟩
    next some => exact .inr (.inl ⟨small, Nat.pos_of_ne_zero some, rfl⟩)
  · simp only [carry, shiftToTargetExponent_two_pow least]
    exact .inr (.inr rfl)

/-- What rounding gives: zero, the digits that are kept or the next number, which may need one more
digit. -/
theorem roundWithAccuracy_cases {mantissa : Nat} {exponent : Int}
    (below : exponent ≤ target mantissa exponent) (sign : Sign) (accuracy : Accuracy) :
    let kept := mantissa / 2 ^ (target mantissa exponent - exponent).toNat
    let rounded := roundWithAccuracy Format.binary64 sign mantissa exponent accuracy
    kept = 0 ∧ rounded = .zero sign ∨
      (∃ next, ∃ fits : Fits next (target mantissa exponent), kept ≤ next ∧
        rounded = .finite sign next (target mantissa exponent) fits.positive) ∨
      rounded = .finite sign (2 ^ 52) (target mantissa exponent + 1) (by decide) := by
  let places := (target mantissa exponent - exponent).toNat
  let extended := ExtendedMantissa.ofMantissaAndAccuracy mantissa accuracy >>> places
  have bounds := shifted_bounds below
  have least := least_le_target mantissa exponent
  have kept : extended.mantissa = mantissa / 2 ^ places := by
    rw [mantissa_shiftRight]
    rcases accuracy with _ | _ | _ | _ <;> rfl
  have next := roundedMantissa_bounds extended
  have first : shiftToTargetExponent Format.binary64 mantissa exponent accuracy =
      (extended, target mantissa exponent) := by
    have reached : exponent + (places : Int) = target mantissa exponent := by omega
    rw [← reached]
    rfl
  rw [kept] at next
  obtain ⟨none, rounded⟩ | ⟨small, some, rounded⟩ | rounded :=
    roundWithAccuracy_of_shift sign first least (next.2.trans bounds.1)
  · exact .inl ⟨Nat.le_zero.1 (next.1.trans none.le), rounded⟩
  · exact .inr (.inl ⟨_, ⟨some, small, least, bounds.2.imp_left next.1.trans'⟩, next.1, rounded⟩)
  · exact .inr (.inr rounded)

/-! ### Parts and wholes -/

/-- Nothing is above what is rounded from at least as much. -/
theorem Fits.le_round {mantissa whole : Nat} {exponent unit : Int} (fits : Fits mantissa exponent)
    (below : unit ≤ exponent) (part : mantissa * 2 ^ (exponent - unit).toNat ≤ whole) :
    let rounded := UnpackedFloat.round Format.binary64 .positive whole unit
    (∃ next reached, ∃ settled : Fits next reached,
        rounded = .finite .positive next reached settled.positive) ∧
      UnpackedFloat.le (.finite .positive mantissa exponent fits.positive) rounded = true := by
  have positive : 0 < whole :=
    Nat.lt_of_lt_of_le (Nat.mul_pos fits.positive (Nat.two_pow_pos _)) part
  have above : exponent ≤ target whole unit := by
    rw [target]
    obtain full | least := fits.full
    · have digits : 2 ^ (52 + (exponent - unit).toNat) ≤ whole := by
        rw [Nat.pow_add]
        exact (Nat.mul_le_mul_right _ full).trans part
      rw [← Nat.le_log2 positive.ne'] at digits
      omega
    · omega
  have none : (unit - target whole unit).toNat = 0 := by omega
  have kept : exponent = target whole unit →
      mantissa ≤ whole / 2 ^ (target whole unit - unit).toNat := by
    intro same
    rw [← same]
    exact (Nat.le_div_iff_mul_le (Nat.two_pow_pos _)).2 part
  have least := fits.least
  have bounds := shifted_bounds (below.trans above)
  simp only [UnpackedFloat.round, targetExponent_eq, decreaseExponent, none, Nat.shiftLeft_zero,
    Nat.cast_zero, Int.sub_zero]
  obtain ⟨zero, _⟩ | ⟨next, settled, atLeast, rounded⟩ | rounded :=
    roundWithAccuracy_cases (below.trans above) .positive .exact
  · -- Digits are left of every mantissa above zero.
    have := fits.positive
    rw [zero] at bounds kept
    omega
  · rw [rounded, le_finite_iff]
    exact ⟨⟨next, _, settled, rfl⟩, by omega⟩
  · rw [rounded, le_finite_iff]
    exact ⟨⟨_, _, ⟨by decide, by decide, by omega, .inl le_rfl⟩, rfl⟩, .inl (by omega)⟩

/-- What an unpacked double is like when it has a mantissa. -/
def Settled : UnpackedFloat → Prop
  | .finite _ mantissa exponent _ => Fits mantissa exponent ∧ exponent ≤ 971
  | _ => True

theorem settled_unpack (bits : BitVec Format.binary64.numBits) :
    Settled (unpack Format.binary64 bits) := by
  cases unpacked : unpack Format.binary64 bits with
  | finite => exact fits_of_unpack unpacked
  | notANumber | infinity | zero => trivial

/-- The sum of two finite doubles above zero is rounded from the sum of their mantissas. -/
theorem add_finite {m n : Nat} {e f : Int} (positive : 0 < m) (positive' : 0 < n) :
    UnpackedFloat.add Format.binary64 (.finite .positive m e positive)
        (.finite .positive n f positive') =
      UnpackedFloat.round Format.binary64 .positive
        (m * 2 ^ (e - min e f).toNat + n * 2 ^ (f - min e f).toNat) (min e f) := by
  have some := Nat.add_pos_left (Nat.mul_pos positive (Nat.two_pow_pos (e - min e f).toNat))
    (n * 2 ^ (f - min e f).toNat)
  simp only [UnpackedFloat.add, decreaseExponent, Sign.apply, Nat.shiftLeft_eq, ← Nat.cast_add,
    UnpackedFloat.normalize, Int.compare_eq_gt.2 (Int.natCast_pos.2 some), Int.toNat_natCast]

/-- A double that is finite when it is packed was finite before. -/
theorem isFinite_of_pack {value : UnpackedFloat} (finite : (unpack Format.binary64
    (UnpackedFloat.pack Format.binary64 value)).isFinite = true) : value.isFinite = true := by
  cases value with
  | zero | finite => rfl
  | infinity sign => cases sign <;> exact finite
  | notANumber => exact finite

/-- Neither term is above a sum that is finite. -/
theorem le_unpack_pack_add {a b : UnpackedFloat} (ofFirst : Settled a) (ofSecond : Settled b)
    (first : Toward .positive a) (second : Toward .positive b)
    (finite : (unpack Format.binary64 (UnpackedFloat.pack Format.binary64
      (UnpackedFloat.add Format.binary64 a b))).isFinite = true) :
    let sum := unpack Format.binary64 (UnpackedFloat.pack Format.binary64
      (UnpackedFloat.add Format.binary64 a b))
    a.isFinite = true ∧ a.le sum = true ∧ b.le sum = true := by
  cases a with
  | notANumber => cases isFinite_of_pack finite
  | infinity =>
      cases first
      cases b with
      | notANumber | zero | finite => cases isFinite_of_pack finite
      | infinity => cases second; cases isFinite_of_pack finite
  | zero sign =>
      cases b with
      | notANumber => cases isFinite_of_pack finite
      | infinity => cases second; cases isFinite_of_pack finite
      | zero sign' => cases sign <;> cases sign' <;> exact ⟨rfl, rfl, rfl⟩
      | finite =>
          cases second
          simp only [UnpackedFloat.add, unpack_pack ofSecond.1 ofSecond.2]
          exact ⟨rfl, rfl, le_self rfl (Signed.ne rfl)⟩
  | finite =>
      cases first
      cases b with
      | notANumber => cases isFinite_of_pack finite
      | infinity => cases second; cases isFinite_of_pack finite
      | zero =>
          simp only [UnpackedFloat.add, unpack_pack ofFirst.1 ofFirst.2]
          exact ⟨rfl, le_self rfl (Signed.ne rfl), rfl⟩
      | finite =>
          cases second
          rw [add_finite] at finite ⊢
          obtain ⟨⟨next, reached, settled, rounded⟩, atMost⟩ :=
            ofFirst.1.le_round (min_le_left _ _) (Nat.le_add_right _ _)
          obtain ⟨_, atMost'⟩ := ofSecond.1.le_round (min_le_right _ _) (Nat.le_add_left _ _)
          rw [rounded] at finite atMost atMost' ⊢
          obtain small | large := le_or_gt reached 971
          · rw [unpack_pack settled small]
            exact ⟨rfl, atMost, atMost'⟩
          · rw [unpack_pack_large large] at finite
            cases finite

/-- A number divided by itself is one. -/
theorem div_self {mantissa : Nat} {exponent : Int} (positive : 0 < mantissa) :
    UnpackedFloat.div Format.binary64 (.finite .positive mantissa exponent positive)
        (.finite .positive mantissa exponent positive) =
      .finite .positive (2 ^ 52) (-52) (by decide) := by
  have core : divCore Format.binary64 mantissa exponent mantissa exponent =
      (2 ^ 53, -53, .exact) := by
    have digits : mantissa <<< 53 = mantissa * 2 ^ 53 := Nat.shiftLeft_eq ..
    simp only [divCore, Int.sub_self]
    change ((mantissa <<< 53) / mantissa, (-53 : Int),
      accuracyOfFraction ((mantissa <<< 53) % mantissa) mantissa) = _
    rw [digits, Nat.mul_div_cancel_left _ positive, Nat.mul_mod_right]
    rfl
  simp only [UnpackedFloat.div, core]
  rfl

section Quotients

variable {m n : Nat} {e f : Int}

/-- The lesser number has no more leading digits. -/
theorem Fits.log2_le (ofPart : Fits m e) (ofWhole : Fits n f) (less : e < f ∨ e = f ∧ m < n) :
    m.log2 + e ≤ n.log2 + f := by
  have digits : m.log2 < 53 := (Nat.log2_lt ofPart.positive.ne').2 ofPart.bounded
  have least := ofPart.least
  obtain below | ⟨rfl, below⟩ := less
  · have full := ofWhole.full.resolve_right (by omega)
    have atLeast : 52 ≤ n.log2 := (Nat.le_log2 ofWhole.positive.ne').2 full
    omega
  · have monotone : m.log2 ≤ n.log2 := (Nat.le_log2 ofWhole.positive.ne').2
      ((Nat.log2_self_le ofPart.positive.ne').trans below.le)
    omega

/-- The lesser number is less in units of the lesser exponent. -/
theorem Fits.lt_mul_two_pow (ofPart : Fits m e) (ofWhole : Fits n f)
    (less : e < f ∨ e = f ∧ m < n) : m < n * 2 ^ (f - e).toNat := by
  have least := ofPart.least
  obtain below | ⟨rfl, below⟩ := less
  · have full := ofWhole.full.resolve_right (by omega)
    obtain ⟨places, isPlaces⟩ : ∃ places, (f - e).toNat = places + 1 :=
      ⟨(f - e).toNat - 1, by omega⟩
    calc m < 2 ^ 52 * 2 := ofPart.bounded
      _ ≤ n * 2 ^ (f - e).toNat := by
          rw [isPlaces, Nat.pow_succ]
          exact Nat.mul_le_mul full (Nat.le_mul_of_pos_left 2 (Nat.two_pow_pos places))
  · rwa [Int.sub_self, Int.toNat_zero, Nat.pow_zero, Nat.mul_one]

/-- A quotient is that of the mantissas, the first one with some more places, which leave at least as
many digits as there is room for. -/
theorem divCore_eq (m n : Nat) (e f : Int) : ∃ (unit : Int) (places : Nat), e - f = unit + places ∧
    unit ≤ max (m.log2 + e - (n.log2 + f) - 53) (-1074) ∧
      divCore Format.binary64 m e n f =
        (m * 2 ^ places / n, unit, accuracyOfFraction (m * 2 ^ places % n) n) := by
  obtain ⟨unit, isUnit⟩ : ∃ unit, unit = min (e - f) (Format.binary64.targetExponent
    (totalExponent m e - totalExponent n f)) := ⟨_, rfl⟩
  have total : Format.binary64.targetExponent (totalExponent m e - totalExponent n f) =
      max (m.log2 + 1 + e - (n.log2 + 1 + f) - 53) (-1074) := rfl
  obtain ⟨places, isPlaces⟩ : ∃ places : Nat, e - f = unit + places :=
    ⟨(e - f - unit).toNat, by omega⟩
  have shift : (e - f - unit).toNat = places := by omega
  refine ⟨unit, places, isPlaces, by omega, ?_⟩
  simp only [divCore, ← isUnit, shift, Nat.shiftLeft_eq]

/-- The quotient by a greater number is less than one, and has as many digits as there is room
for. -/
theorem divCore_bounds (ofPart : Fits m e) (ofWhole : Fits n f) (less : e < f ∨ e = f ∧ m < n) :
    let core := divCore Format.binary64 m e n f
    core.2.1 ≤ target core.1 core.2.1 ∧ target core.1 core.2.1 ≤ -53 := by
  have leading := ofPart.log2_le ofWhole less
  have below := ofPart.lt_mul_two_pow ofWhole less
  obtain ⟨unit, places, isPlaces, unit_le, isCore⟩ := divCore_eq m n e f
  simp only [isCore]
  constructor
  · by_cases tiny : unit ≤ -1074
    · exact tiny.trans (least_le_target ..)
    · have enough : n * 2 ^ 52 ≤ m * 2 ^ places := by
        calc n * 2 ^ 52 ≤ 2 ^ (n.log2 + 1) * 2 ^ 52 :=
              Nat.mul_le_mul_right _ Nat.lt_log2_self.le
          _ = 2 ^ (n.log2 + 53) := by rw [← Nat.pow_add]
          _ ≤ 2 ^ (m.log2 + places) := Nat.pow_le_pow_right two_pos (by omega)
          _ ≤ m * 2 ^ places := by
              rw [Nat.pow_add]
              exact Nat.mul_le_mul_right _ (Nat.log2_self_le ofPart.positive.ne')
      have quotient : 2 ^ 52 ≤ m * 2 ^ places / n := by
        rwa [Nat.le_div_iff_mul_le ofWhole.positive, Nat.mul_comm]
      have atLeast := (Nat.le_log2 (by omega)).2 quotient
      rw [target]
      omega
  · have quotient : m * 2 ^ places / n < 2 ^ ((f - e).toNat + places) := by
      rw [Nat.div_lt_iff_lt_mul ofWhole.positive]
      calc m * 2 ^ places < n * 2 ^ (f - e).toNat * 2 ^ places :=
            Nat.mul_lt_mul_of_pos_right below (Nat.two_pow_pos places)
        _ = 2 ^ ((f - e).toNat + places) * n := by rw [Nat.pow_add]; ring
    rw [target]
    rcases Nat.eq_zero_or_pos (m * 2 ^ places / n) with zero | positive
    · rw [zero, Nat.log2_zero]
      omega
    · have digits := (Nat.log2_lt positive.ne').2 quotient
      omega

/-- A number above zero has a share of at most one in what is at least as much. -/
theorem Fits.div_le_one (ofPart : Fits m e) (ofWhole : Fits n f) (atMost : e < f ∨ e = f ∧ m ≤ n) :
    (unpack Format.binary64 (UnpackedFloat.pack Format.binary64 (UnpackedFloat.div Format.binary64
      (.finite .positive m e ofPart.positive) (.finite .positive n f ofWhole.positive)))).le
        (.finite .positive (2 ^ 52) (-52) (by decide)) = true := by
  obtain less | ⟨rfl, rfl⟩ : (e < f ∨ e = f ∧ m < n) ∨ e = f ∧ m = n := by omega
  · obtain ⟨enough, below⟩ := divCore_bounds ofPart ofWhole less
    have same : (.positive / .positive : Sign) = .positive := rfl
    simp only [UnpackedFloat.div, same]
    obtain ⟨_, rounded⟩ | ⟨next, settled, _, rounded⟩ | rounded :=
      roundWithAccuracy_cases enough .positive (divCore Format.binary64 m e n f).2.2
    · rw [rounded, UnpackedFloat.pack, unpack_packedZero]
      rfl
    · rw [rounded, unpack_pack settled (by omega), le_finite_iff]
      omega
    · have least := least_le_target (divCore Format.binary64 m e n f).1
        (divCore Format.binary64 m e n f).2.1
      rw [rounded, unpack_pack ⟨by decide, by decide, by omega, .inl le_rfl⟩ (by omega),
        le_finite_iff]
      omega
  · rw [div_self]
    rfl

end Quotients

/-- A part of a finite whole has a share of at most one. -/
theorem unpack_pack_div_le_one {a b : UnpackedFloat} (ofPart : Settled a) (ofWhole : Settled b)
    (part : Toward .positive a) (whole : Signed .positive b) (finite : b.isFinite = true)
    (nonzero : b ≠ .zero .positive) (atMost : a.le b = true) :
    (unpack Format.binary64 (UnpackedFloat.pack Format.binary64
      (UnpackedFloat.div Format.binary64 a b))).le
        (.finite .positive (2 ^ 52) (-52) (by decide)) = true := by
  cases b with
  | notANumber | infinity => cases finite
  | zero => cases whole; exact absurd rfl nonzero
  | finite =>
      cases whole
      cases a with
      | notANumber => cases atMost
      | infinity => cases part; cases atMost
      | zero sign =>
          rw [UnpackedFloat.div, UnpackedFloat.pack, unpack_packedZero]
          rfl
      | finite =>
          cases part
          exact ofPart.1.div_le_one ofWhole.1 (le_finite_iff.1 atMost)

end NumberConcepts.Double
