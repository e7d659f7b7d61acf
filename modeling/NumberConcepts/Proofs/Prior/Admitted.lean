import NumberConcepts.Proofs.Double
import NumberConcepts.Proofs.Prior
import NumberConcepts.Proofs.Settings
/-!
# Priors that pass the checks

The checks of settings let infinite weights pass, and undefined divisors and sizes: they
compare each value with zero, and an undefined value only where weights are given by kind.
`PriorReading.admitted_of_read` is what they guarantee of every prior that is read.
-/

namespace NumberConcepts

/-- What the checks of settings guarantee of a prior. Each field may be infinite, and all but the
weights that are given may be undefined. -/
structure Prior.Admitted {α : Type} [Scalar α] (prior : Prior α) : Prop where
  weights : ∀ entry ∈ prior.weights, Scalar.le Scalar.zero entry.2 = true
  defaultWeight : Scalar.lt prior.defaultWeight Scalar.zero = false
  divisor : ∀ value, prior.divisor = .fixed value → Scalar.le value Scalar.zero = false
  preferredSize : ∀ preference, prior.sizePreference = some preference →
    Scalar.le preference.preferredSize Scalar.zero = false
  spread : ∀ preference, prior.sizePreference = some preference →
    Scalar.le preference.spread Scalar.zero = false

/-- With finite weights the checks are passed. -/
theorem Prior.FinitelyWeighted.admitted {prior : Prior Exact} (finite : prior.FinitelyWeighted) :
    prior.Admitted where
  weights entry listed := by
    obtain ⟨weight, nonnegative, isReal⟩ := finite.weights entry listed
    simpa [isReal] using nonnegative
  defaultWeight := by
    obtain ⟨weight, nonnegative, isReal⟩ := finite.defaultWeight
    simpa [isReal] using nonnegative
  divisor := finite.divisor
  preferredSize := finite.preferredSize
  spread := finite.spread

/-! ### Priors that are read -/

namespace PriorReading

/-- Weights that are accepted are at least zero. -/
theorem zero_le_of_acceptWeights {given : List (String × Float)} {accepted : List (Tag × Float)}
    (passes : acceptWeights given = .valid accepted) :
    ∀ entry ∈ accepted, Scalar.le Scalar.zero entry.2 = true := by
  induction given generalizing accepted with
  | nil => cases passes; exact List.forall_mem_nil _
  | cons first rest inductionHypothesis =>
      obtain ⟨name, weight⟩ := first
      simp only [acceptWeights, Checked.andThen_eq_valid, Checked.map_eq_valid] at passes
      obtain ⟨entry, isFirst, others, areRest, rfl⟩ := passes
      refine List.forall_mem_cons.2 ⟨?_, inductionHypothesis areRest⟩
      rw [acceptWeight] at isFirst
      split at isFirst
      next => cases isFirst
      next =>
        split at isFirst
        next => cases isFirst
        next passed =>
          cases isFirst
          rw [Bool.or_eq_true, not_or, decide_eq_true_iff, Bool.not_eq_true] at passed
          exact Double.zero_le_of_not_lt (Double.lt_zero_eq_false_iff.2 passed.1) passed.2

/-- A positive number is not zero or less. -/
theorem not_le_of_positive {value : Datum} {x : Float} (passes : positive value = .valid x) :
    Scalar.le x Scalar.zero = false := by
  obtain ⟨given, _, checks⟩ := Checked.andThen_eq_valid.1 passes
  split at checks
  next => cases checks
  next above => cases checks; exact Double.le_zero_eq_false_iff.2 above

theorem not_lt_of_nonNegative {value : Datum} {x : Float} (passes : nonNegative value = .valid x) :
    Scalar.lt x Scalar.zero = false := by
  obtain ⟨given, _, checks⟩ := Checked.andThen_eq_valid.1 passes
  split at checks
  next => cases checks
  next notBelow => cases checks; exact Double.lt_zero_eq_false_iff.2 notBelow

theorem not_le_of_divisor {value : Datum} {accepted : IntervalDivisor Float}
    (passes : divisor value = .valid accepted) :
    ∀ x, accepted = .fixed x → Scalar.le x Scalar.zero = false := by
  rintro x rfl
  unfold divisor at passes
  split at passes
  next => cases passes
  next =>
    split at passes
    next => cases passes
    next above => cases passes; exact Double.le_zero_eq_false_iff.2 above
  next => cases passes

/-- A preference that passes has a size and a spread that are not zero or less. -/
theorem of_sizePreference {value : Datum} {preference : SizePreference Float}
    (passes : sizePreference value = .valid preference) :
    Scalar.le preference.preferredSize Scalar.zero = false ∧
      Scalar.le preference.spread Scalar.zero = false := by
  simp only [sizePreference, Checked.andThen_eq_valid, Checked.seq_eq_valid,
    Checked.functor_map_eq_valid] at passes
  obtain ⟨_, _, _, _, ⟨_, isSize, rfl⟩, isSpread, rfl⟩ := passes
  exact ⟨Lax.field_satisfies (Scalar.le · Scalar.zero = false) isSize (by decide)
      fun _ _ => not_le_of_positive,
    Lax.field_satisfies (Scalar.le · Scalar.zero = false) isSpread (by decide)
      fun _ _ => not_le_of_positive⟩

/-- The fields of a record give a prior that passes the checks. -/
theorem admitted_of_described {fields : List (String × Datum)} {prior : Prior Float}
    (passes : described fields = .valid prior) : prior.Admitted := by
  simp only [described, Checked.seq_eq_valid, Checked.functor_map_eq_valid] at passes
  obtain ⟨_, _, ⟨_, _, ⟨_, _, ⟨_, _, ⟨_, _, rfl⟩, areWeights, rfl⟩, isDefault, rfl⟩, isDivisor, rfl⟩,
    isPreference, rfl⟩ := passes
  have preferences := Lax.field_satisfies
    (fun accepted : Option (SizePreference Float) => ∀ preference, accepted = some preference →
      Scalar.le preference.preferredSize Scalar.zero = false ∧
        Scalar.le preference.spread Scalar.zero = false) isPreference (by rintro _ ⟨⟩) (by
      intro value accepted reads preference isSome
      subst isSome
      unfold optionalPreference at reads
      split at reads
      next => cases reads
      next =>
        obtain ⟨_, passes, same⟩ := Checked.map_eq_valid.1 reads
        cases same
        exact of_sizePreference passes)
  exact {
    weights := Lax.field_satisfies
      (fun accepted : List (Tag × Float) => ∀ entry ∈ accepted, Scalar.le Scalar.zero entry.2 = true)
      areWeights (List.forall_mem_nil _) (by
        intro value accepted reads
        unfold weights at reads
        split at reads
        next =>
          obtain ⟨_, _, passes⟩ := Checked.andThen_eq_valid.1 reads
          exact zero_le_of_acceptWeights passes
        next => cases reads)
    defaultWeight := Lax.field_satisfies (Scalar.lt · Scalar.zero = false) isDefault (by decide)
      fun _ _ => not_lt_of_nonNegative
    divisor := Lax.field_satisfies
      (fun accepted : IntervalDivisor Float =>
        ∀ x, accepted = .fixed x → Scalar.le x Scalar.zero = false)
      isDivisor (by rintro _ ⟨⟩; decide) fun _ _ => not_le_of_divisor
    preferredSize := fun preference isSome => (preferences preference isSome).1
    spread := fun preference isSome => (preferences preference isSome).2 }

/-- Every prior with a name passes the checks. -/
theorem admitted_of_named? {name : String} {prior : Prior Float}
    (named : Prior.named? name = some prior) : prior.Admitted := by
  have listed := List.mem_of_find?_eq_some named
  have fixed : ∀ x : Float, Scalar.le x Scalar.zero = false → ∀ value,
      IntervalDivisor.fixed x = .fixed value → Scalar.le value Scalar.zero = false := by
    rintro x positive _ ⟨⟩
    exact positive
  have noPreference : ∀ {holds : SizePreference Float → Prop} preference,
      none = some preference → holds preference := by
    rintro _ _ ⟨⟩
  simp only [List.mem_cons, List.not_mem_nil, or_false] at listed
  rcases listed with rfl | rfl | rfl | rfl
  case inl =>
    exact ⟨List.forall_mem_nil _, by decide, fixed _ (by decide), noPreference, noPreference⟩
  case inr.inl => exact ⟨by decide, by decide, fixed _ (by decide), noPreference, noPreference⟩
  case inr.inr.inl =>
    exact ⟨by decide, by decide, fixed _ (by decide), noPreference, noPreference⟩
  case inr.inr.inr =>
    refine ⟨List.forall_mem_nil _, by decide, fixed _ (by decide), ?_, ?_⟩
    · rintro _ ⟨⟩
      decide
    · rintro _ ⟨⟩
      decide

/-- What is read for a prior passes the checks. -/
theorem admitted_of_read {value : Datum} {prior : Prior Float}
    (passes : read value = .ok (.valid prior)) : prior.Admitted := by
  have ofName : ∀ name, named name = .ok (.valid prior) → prior.Admitted := by
    intro name isNamed
    unfold named at isNamed
    split at isNamed
    next => cases isNamed
    next => cases isNamed
    next =>
      have accepted := Except.ok.inj isNamed
      split at accepted
      next =>
        split at accepted
        next found => cases accepted; exact admitted_of_named? found
        next => cases accepted
      next => cases accepted
  unfold read at passes
  split at passes
  next => exact ofName _ passes
  next => exact ofName _ passes
  next => exact admitted_of_described (Except.ok.inj passes)
  next => cases passes

/-- The prior that is read, if there is one. -/
def accepted? (value : Datum) : Option (Prior Float) :=
  match read value with
  | .ok (.valid prior) => some prior
  | _ => none

theorem read_of_accepted? {value : Datum} {prior : Prior Float}
    (accepted : accepted? value = some prior) : read value = .ok (.valid prior) := by
  unfold accepted? at accepted
  split at accepted
  next same => cases accepted; exact same
  next => cases accepted

end PriorReading

end NumberConcepts
