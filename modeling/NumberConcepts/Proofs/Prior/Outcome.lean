import NumberConcepts.Proofs.Double.Laws
import NumberConcepts.Proofs.Prior.Admitted
/-!
# Outcomes under priors that pass the checks

The weights and the total are compared with zero before they are divided, but their
quotient is not, and neither is twice the square of the spread. Both may come out as
zero where the parts are above it: under an infinite total, and for doubles also for
weights that are finite. `Prior.Outcome` says of every scalar, doubles and scalars
without rounding, when the logarithm of the weight of a concept is a fault, and when it
is a number or minus infinity.
-/

namespace NumberConcepts

variable {α : Type} [Scalar α]

namespace Prior

variable {prior : Prior α} {size : Nat} {tags : List Tag} {concept : Concept} {count : Option Int}

/-- The total is finite, and where a size is preferred and the number of members is given, the factor
for it has a quotient. -/
structure Sound (prior : Prior α) (size : Nat) (count : Option Int) : Prop where
  total : Scalar.isFinite (prior.totalWeight size) = true
  factor : ∀ preference number, prior.sizePreference = some preference → count = some number →
    Scalar.HasQuotient (preference.squaredDistance number) preference.doubledSquare

/-- How the logarithm of the weight of a concept comes out. -/
structure Outcome (prior : Prior α) (size : Nat) (concept : Concept) (count : Option Int) :
    Prop where
  fault : ∀ fault, prior.logPrior size concept count = .error fault ↔
    prior.Fails size concept count fault
  weightless : prior.Weightless size concept →
    prior.logPrior size concept count = .ok Scalar.negInf
  /-- Where it is no fault, it is a number or minus infinity for a concept without weight and under a
  sound prior, and undefined or infinite for all others. -/
  logarithm : Scalar.Logarithmic α → ∀ logarithm,
    prior.logPrior size concept count = .ok logarithm →
      (Scalar.IsLogarithm logarithm ↔ prior.Weightless size concept ∨ prior.Sound size count)

namespace Admitted

variable [Scalar.Rounding α] (admitted : prior.Admitted)

include admitted

theorem notBelow_tagWeight (size : Nat) (tag : Tag) : Scalar.NotBelow (prior.tagWeight size tag) := by
  have given : Scalar.NotBelow ((prior.weights.lookup tag).getD prior.defaultWeight) :=
    prior.lookup_satisfies Scalar.NotBelow
      (fun entry listed => Scalar.Rounding.notBelow_of_le (admitted.weights entry listed))
      admitted.defaultWeight tag
  simp only [tagWeight]
  split
  · cases divides : prior.divisor with
    | fixed value => exact Scalar.Rounding.notBelow_div given (admitted.divisor value divides)
    | exact => exact Scalar.Rounding.notBelow_div_ofNat _ given
  · exact given

/-- Under a finite total no share is more than the whole, so that no sum of logarithms is above
zero. -/
theorem logSum_le_zero (laws : Scalar.Logarithmic α)
    (total : Scalar.le (prior.totalWeight size) Scalar.zero = false)
    (finite : Scalar.isFinite (prior.totalWeight size) = true)
    (shares : ∀ tag ∈ tags, prior.HasShare size tag) {logarithm : α}
    (starts : Scalar.le logarithm Scalar.zero = true) :
    Scalar.le (prior.logSum size logarithm tags) Scalar.zero = true := by
  induction tags generalizing logarithm with
  | nil => exact starts
  | cons first rest inductionHypothesis =>
      obtain ⟨now, later⟩ := List.forall_mem_cons.1 shares
      have notBelow := admitted.notBelow_tagWeight size
      have part : Scalar.le (prior.tagWeight size first) (prior.totalWeight size) = true :=
        Scalar.le_sum (List.forall_mem_map.2 fun tag _ => notBelow tag) finite _
          (List.mem_map_of_mem first.mem_all)
      have atMost := Scalar.Rounding.div_le_one (notBelow first) part finite total
      exact inductionHypothesis later
        (Scalar.Rounding.add_le_zero starts (laws.log_le_zero now.share atMost))

/-- Under any other total a share that is not zero or less is undefined, and so is the sum. -/
theorem isUndefined_logSum (laws : Scalar.Logarithmic α)
    (total : Scalar.le (prior.totalWeight size) Scalar.zero = false)
    (infinite : Scalar.isFinite (prior.totalWeight size) = false)
    (shares : ∀ tag ∈ tags, prior.HasShare size tag) (logarithm : α)
    (starts : Scalar.IsUndefined logarithm ∨ tags ≠ []) :
    Scalar.IsUndefined (prior.logSum size logarithm tags) := by
  induction tags generalizing logarithm with
  | nil => exact starts.resolve_right (absurd rfl)
  | cons first rest inductionHypothesis =>
      obtain ⟨now, later⟩ := List.forall_mem_cons.1 shares
      have share := (Scalar.Rounding.div_endless (admitted.notBelow_tagWeight size first) total
        infinite).resolve_left (Bool.eq_false_iff.1 now.share)
      exact inductionHypothesis later _
        (.inl (Scalar.Rounding.isUndefined_add (.inr (laws.isUndefined_log share))))

/-- The sum of the logarithms of all shares is not above zero under a finite total, and undefined
under any other. -/
theorem logSum_cases (laws : Scalar.Logarithmic α)
    (total : Scalar.le (prior.totalWeight size) Scalar.zero = false)
    (shares : ∀ tag ∈ concept.tags, prior.HasShare size tag) :
    let sum := prior.logSum size Scalar.zero concept.tags
    let finite := Scalar.isFinite (prior.totalWeight size) = true
    finite ∧ Scalar.le sum Scalar.zero = true ∨ ¬finite ∧ Scalar.IsUndefined sum := by
  by_cases finite : Scalar.isFinite (prior.totalWeight size) = true
  · exact .inl ⟨finite,
      admitted.logSum_le_zero laws total finite shares Scalar.Rounding.zero_le_zero⟩
  · have nodes : concept.tags ≠ [] := by cases concept <;> exact List.cons_ne_nil _ _
    exact .inr ⟨finite,
      admitted.isUndefined_logSum laws total (Bool.eq_false_iff.2 finite) shares _ (.inr nodes)⟩

/-- The factor for the size is not above zero where it has a quotient, and undefined elsewhere. -/
theorem factor_cases {preference : SizePreference α}
    (prefers : prior.sizePreference = some preference)
    (square : Scalar.beq preference.doubledSquare Scalar.zero = false) (number : Int) :
    let factor := -preference.squaredDistance number / preference.doubledSquare
    let quotient := Scalar.HasQuotient (preference.squaredDistance number) preference.doubledSquare
    quotient ∧ Scalar.le factor Scalar.zero = true ∨ ¬quotient ∧ Scalar.IsUndefined factor := by
  have spread := Scalar.Rounding.notBelow_of_not_le (admitted.spread preference prefers)
  have notBelow : Scalar.NotBelow preference.doubledSquare := Scalar.Rounding.notBelow_mul
    (Scalar.Rounding.notBelow_mul (Scalar.Rounding.notBelow_ofNat 2) spread) spread
  have positive : Scalar.le preference.doubledSquare Scalar.zero = false :=
    Bool.eq_false_iff.2 fun atMost =>
      Bool.eq_false_iff.1 square (Scalar.Rounding.beq_zero notBelow atMost)
  have distance : Scalar.NotBelow (preference.squaredDistance number) :=
    Scalar.Rounding.notBelow_square _
  dsimp only
  by_cases quotient :
      Scalar.HasQuotient (preference.squaredDistance number) preference.doubledSquare
  · exact .inl ⟨quotient, Scalar.Rounding.neg_div_le_zero distance positive quotient⟩
  · exact .inr ⟨quotient, Scalar.Rounding.isUndefined_neg_div distance positive quotient⟩

/-- Where all nodes have shares, the value is a logarithm exactly under a sound prior. -/
theorem isLogarithm_iff_sound (laws : Scalar.Logarithmic α)
    (total : Scalar.le (prior.totalWeight size) Scalar.zero = false)
    (shares : ∀ tag ∈ concept.tags, prior.HasShare size tag) {logarithm : α}
    (found : prior.logPrior size concept count = .ok logarithm) :
    Scalar.IsLogarithm logarithm ↔ prior.Sound size count := by
  have sums := admitted.logSum_cases laws total shares
  have unsized : prior.sizePreference = none ∨ count = none →
      (Scalar.IsLogarithm logarithm ↔ prior.Sound size count) := by
    intro none
    rw [logPrior_eq_logSum total shares none] at found
    cases found
    rw [Scalar.isLogarithm_iff_of_cases sums]
    refine ⟨fun finite => ⟨finite, fun preference number prefers counts => ?_⟩, Sound.total⟩
    rcases none with none | none
    · rw [none] at prefers; cases prefers
    · rw [none] at counts; cases counts
  cases prefers : prior.sizePreference with
  | none => exact unsized (.inl prefers)
  | some preference =>
      cases count with
      | none => exact unsized (.inr rfl)
      | some number =>
          rw [logPrior_eq_factor total shares prefers] at found
          split at found
          next => cases found
          next square =>
            cases found
            have factors := admitted.factor_cases prefers (Bool.eq_false_iff.2 square) number
            rw [Scalar.isLogarithm_add_iff sums factors]
            constructor
            · rintro ⟨finite, quotient⟩
              refine ⟨finite, ?_⟩
              rintro other _ same ⟨⟩
              cases prefers.symm.trans same
              exact quotient
            · intro sound
              exact ⟨sound.total, sound.factor preference number prefers rfl⟩

/-- The logarithm of the weight of a concept under a prior that passes the checks. -/
theorem outcome (size : Nat) (concept : Concept) (count : Option Int) :
    prior.Outcome size concept count where
  fault _ := logPrior_eq_error_iff
  weightless weightless := weightless.logPrior_eq_negInf count
  logarithm laws logarithm found := by
    by_cases weightless : prior.Weightless size concept
    · rw [weightless.logPrior_eq_negInf] at found
      cases found
      exact iff_of_true Scalar.Rounding.isLogarithm_negInf (.inl weightless)
    · obtain ⟨total, shares⟩ := shares_of_logPrior_eq_ok found weightless
      rw [admitted.isLogarithm_iff_sound laws total shares found, or_iff_right weightless]

end Admitted

end Prior

/-! ### Faults under priors that are read -/

namespace PriorReading

/-- A prior that is read faults at a terminal where the comparisons say so. -/
theorem exists_fails_share (value : Datum) (size : Nat) (leaf : Terminal) (holds : Prior Float → Bool)
    (evaluated : (accepted? value).any (fun prior => holds prior &&
      !Scalar.le (prior.totalWeight size) Scalar.zero &&
      !Scalar.le (prior.tagWeight size leaf.tag) Scalar.zero &&
      Scalar.le (prior.tagWeight size leaf.tag / prior.totalWeight size) Scalar.zero) = true) :
    ∃ prior, read value = .ok (.valid prior) ∧ holds prior = true ∧
      prior.Fails size (.terminal leaf) none .logarithmDomain := by
  obtain ⟨prior, accepted, compared⟩ := (Option.any_eq_true ..).1 evaluated
  simp only [Bool.and_eq_true, Bool.not_eq_true'] at compared
  obtain ⟨⟨⟨held, total⟩, weight⟩, share⟩ := compared
  exact ⟨prior, read_of_accepted? accepted, held,
    .share total ⟨[], [], rfl, List.forall_mem_nil _⟩ weight share⟩

theorem exists_fails_spread (value : Datum) (size : Nat) (leaf : Terminal) (number : Int)
    (evaluated : (accepted? value).any (fun prior =>
      !Scalar.le (prior.totalWeight size) Scalar.zero &&
      !Scalar.le (prior.tagWeight size leaf.tag) Scalar.zero &&
      !Scalar.le (prior.tagWeight size leaf.tag / prior.totalWeight size) Scalar.zero &&
      prior.sizePreference.any fun preference =>
        Scalar.beq preference.doubledSquare Scalar.zero) = true) :
    ∃ prior, read value = .ok (.valid prior) ∧
      prior.Fails size (.terminal leaf) (some number) .zeroDivisor := by
  obtain ⟨prior, accepted, compared⟩ := (Option.any_eq_true ..).1 evaluated
  simp only [Bool.and_eq_true, Bool.not_eq_true', Option.any_eq_true] at compared
  obtain ⟨⟨⟨total, weight⟩, share⟩, preference, prefers, square⟩ := compared
  exact ⟨prior, read_of_accepted? accepted,
    .spread total (List.forall_mem_singleton.2 ⟨weight, share⟩) prefers rfl square⟩

end PriorReading

/-- Finite weights are no safeguard for doubles: the share of a tiny weight in a huge total is rounded
to zero. Neither is a spread above zero, whose square may be rounded to zero. Without rounding the
uniform prior is sound. -/
theorem Prior.Admitted.outcome_of_rounding :
    (∃ prior : Prior Float,
      PriorReading.read (.record [("weights",
          .record [("odd", .text "1e-320"), ("prime", .text "1e300")])]) = .ok (.valid prior) ∧
        prior.Admitted ∧
        Tag.all.all (fun tag => Scalar.isFinite (prior.tagWeight 100 tag)) = true ∧
        prior.logPrior 100 (.terminal (.primitive .odd)) none = .error .logarithmDomain) ∧
      (∃ prior : Prior Float,
        PriorReading.read (.record [("size_preference", .record [("spread", .text "1e-200")])]) =
            .ok (.valid prior) ∧ prior.Admitted ∧
          prior.logPrior 100 (.terminal (.primitive .odd)) (some 50) = .error .zeroDivisor) ∧
      Scalar.Logarithmic Exact ∧ (uniform : Prior Exact).Admitted ∧
        (uniform : Prior Exact).Sound 100 none := by
  refine ⟨?_, ?_, Exact.logarithmic, ?_⟩
  · obtain ⟨prior, reads, finite, fails⟩ := PriorReading.exists_fails_share
      (.record [("weights", .record [("odd", .text "1e-320"), ("prime", .text "1e300")])])
      100 (.primitive .odd)
      (fun prior => Tag.all.all fun tag => Scalar.isFinite (prior.tagWeight 100 tag))
      (by decide +kernel)
    have admitted := PriorReading.admitted_of_read reads
    exact ⟨prior, reads, admitted, finite, ((admitted.outcome 100 _ none).fault _).2 fails⟩
  · obtain ⟨prior, reads, fails⟩ := PriorReading.exists_fails_spread
      (.record [("size_preference", .record [("spread", .text "1e-200")])])
      100 (.primitive .odd) 50 (by decide +kernel)
    have admitted := PriorReading.admitted_of_read reads
    exact ⟨prior, reads, admitted, ((admitted.outcome 100 _ (some 50)).fault _).2 fails⟩
  · have named : Prior.named? "uniform" = some (uniform : Prior Exact) := rfl
    have admitted := (FinitelyWeighted.of_named named).admitted
    have outcome := admitted.outcome 100 (.terminal (.primitive .odd)) none
    have found := logPrior_uniform_terminal 100 (.primitive .odd) none
    refine ⟨admitted, ((outcome.logarithm Exact.logarithmic _ found).1 (.inl rfl)).resolve_left ?_⟩
    intro weightless
    have none := outcome.weightless weightless
    rw [found] at none
    cases none

/-- Primes may be given an infinite weight. The prior that is read passes all checks, and the
logarithm of the weight of the odd numbers is a fault under it. -/
theorem infinite_weight_faults : ∃ prior : Prior Float,
    PriorReading.read (.record [("weights", .record [("prime", .text "inf")])]) =
        .ok (.valid prior) ∧
      prior.Admitted ∧
      prior.logPrior 100 (.terminal (.primitive .odd)) none = .error .logarithmDomain := by
  obtain ⟨prior, reads, _, fails⟩ := PriorReading.exists_fails_share
    (.record [("weights", .record [("prime", .text "inf")])]) 100 (.primitive .odd)
    (fun _ => true) (by decide +kernel)
  exact ⟨prior, reads, PriorReading.admitted_of_read reads, fails.logPrior_eq_error⟩

end NumberConcepts
