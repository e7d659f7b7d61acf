import Mathlib.Data.List.Sort
import NumberConcepts.Proofs.Number.Division
import NumberConcepts.Proofs.Number.Powers
import NumberConcepts.Proofs.Search.Pool
/-!
# Parameters read off the examples

Discovery finds exactly the parameters that fit: `fittingBases_eq_ok` for bases,
where only the roots of one number are looked at, and `fittingSteps_eq_ok` for
steps, where only the greatest common divisor is. Roots computed with doubles
are covered as far as they are accurate. `discovers_all` says both of any positive
numbers, of which only the pivot has to be one whose roots are found.
-/

namespace NumberConcepts.Discovery

/-! ### Sorting without repetition -/

@[simp] theorem mem_sortedDistinct {x : Int} {numbers : List Int} :
    x ∈ sortedDistinct numbers ↔ x ∈ numbers := by
  rw [sortedDistinct, List.mem_mergeSort, List.mem_eraseDups]

private theorem nodup_eraseDups (numbers : List Int) : numbers.eraseDups.Nodup := by
  induction hidden : numbers.length using Nat.strongRecOn generalizing numbers with
  | ind length inductionHypothesis =>
      cases numbers with
      | nil => simp
      | cons first rest =>
          rw [List.eraseDups_cons, List.nodup_cons, List.mem_eraseDups]
          have shorter : (rest.filter fun x => !x == first).length < length := by
            rw [← hidden, List.length_cons]
            exact Nat.lt_succ_of_le (List.length_filter_le _ _)
          exact ⟨by simp, inductionHypothesis _ shorter _ rfl⟩

/-- Sorted numbers without repetition are strictly increasing. -/
theorem pairwise_sortedDistinct (numbers : List Int) :
    (sortedDistinct numbers).Pairwise (· < ·) := by
  have ordered : (sortedDistinct numbers).Pairwise fun a b => decide (a ≤ b) = true :=
    List.pairwise_mergeSort (by simp; omega) (by simp; omega) _
  have distinct : (sortedDistinct numbers).Nodup :=
    (List.mergeSort_perm _ _).nodup_iff.2 (nodup_eraseDups numbers)
  apply ordered.imp₂ _ distinct
  intro a b notAbove different
  rw [decide_eq_true_iff] at notAbove
  omega

/-! ### Roots -/

/-- Every root of the number lies at most one beside its estimate. -/
def AccurateRoots (n : Nat) : Prop :=
  ∀ degree base, 0 < degree → base ^ degree = n →
    rootEstimate degree n ≤ base + 1 ∧ base ≤ rootEstimate degree n + 1

/-- Below the precision of doubles roots are exact. -/
theorem accurateRoots_of_lt {n : Nat} (small : n < 2 ^ 53) : AccurateRoots n := by
  rintro degree base positive rfl
  rw [rootEstimate, Nat.pow_eq, if_pos small, Number.root_pow positive]
  omega

/-- The roots found are the numbers above one with the given number as a power. -/
theorem mem_integerRoots {n base : Nat} (accurate : AccurateRoots n) (large : 1 < n) :
    base ∈ integerRoots n ↔ 2 ≤ base ∧ ∃ exponent, base ^ exponent = n := by
  simp only [integerRoots, rootsOfDegree, List.mem_flatMap, List.mem_range, List.mem_filter,
    Bool.and_eq_true, decide_eq_true_iff, Nat.pow_eq, beq_iff_eq]
  constructor
  · rintro ⟨degree, _, _, aboveOne, power⟩
    exact ⟨aboveOne, degree + 1, power⟩
  · rintro ⟨aboveOne, exponent, power⟩
    cases exponent with
    | zero => rw [Nat.pow_zero] at power; omega
    | succ degree =>
        have smallest : 2 ^ (degree + 1) ≤ n := by
          rw [← power]
          exact Nat.pow_le_pow_left aboveOne _
        have bound : degree + 1 ≤ n.log2 := (Nat.le_log2 (by omega)).2 smallest
        have near := accurate (degree + 1) base (Nat.succ_pos _) power
        refine ⟨degree, by omega, ?_, aboveOne, power⟩
        grind

/-! ### Bases -/

/-- A positive number of which discovery computes the roots faultlessly. -/
structure Readable (n : Nat) : Prop where
  positive : 1 ≤ n
  withinFloats : exceedsFloats n = false
  accurate : AccurateRoots n

/-- Positive numbers below the precision of doubles are readable. -/
theorem readable_of_lt {n : Nat} (positive : 1 ≤ n) (small : n < 2 ^ 53) : Readable n := by
  refine ⟨positive, ?_, accurateRoots_of_lt small⟩
  have precision : 2 ^ 53 ≤ Nat.pow 2 1024 - Nat.pow 2 970 := by decide +kernel
  rw [exceedsFloats, Int.toNat_natCast, decide_eq_false_iff_not]
  omega

/-- The pivot of some numbers is the least of them above one. Its roots are the only ones that are
looked for. -/
structure IsPivot (target : List Nat) (pivot : Nat) : Prop where
  listed : pivot ∈ target
  above : 1 < pivot
  least : ∀ n ∈ target, 1 < n → pivot ≤ n

/-- The first number above one, in increasing order, is the pivot. -/
private theorem find?_sortedDistinct {target : List Nat} {first : Int}
    (found : (sortedDistinct (target.map Int.ofNat)).find? (1 < ·) = some first) :
    ∃ pivot : Nat, (pivot : Int) = first ∧ IsPivot target pivot := by
  obtain ⟨above, before, after, split, notAbove⟩ := List.find?_eq_some_iff_append.1 found
  have mem_split : ∀ n ∈ target, (n : Int) ∈ before ++ first :: after := by
    intro n isTarget
    rw [← split, mem_sortedDistinct]
    exact List.mem_map_of_mem isTarget
  have ordered := pairwise_sortedDistinct (target.map Int.ofNat)
  rw [split, List.pairwise_append, List.pairwise_cons] at ordered
  have member : first ∈ sortedDistinct (target.map Int.ofNat) := List.mem_of_find?_eq_some found
  obtain ⟨pivot, isTarget, rfl⟩ := List.mem_map.1 (mem_sortedDistinct.1 member)
  refine ⟨pivot, rfl, isTarget, by simpa using above, fun n isTarget aboveOne => ?_⟩
  -- What stands before the pivot is not above one, and what stands behind it is greater.
  rcases List.mem_append.1 (mem_split n isTarget) with isBefore | isFrom
  · have small := notAbove n isBefore
    simp only [Bool.not_eq_true', decide_eq_false_iff_not] at small
    omega
  · rcases List.mem_cons.1 isFrom with same | isAfter
    · exact (Int.ofNat.inj same).ge
    · exact (Int.ofNat_lt.1 (ordered.2.1.1 n isAfter)).le

/-- For positive numbers with a readable pivot discovery finds exactly the bases of which all of
them are powers, and keeps the order of an increasing grammar. -/
theorem fittingBases_eq_ok {grammar : Grammar} (large : ∀ base ∈ grammar.powerBases, 2 ≤ base)
    {target : List Nat} (positive : ∀ n ∈ target, 1 ≤ n)
    (readable : ∀ pivot, IsPivot target pivot → Readable pivot) :
    ∃ found, fittingBases grammar (target.map Int.ofNat) = .ok found ∧
      (∀ base, base ∈ found ↔
        base ∈ grammar.powerBases ∧ ∀ n ∈ target, Number.isPowerOf n base = true) ∧
      (grammar.powerBases.Pairwise (· < ·) → found.Pairwise (· < ·)) := by
  rw [fittingBases]
  split
  next noPivot =>
    refine ⟨_, rfl, ?_, id⟩
    intro base
    rw [iff_self_and]
    intro _ n isTarget
    -- No number exceeds one, and one is a power of every base.
    have notAbove := List.find?_eq_none.1 noPivot n
      (mem_sortedDistinct.2 (List.mem_map.2 ⟨n, isTarget, rfl⟩))
    have atLeastOne := positive n isTarget
    have one : n = 1 := by simp at notAbove; omega
    rw [one]
    rfl
  next first isFirst =>
    obtain ⟨pivot, rfl, isPivot⟩ := find?_sortedDistinct isFirst
    rw [(readable pivot isPivot).withinFloats]
    refine ⟨_, rfl, ?_, fun _ => (pairwise_sortedDistinct _).filter _⟩
    intro base
    simp only [List.mem_filter, mem_sortedDistinct, Bool.and_eq_true, List.contains_iff_mem,
      List.all_eq_true, List.forall_mem_map, Int.toNat_natCast]
    constructor
    · rintro ⟨_, allowed, powers⟩
      exact ⟨allowed, powers⟩
    · rintro ⟨allowed, powers⟩
      refine ⟨?_, allowed, powers⟩
      have atLeastTwo : 2 ≤ base := large base allowed
      obtain ⟨natural, rfl⟩ := Int.eq_ofNat_of_zero_le (Int.le_trans (by decide) atLeastTwo)
      have isPower := powers pivot isPivot.listed
      rw [Number.isPowerOf_iff isPivot.above.le (by omega)] at isPower
      refine List.mem_map.2 ⟨natural, ?_, rfl⟩
      exact (mem_integerRoots (readable pivot isPivot).accurate isPivot.above).2
        ⟨by omega, isPower⟩

/-- A grammar that lists no base twice has none found twice. -/
theorem nodup_of_fittingBases {grammar : Grammar} (distinct : grammar.powerBases.Nodup)
    {target found : List Int} (isFound : fittingBases grammar target = .ok found) :
    found.Nodup := by
  rw [fittingBases] at isFound
  split at isFound
  next =>
    obtain rfl := Except.ok.inj isFound
    exact distinct
  next =>
    split at isFound
    next => cases isFound
    next =>
      obtain rfl := Except.ok.inj isFound
      exact ((pairwise_sortedDistinct _).imp Int.ne_of_lt).filter _

/-! ### Steps -/

/-- Where no step is zero the divisors among the steps are those without a remainder. -/
theorem divisorsAmong_eq_ok {n : Nat} {steps : List Int} (nonzero : ∀ step ∈ steps, step ≠ 0) :
    divisorsAmong n steps = .ok (steps.filter fun step => (n : Int) % step = 0) := by
  induction steps with
  | nil => rfl
  | cons step rest inductionHypothesis =>
      obtain ⟨now, later⟩ := List.forall_mem_cons.1 nonzero
      rw [divisorsAmong, if_neg now, inductionHypothesis later]
      by_cases divides : (n : Int) % step = 0
      · rw [List.filter_cons_of_pos (by simpa using divides)]
        simp only [Except.map, if_pos divides]
      · rw [List.filter_cons_of_neg (by simpa using divides)]
        simp only [Except.map, if_neg divides]

/-- For numbers of which one is not zero discovery selects exactly the steps that divide all. -/
theorem fittingSteps_eq_ok {grammar : Grammar} (nonzero : ∀ step ∈ grammar.multiples, step ≠ 0)
    {target : List Nat} {n : Nat} (isTarget : n ∈ target) (positive : 1 ≤ n) :
    fittingSteps grammar (target.map Int.ofNat) =
      .ok (grammar.multiples.filter fun step => target.all fun n => decide (step ∣ (n : Int))) := by
  have common : Number.commonDivisor (target.map Int.ofNat) ≠ 0 := by
    apply Number.commonDivisor_ne_zero (List.mem_map.2 ⟨n, isTarget, rfl⟩)
    simp
    omega
  rw [fittingSteps]
  simp only [if_neg common, divisorsAmong_eq_ok nonzero]
  congr 2
  funext step
  rw [Bool.eq_iff_iff, decide_eq_true_iff, List.all_eq_true, ← Int.dvd_iff_emod_eq_zero,
    ← Int.natAbs_dvd_natAbs, Int.natAbs_natCast, Number.dvd_commonDivisor_iff, List.forall_mem_map]
  apply forall₂_congr
  intro n _
  rw [decide_eq_true_iff, ← Int.natAbs_dvd_natAbs]
  rfl

/-! ### Both kinds of parameters -/

/-- Discovery finds exactly the parameters that fit some numbers. -/
structure Discovers (grammar : Grammar) (target : List Nat) : Prop where
  bases : ∃ found, fittingBases grammar (target.map Int.ofNat) = .ok found ∧ ∀ base, base ∈ found ↔
    base ∈ grammar.powerBases ∧ ∀ n ∈ target, ∃ exponent : Nat, base ^ exponent = (n : Int)
  steps : fittingSteps grammar (target.map Int.ofNat) =
    .ok (grammar.multiples.filter fun step => ∀ n ∈ target, step ∣ (n : Int))

/-- Discovery finds exactly the parameters that fit some positive numbers, as long as their pivot is
not too large for a double and its roots are estimated accurately. Below `2 ^ 53` the estimate
`rootEstimate` is the integer root instead of a rounded power of doubles, so that `AccurateRoots`
holds there by definition, as `accurateRoots_of_lt` says; above, it is assumed of doubles. -/
theorem discovers_all {grammar : Grammar} {target : List Nat}
    (bases : ∀ base ∈ grammar.powerBases, Parameter.powerBase.Ranges base)
    (steps : ∀ step ∈ grammar.multiples, 1 ≤ step) (given : target ≠ [])
    (positive : ∀ n ∈ target, 1 ≤ n)
    (withinFloats : ∀ pivot, IsPivot target pivot → exceedsFloats pivot = false)
    (accurate : ∀ pivot, IsPivot target pivot → AccurateRoots pivot) :
    Discovers grammar target := by
  have large : ∀ base ∈ grammar.powerBases, 2 ≤ base := fun base listed => (bases base listed).1
  constructor
  case bases =>
    have readable : ∀ pivot, IsPivot target pivot → Readable pivot := fun pivot isPivot =>
      ⟨isPivot.above.le, withinFloats pivot isPivot, accurate pivot isPivot⟩
    obtain ⟨found, isFound, members, _⟩ := fittingBases_eq_ok large positive readable
    refine ⟨found, isFound, fun base => ?_⟩
    rw [members]
    apply and_congr_right
    intro allowed
    apply forall₂_congr
    intro n isTarget
    obtain ⟨natural, rfl⟩ :=
      Int.eq_ofNat_of_zero_le (Int.le_trans (by decide) (large base allowed))
    have atLeastTwo : 2 ≤ natural := Int.ofNat_le.1 (large _ allowed)
    rw [Number.isPowerOf_iff (positive n isTarget) atLeastTwo]
    exact exists_congr fun exponent => by norm_cast
  case steps =>
    obtain ⟨n, isTarget⟩ := List.exists_mem_of_ne_nil target given
    have nonzero : ∀ step ∈ grammar.multiples, step ≠ 0 := by
      rintro step listed rfl
      exact absurd (steps 0 listed) (by decide)
    rw [fittingSteps_eq_ok nonzero isTarget (positive n isTarget)]
    congr 1
    apply List.filter_congr
    intro step _
    rw [Bool.eq_iff_iff, List.all_eq_true, decide_eq_true_iff]
    simp only [decide_eq_true_iff]

/-- For 64, 1 and 8 discovery finds the bases and steps that fit, in a grammar that lists them in
disorder and more than once. -/
theorem discovers_eight_and_sixty_four : Discovers
    { powerBases := [4, 8, 2, 10, 8], multiples := [1, 30, 4, 1], includeEndings := false,
      maxIntervals := 0 } [64, 1, 8, 64] := by
  have small : ∀ pivot, IsPivot [64, 1, 8, 64] pivot → pivot < 2 ^ 53 := by
    intro pivot isPivot
    have bound := isPivot.least 8 (by decide) (by decide)
    omega
  have readable : ∀ pivot, IsPivot [64, 1, 8, 64] pivot → Readable pivot := fun pivot isPivot =>
    readable_of_lt isPivot.above.le (small pivot isPivot)
  exact discovers_all (by decide) (by decide) (by decide) (by decide)
    (fun pivot isPivot => (readable pivot isPivot).withinFloats)
    (fun pivot isPivot => (readable pivot isPivot).accurate)

end NumberConcepts.Discovery
