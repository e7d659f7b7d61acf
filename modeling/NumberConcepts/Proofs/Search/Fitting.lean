import NumberConcepts.Proofs.Concept.Extension
import NumberConcepts.Proofs.Hypothesis.Composition
import NumberConcepts.Proofs.Search.Discovery
/-!
# Terminals of the guided search

Terminals whose parameters are read off a target are the terminals of the pool
that a look at all extensions would select: `covering_eq_ok` for those that
contain the whole target, `partlyCovering_eq_ok` for those that contain a part.
Among the latter, powers are missing that share no number above one with the target;
`mem_partlyCovering_iff` tells them number by number.
-/

namespace NumberConcepts

/-- A part of the examples that a concept has to explain. -/
structure TargetOf (examples : List Nat) (target : NatSet) : Prop where
  inhabited : target ≠ ∅
  isPart : ∀ n ∈ target, n ∈ examples

/-- Targets are made of numbers of the domain. -/
theorem TargetOf.inside {domain : Domain} {examples : List Nat} {target : NatSet}
    (posed : TargetOf examples target) (admitted : domain.HasExamples examples) :
    ∀ n ∈ target, 1 ≤ n ∧ n ≤ domain.size :=
  fun n isTarget => admitted.inside n (posed.isPart n isTarget)

/-- All examples are a target. -/
theorem Domain.HasExamples.target {domain : Domain} {examples : List Nat}
    (admitted : domain.HasExamples examples) : TargetOf examples (NatSet.ofList examples) where
  inhabited := by
    obtain ⟨n, isExample⟩ := List.exists_mem_of_ne_nil _ admitted.given
    exact NatSet.ne_empty_of_mem (NatSet.mem_ofList.2 isExample)
  isPart := by
    intro n member
    exact NatSet.mem_ofList.1 member

/-- The terminal contains some of the target but not all. Powers are only found from a number above
one. -/
structure Terminal.Splits (size : Nat) (target : NatSet) (leaf : Terminal) : Prop where
  some : leaf.extension size ∩ target ≠ ∅
  notAll : leaf.extension size ∩ target ≠ target
  aboveOne : ∀ base, leaf = .powerOf base → ∃ n ∈ target, 1 < n ∧ n ∈ leaf.extension size

/-- What it is to split a target, number by number. -/
theorem Terminal.splits_iff {size : Nat} {target : NatSet} {leaf : Terminal} :
    leaf.Splits size target ↔
      (∃ n ∈ target, n ∈ leaf.extension size) ∧ (∃ n ∈ target, n ∉ leaf.extension size) ∧
        ∀ base, leaf = .powerOf base → ∃ n ∈ target, 1 < n ∧ n ∈ leaf.extension size := by
  constructor
  · rintro ⟨some, notAll, aboveOne⟩
    obtain ⟨hit, both⟩ := NatSet.exists_mem_of_ne_empty some
    obtain ⟨belongs, isTarget⟩ := NatSet.mem_inter.1 both
    rw [ne_eq, NatSet.inter_eq_right_iff, Classical.not_forall] at notAll
    obtain ⟨miss, missing⟩ := notAll
    exact ⟨⟨hit, isTarget, belongs⟩, ⟨miss, Classical.not_imp.1 missing⟩, aboveOne⟩
  · rintro ⟨⟨hit, isTarget, belongs⟩, ⟨miss, missing, stray⟩, aboveOne⟩
    refine ⟨NatSet.ne_empty_of_mem (NatSet.mem_inter.2 ⟨belongs, isTarget⟩), ?_, aboveOne⟩
    exact fun all => stray (NatSet.inter_eq_right_iff.1 all miss missing)

/-- A terminal splits a target of which it contains a number above one and misses another number. -/
theorem Terminal.Splits.of_members {size hit miss : Nat} {target : NatSet} {leaf : Terminal}
    (isTarget : hit ∈ target) (belongs : hit ∈ leaf.extension size) (above : 1 < hit)
    (missing : miss ∈ target) (stray : miss ∉ leaf.extension size) : leaf.Splits size target :=
  splits_iff.2 ⟨⟨hit, isTarget, belongs⟩, ⟨miss, missing, stray⟩,
    fun _ _ => ⟨hit, isTarget, above, belongs⟩⟩

namespace Terminals

variable {domain : Domain} {grammar : Grammar} {examples : List Nat} {target : NatSet}

/-! ### Parameters and extensions -/

/-- A base in range has a number of the domain among its powers when the number belongs to its
terminal. -/
theorem isPowerOf_iff_mem {size n : Nat} {base : Int} (inRange : Parameter.powerBase.Ranges base)
    (inside : 1 ≤ n ∧ n ≤ size) :
    Number.isPowerOf n base = true ↔ n ∈ (Terminal.powerOf base.toNat).extension size := by
  have large : (2 : Int) ≤ base := inRange.1
  obtain ⟨natural, rfl⟩ := Int.eq_ofNat_of_zero_le (Int.le_trans (by decide) large)
  rw [Int.toNat_natCast, Terminal.mem_extension_powerOf (by omega),
    Number.isPowerOf_iff inside.1 (by omega)]
  exact ⟨fun power => ⟨inside.2, power⟩, fun ⟨_, power⟩ => power⟩

/-- A step in range divides a number of the domain when the number belongs to its terminal. -/
theorem dvd_iff_mem {size n : Nat} {step : Int} (inRange : Parameter.multipleStep.Ranges step)
    (inside : 1 ≤ n ∧ n ≤ size) :
    step ∣ (n : Int) ↔ n ∈ (Terminal.multipleOf step.toNat).extension size := by
  have large : (2 : Int) ≤ step := inRange.1
  obtain ⟨natural, rfl⟩ := Int.eq_ofNat_of_zero_le (Int.le_trans (by decide) large)
  rw [Int.toNat_natCast, Terminal.mem_extension_multipleOf (by omega), Int.natCast_dvd_natCast]
  exact ⟨fun divides => ⟨inside, divides⟩, fun ⟨_, divides⟩ => divides⟩

/-- Numbers of a domain are small enough to be read faultlessly. -/
theorem readable_of_inside {n : Nat} (inside : 1 ≤ n ∧ n ≤ domain.size) :
    Discovery.Readable n := by
  have bound : domain.size ≤ 100 := domain.admissible.2
  exact Discovery.readable_of_lt inside.1 (by omega)

/-! ### Last digits -/

theorem mem_lastDigits {digit : Nat} : digit ∈ lastDigits target ↔ ∃ n ∈ target, n % 10 = digit := by
  simp only [lastDigits, List.mem_filter, List.mem_range, List.any_eq_true, NatSet.mem_toList,
    beq_iff_eq]
  constructor
  · rintro ⟨_, listed⟩
    exact listed
  · rintro ⟨n, isTarget, rfl⟩
    exact ⟨Nat.mod_lt _ (by decide), n, isTarget, rfl⟩

/-- The target has one last digit exactly when the terminal of this digit contains it. -/
theorem lastDigits_eq_singleton_iff {size digit : Nat} (inhabited : target ≠ ∅)
    (inside : ∀ n ∈ target, 1 ≤ n ∧ n ≤ size) :
    lastDigits target = [digit] ↔ target ⊆ (Terminal.endsIn digit).extension size := by
  simp only [NatSet.subset_iff, Terminal.mem_extension_endsIn]
  constructor
  · intro single n isTarget
    refine ⟨inside n isTarget, ?_⟩
    have listed := mem_lastDigits.2 ⟨n, isTarget, rfl⟩
    rw [single] at listed
    exact List.mem_singleton.1 listed
  · intro same
    have ordered : (lastDigits target).Pairwise (· < ·) := List.pairwise_lt_range.filter _
    apply ordered.eq_of_mem_iff (List.pairwise_singleton _ _)
    intro x
    rw [mem_lastDigits, List.mem_singleton]
    constructor
    · rintro ⟨n, isTarget, rfl⟩
      exact (same n isTarget).2
    · rintro rfl
      obtain ⟨n, isTarget⟩ := NatSet.exists_mem_of_ne_empty inhabited
      exact ⟨n, isTarget, (same n isTarget).2⟩

/-- The one last digit of a target is the one digit whose terminal contains it. -/
theorem filter_digits_of_single {size digit : Nat} (inhabited : target ≠ ∅)
    (inside : ∀ n ∈ target, 1 ≤ n ∧ n ≤ size) (only : lastDigits target = [digit]) :
    (List.range 10).filter (fun x => target ⊆ (Terminal.endsIn x).extension size) = [digit] := by
  apply (List.pairwise_lt_range.filter _).eq_of_mem_iff (List.pairwise_singleton _ _)
  intro x
  rw [List.mem_filter, decide_eq_true_iff, ← lastDigits_eq_singleton_iff inhabited inside, only,
    List.mem_singleton, List.cons.injEq, eq_comm (a := digit)]
  constructor
  · exact fun ⟨_, same, _⟩ => same
  · rintro rfl
    have listed : x ∈ lastDigits target := by simp [only]
    exact ⟨(List.mem_filter.1 listed).1, rfl, rfl⟩

/-- The ending taken from the last digits of a target is the one that contains it. -/
theorem fittingEndings {size : Nat} (inhabited : target ≠ ∅)
    (inside : ∀ n ∈ target, 1 ≤ n ∧ n ≤ size) (grammar : Grammar) :
    (match grammar.includeEndings, lastDigits target with
      | true, [digit] => endings [digit]
      | _, _ => []) =
      (endings grammar.digits).filter fun leaf => target ⊆ leaf.extension size := by
  rw [Grammar.digits]
  cases grammar.includeEndings with
  | false => rfl
  | true =>
      rw [if_pos rfl, endings, List.filter_map]
      split
      next digit _ only =>
        have alone := filter_digits_of_single inhabited inside only
        exact congrArg (List.map Terminal.endsIn) alone.symm
      next several =>
        symm
        rw [List.map_eq_nil_iff, List.filter_eq_nil_iff]
        intro digit _ contained
        have only := (lastDigits_eq_singleton_iff inhabited inside).2 (of_decide_eq_true contained)
        exact several digit rfl only

/-! ### The whole target -/

section Whole

variable (inRange : grammar.InRange) (inside : ∀ n ∈ target, 1 ≤ n ∧ n ≤ domain.size)

include inRange inside

/-- The bases that fit a target are those whose terminals contain it. -/
theorem fittingBases_of_target :
    ∃ found, Discovery.fittingBases grammar (integers target) = .ok found ∧
      (∀ base, base ∈ found ↔ base ∈ grammar.powerBases ∧
        target ⊆ (Terminal.powerOf base.toNat).extension domain.size) ∧
      (grammar.powerBases.Pairwise (· < ·) →
        found = grammar.powerBases.filter fun base =>
          target ⊆ (Terminal.powerOf base.toNat).extension domain.size) := by
  have readable : ∀ n ∈ target.toList, Discovery.Readable n :=
    fun n member => readable_of_inside (inside n (NatSet.mem_toList.1 member))
  obtain ⟨found, isFound, members, ordered⟩ := Discovery.fittingBases_eq_ok inRange.two_le
    (fun n member => (readable n member).positive) fun n isPivot => readable n isPivot.listed
  have membersInExtensions : ∀ base, base ∈ found ↔ base ∈ grammar.powerBases ∧
      target ⊆ (Terminal.powerOf base.toNat).extension domain.size := by
    intro base
    rw [members]
    apply and_congr_right
    intro allowed
    simp only [NatSet.subset_iff, NatSet.mem_toList]
    apply forall₂_congr
    intro n isTarget
    exact isPowerOf_iff_mem (inRange.bases base allowed) (inside n isTarget)
  refine ⟨found, isFound, membersInExtensions, ?_⟩
  intro increasing
  apply (ordered increasing).eq_of_mem_iff (increasing.filter _)
  intro base
  rw [membersInExtensions, List.mem_filter, decide_eq_true_iff]

/-- The steps that fit a target are those whose terminals contain it. -/
theorem fittingSteps_of_target (inhabited : target ≠ ∅) :
    Discovery.fittingSteps grammar (integers target) =
      .ok (grammar.multiples.filter fun step =>
        target ⊆ (Terminal.multipleOf step.toNat).extension domain.size) := by
  obtain ⟨n, isTarget⟩ := NatSet.exists_mem_of_ne_empty inhabited
  rw [integers, Discovery.fittingSteps_eq_ok inRange.step_ne_zero (NatSet.mem_toList.2 isTarget)
    (inside n isTarget).1]
  congr 1
  apply List.filter_congr
  intro step allowed
  rw [Bool.eq_iff_iff, List.all_eq_true, decide_eq_true_iff, NatSet.subset_iff]
  simp only [NatSet.mem_toList, decide_eq_true_iff]
  apply forall₂_congr
  intro n isTarget
  exact dvd_iff_mem (inRange.steps step allowed) (inside n isTarget)

end Whole

/-- The intervals around the examples contain every target. -/
theorem subset_of_mem_around (admitted : domain.HasExamples examples)
    (posed : TargetOf examples target) {limit : Int} {leaf : Terminal}
    (member : leaf ∈ around domain.size limit (examples.map Int.ofNat)) :
    target ⊆ leaf.extension domain.size := by
  obtain ⟨low, high, rfl, _, _, contains⟩ := mem_around admitted member
  rw [NatSet.subset_iff]
  intro n isTarget
  have isExample := posed.isPart n isTarget
  have between := contains n isExample
  rw [Terminal.mem_extension_interval]
  exact ⟨between.1, between.2, (admitted.inside n isExample).2⟩

/-- The terminals for some bases, and those of the pool with other parameters, that contain a
target. -/
def fitting (domain : Domain) (grammar : Grammar) (examples : List Nat) (target : NatSet)
    (bases : List Int) : List Terminal :=
  (rules bases grammar.multiples grammar.digits ++
    around domain.size grammar.maxIntervals (examples.map Int.ofNat)).filter fun leaf =>
      target ⊆ leaf.extension domain.size

/-- With the bases that fit, the fitting terminals are those of the pool that contain the target. -/
theorem mem_fitting {bases : List Int}
    (fit : ∀ base, base ∈ bases ↔ base ∈ grammar.powerBases ∧
      target ⊆ (Terminal.powerOf base.toNat).extension domain.size) {leaf : Terminal} :
    leaf ∈ fitting domain grammar examples target bases ↔
      leaf ∈ grammar.pool domain.size (examples.map Int.ofNat) ∧
        target ⊆ leaf.extension domain.size := by
  rw [fitting, List.mem_filter, decide_eq_true_iff]
  apply and_congr_left
  intro contained
  rw [Grammar.pool, List.mem_append, List.mem_append, Grammar.rules, mem_rules, mem_rules]
  apply or_congr_left
  cases leaf with
  | powerOf base =>
      simp only [fit]
      constructor
      · rintro ⟨x, ⟨allowed, _⟩, rfl⟩
        exact ⟨x, allowed, rfl⟩
      · rintro ⟨x, allowed, rfl⟩
        exact ⟨x, ⟨allowed, contained⟩, rfl⟩
  | _ => rfl

/-- Terminals that contain a target are not dropped for having no members. -/
theorem filter_inhabited {size : Nat} (inhabited : target ≠ ∅) {leaves : List Terminal}
    (contained : ∀ leaf ∈ leaves, target ⊆ leaf.extension size) :
    (leaves.map (Hypothesis.ofTerminal size)).filter
      (fun hypothesis => !hypothesis.members.isEmpty) = leaves.map (Hypothesis.ofTerminal size) := by
  obtain ⟨n, isTarget⟩ := NatSet.exists_mem_of_ne_empty inhabited
  rw [List.filter_eq_self, List.forall_mem_map]
  intro leaf member
  have belongs := NatSet.subset_iff.1 (contained leaf member) n isTarget
  exact NatSet.not_isEmpty_iff.2 (NatSet.ne_empty_of_mem belongs)

/-- With the bases read off a target the terminals that cover it are those that contain it. -/
theorem covering_of_bases (inRange : grammar.InRange) (admitted : domain.HasExamples examples)
    (posed : TargetOf examples target) {bases : List Int}
    (found : Discovery.fittingBases grammar (integers target) = .ok bases)
    (fit : ∀ base ∈ bases, base ∈ grammar.powerBases ∧
      target ⊆ (Terminal.powerOf base.toNat).extension domain.size) :
    covering grammar ((around domain.size grammar.maxIntervals (examples.map Int.ofNat)).map
      (Hypothesis.ofTerminal domain.size)) target =
        .ok ((fitting domain grammar examples target bases).map
          (Hypothesis.ofTerminal domain.size)) := by
  have inside := posed.inside admitted
  have foundSteps := fittingSteps_of_target inRange inside posed.inhabited
  have basesInRange : ∀ base ∈ bases, Parameter.powerBase.Ranges base :=
    fun base member => inRange.bases base (fit base member).1
  have stepsInRange : ∀ step ∈ grammar.multiples.filter (fun step =>
      target ⊆ (Terminal.multipleOf step.toNat).extension domain.size),
      Parameter.multipleStep.Ranges step :=
    fun step member => inRange.steps step (List.mem_filter.1 member).1
  have allBases : (bases.map fun base => Terminal.powerOf base.toNat).filter
      (fun leaf => target ⊆ leaf.extension domain.size) =
        bases.map fun base => .powerOf base.toNat := by
    rw [List.filter_eq_self, List.forall_mem_map]
    intro base member
    exact decide_eq_true (fit base member).2
  have allIntervals : (around domain.size grammar.maxIntervals (examples.map Int.ofNat)).filter
      (fun leaf => target ⊆ leaf.extension domain.size) =
        around domain.size grammar.maxIntervals (examples.map Int.ofNat) := by
    rw [List.filter_eq_self]
    intro leaf member
    exact decide_eq_true (subset_of_mem_around admitted posed member)
  have allContained : ∀ leaf ∈ fitting domain grammar examples target bases,
      target ⊆ leaf.extension domain.size :=
    fun leaf member => of_decide_eq_true (List.mem_filter.1 member).2
  simp only [covering, found, foundSteps, bind, Except.bind, pure, Except.pure,
    powers_eq_ok basesInRange, multiples_eq_ok stepsInRange]
  rw [← filter_inhabited posed.inhabited allContained]
  simp only [fitting, rules, List.filter_append, allBases, allIntervals, List.map_append,
    List.append_assoc]
  simp only [← fittingEndings posed.inhabited inside, List.filter_map]
  rfl

/-- The terminals that cover a target are those of the pool that contain it. Where the bases of the
grammar increase they also stand in the order of the pool. -/
theorem covering_eq_ok (inRange : grammar.InRange) (admitted : domain.HasExamples examples)
    (posed : TargetOf examples target) :
    ∃ leaves : List Terminal,
      covering grammar ((around domain.size grammar.maxIntervals (examples.map Int.ofNat)).map
        (Hypothesis.ofTerminal domain.size)) target =
          .ok (leaves.map (Hypothesis.ofTerminal domain.size)) ∧
      (∀ leaf, leaf ∈ leaves ↔
        leaf ∈ grammar.pool domain.size (examples.map Int.ofNat) ∧
          target ⊆ leaf.extension domain.size) ∧
      (grammar.powerBases.Pairwise (· < ·) →
        leaves = (grammar.pool domain.size (examples.map Int.ofNat)).filter fun leaf =>
          target ⊆ leaf.extension domain.size) := by
  obtain ⟨bases, found, memBases, sorted⟩ :=
    fittingBases_of_target inRange (posed.inside admitted)
  refine ⟨fitting domain grammar examples target bases,
    covering_of_bases inRange admitted posed found fun base => (memBases base).1,
    fun _ => mem_fitting memBases, ?_⟩
  intro increasing
  have powers : (bases.map fun base => Terminal.powerOf base.toNat).filter
      (fun leaf => target ⊆ leaf.extension domain.size) =
        (grammar.powerBases.map fun base => Terminal.powerOf base.toNat).filter
          fun leaf => target ⊆ leaf.extension domain.size := by
    rw [sorted increasing, List.filter_map, List.filter_map, List.filter_filter]
    simp only [Function.comp_def, Bool.and_self]
  simp only [fitting, Grammar.pool, Grammar.rules, rules, List.filter_append, powers]

/-- A grammar without repetition has no terminal twice among those that cover a target. -/
theorem nodup_of_covering (distinct : grammar.Distinct) (inRange : grammar.InRange)
    (admitted : domain.HasExamples examples) (posed : TargetOf examples target)
    {found : List (Hypothesis domain.size)}
    (covers : covering grammar ((around domain.size grammar.maxIntervals
      (examples.map Int.ofNat)).map (Hypothesis.ofTerminal domain.size)) target = .ok found) :
    found.Nodup := by
  obtain ⟨bases, isFound, members, _⟩ := fittingBases_of_target inRange (posed.inside admitted)
  rw [covering_of_bases inRange admitted posed isFound fun base => (members base).1] at covers
  obtain rfl := Except.ok.inj covers
  -- The fitting terminals are those of a smaller grammar with the bases found.
  let narrowed : Grammar := { grammar with powerBases := bases }
  have narrowedDistinct : narrowed.Distinct :=
    ⟨Discovery.nodup_of_fittingBases distinct.bases isFound, distinct.steps⟩
  have narrowedInRange : narrowed.InRange :=
    ⟨fun base listed => inRange.bases base ((members base).1 listed).1, inRange.steps⟩
  have pool := narrowedDistinct.nodup_pool narrowedInRange admitted
  exact (pool.filter _).map Hypothesis.ofTerminal_injective

/-! ### A part of the target -/

/-- Among the terminals that contain some of a target, those for the parameters read off its numbers
are the rules of the grammar, but for powers of which the target has none above one. -/
theorem mem_rules_of_hit {size : Nat} {bases steps : List Int} {leaf : Terminal}
    (memBases : ∀ base, base ∈ bases ↔ base ∈ grammar.powerBases ∧
      ∃ n ∈ target, 1 < n ∧ n ∈ (Terminal.powerOf base.toNat).extension size)
    (memSteps : ∀ step, step ∈ steps ↔ step ∈ grammar.multiples ∧
      ∃ n ∈ target, n ∈ (Terminal.multipleOf step.toNat).extension size)
    (some : leaf.extension size ∩ target ≠ ∅) :
    leaf ∈ rules bases steps (if grammar.includeEndings then lastDigits target else []) ↔
      leaf ∈ grammar.rules ∧
        ∀ base, leaf = .powerOf base → ∃ n ∈ target, 1 < n ∧ n ∈ leaf.extension size := by
  obtain ⟨n, hit⟩ := NatSet.exists_mem_of_ne_empty some
  obtain ⟨belongs, isTarget⟩ := NatSet.mem_inter.1 hit
  rw [Grammar.rules, mem_rules, mem_rules]
  cases leaf with
  | primitive property => simp
  | powerOf base =>
      simp only [memBases]
      constructor
      · rintro ⟨x, ⟨allowed, aboveOne⟩, rfl⟩
        exact ⟨⟨x, allowed, rfl⟩, fun _ _ => aboveOne⟩
      · rintro ⟨⟨x, allowed, rfl⟩, aboveOne⟩
        exact ⟨x, ⟨allowed, aboveOne _ rfl⟩, rfl⟩
  | multipleOf step =>
      simp only [memSteps, reduceCtorEq, false_imp_iff, implies_true, and_true]
      constructor
      · rintro ⟨x, ⟨allowed, _⟩, rfl⟩
        exact ⟨x, allowed, rfl⟩
      · rintro ⟨x, allowed, rfl⟩
        exact ⟨x, ⟨allowed, n, isTarget, belongs⟩, rfl⟩
  | interval low high => simp
  | endsIn digit =>
      simp only [Grammar.digits, reduceCtorEq, false_imp_iff, implies_true, and_true]
      have lastDigit : n % 10 = digit := (Terminal.mem_extension_endsIn.1 belongs).2
      have listed : digit ∈ lastDigits target := mem_lastDigits.2 ⟨n, isTarget, lastDigit⟩
      have isDigit : digit ∈ List.range 10 := by
        rw [List.mem_range]
        omega
      cases grammar.includeEndings <;> simp [listed, isDigit]

section Part

variable (inRange : grammar.InRange) (inside : ∀ n ∈ target, 1 ≤ n ∧ n ≤ domain.size)

include inRange inside

/-- The bases that fit some number of a target above one are those with such a number in their
terminal. -/
theorem partialBases_of_target :
    ∃ bases, partialBases grammar (integers target) = .ok bases ∧
      ∀ base, base ∈ bases ↔ base ∈ grammar.powerBases ∧
        ∃ n ∈ target, 1 < n ∧ n ∈ (Terminal.powerOf base.toNat).extension domain.size := by
  have each : ∀ n ∈ (integers target).filter (1 < ·), ∃ found,
      Discovery.fittingBases grammar [n] = .ok found ∧
        ∀ base, base ∈ found ↔ base ∈ grammar.powerBases ∧
          n.toNat ∈ (Terminal.powerOf base.toNat).extension domain.size := by
    intro x listed
    obtain ⟨n, isTarget, rfl⟩ := List.mem_map.1 (List.mem_filter.1 listed).1
    have bounds := inside n (NatSet.mem_toList.1 isTarget)
    have readable : ∀ m ∈ [n], Discovery.Readable m := by
      simpa using readable_of_inside bounds
    obtain ⟨found, isFound, members, _⟩ := Discovery.fittingBases_eq_ok inRange.two_le
      (fun m member => (readable m member).positive) fun m isPivot => readable m isPivot.listed
    refine ⟨found, isFound, ?_⟩
    intro base
    rw [members, List.forall_mem_singleton]
    apply and_congr_right
    intro allowed
    exact isPowerOf_iff_mem (inRange.bases base allowed) bounds
  obtain ⟨found, listed, members⟩ := Sequence.mapM_flatten_ok each
  refine ⟨Discovery.sortedDistinct found.flatten, ?_, ?_⟩
  · rw [partialBases, listed]
    rfl
  · intro base
    simp only [Discovery.mem_sortedDistinct, members, integers, List.mem_filter, List.mem_map,
      NatSet.mem_toList, decide_eq_true_iff]
    constructor
    · rintro ⟨x, ⟨⟨n, isTarget, rfl⟩, above⟩, allowed, power⟩
      exact ⟨allowed, n, isTarget, Int.ofNat_lt.1 above, power⟩
    · rintro ⟨allowed, n, isTarget, above, power⟩
      exact ⟨n, ⟨⟨n, isTarget, rfl⟩, Int.ofNat_lt.2 above⟩, allowed, power⟩

/-- The steps that fit some number of a target are those with such a number in their terminal. -/
theorem partialMultiples_of_target :
    ∃ steps, partialMultiples grammar (integers target) = .ok steps ∧
      ∀ step, step ∈ steps ↔ step ∈ grammar.multiples ∧
        ∃ n ∈ target, n ∈ (Terminal.multipleOf step.toNat).extension domain.size := by
  have each : ∀ n ∈ integers target, ∃ found,
      Discovery.fittingSteps grammar [n] = .ok found ∧
        ∀ step, step ∈ found ↔ step ∈ grammar.multiples ∧
          n.toNat ∈ (Terminal.multipleOf step.toNat).extension domain.size := by
    intro x listed
    obtain ⟨n, isTarget, rfl⟩ := List.mem_map.1 listed
    have bounds := inside n (NatSet.mem_toList.1 isTarget)
    have found := Discovery.fittingSteps_eq_ok inRange.step_ne_zero (List.mem_singleton_self n)
      bounds.1
    refine ⟨_, found, ?_⟩
    intro step
    rw [List.mem_filter, List.all_cons, List.all_nil, Bool.and_true, decide_eq_true_iff]
    apply and_congr_right
    intro allowed
    exact dvd_iff_mem (inRange.steps step allowed) bounds
  obtain ⟨found, listed, members⟩ := Sequence.mapM_flatten_ok each
  refine ⟨Discovery.sortedDistinct found.flatten, ?_, ?_⟩
  · rw [partialMultiples, listed]
    rfl
  · intro step
    simp only [Discovery.mem_sortedDistinct, members, integers, List.mem_map, NatSet.mem_toList]
    constructor
    · rintro ⟨x, ⟨n, isTarget, rfl⟩, allowed, divides⟩
      exact ⟨allowed, n, isTarget, divides⟩
    · rintro ⟨allowed, n, isTarget, divides⟩
      exact ⟨n, ⟨n, isTarget, rfl⟩, allowed, divides⟩

/-- The terminals that cover a part of a target are the rules of the grammar that split it. -/
theorem partlyCovering_eq_ok :
    ∃ leaves : List Terminal,
      partlyCovering grammar target = .ok (leaves.map (Hypothesis.ofTerminal domain.size)) ∧
      ∀ leaf, leaf ∈ leaves ↔ leaf ∈ grammar.rules ∧ leaf.Splits domain.size target := by
  obtain ⟨bases, foundBases, memBases⟩ := partialBases_of_target inRange inside
  obtain ⟨steps, foundSteps, memSteps⟩ := partialMultiples_of_target inRange inside
  have basesInRange : ∀ base ∈ bases, Parameter.powerBase.Ranges base :=
    fun base member => inRange.bases base ((memBases base).1 member).1
  have stepsInRange : ∀ step ∈ steps, Parameter.multipleStep.Ranges step :=
    fun step member => inRange.steps step ((memSteps step).1 member).1
  let digits := if grammar.includeEndings then lastDigits target else []
  let partly : Terminal → Bool := fun leaf =>
    !(leaf.extension domain.size ∩ target).isEmpty && leaf.extension domain.size ∩ target != target
  have partly_iff : ∀ leaf, partly leaf = true ↔
      leaf.extension domain.size ∩ target ≠ ∅ ∧ leaf.extension domain.size ∩ target ≠ target := by
    intro leaf
    rw [Bool.and_eq_true, NatSet.not_isEmpty_iff, bne_iff_ne]
  refine ⟨(rules bases steps digits).filter partly, ?_, ?_⟩
  · simp only [partlyCovering, foundBases, foundSteps, bind, Except.bind, pure, Except.pure,
      powers_eq_ok basesInRange, multiples_eq_ok stepsInRange, List.filter_map]
    cases allowed : grammar.includeEndings with
    | false =>
        simp only [digits, rules, allowed]
        rfl
    | true =>
        simp only [digits, rules, allowed]
        rfl
  · intro leaf
    rw [List.mem_filter, partly_iff]
    constructor
    · rintro ⟨candidate, some, notAll⟩
      obtain ⟨rule, aboveOne⟩ := (mem_rules_of_hit memBases memSteps some).1 candidate
      exact ⟨rule, ⟨some, notAll, aboveOne⟩⟩
    · rintro ⟨rule, some, notAll, aboveOne⟩
      exact ⟨(mem_rules_of_hit memBases memSteps some).2 ⟨rule, aboveOne⟩, some, notAll⟩

/-- The terminals listed for a part of a target are the rules of the grammar that contain some but
not all of it. A power whose only number in the target is one is left out, because its base is
sought among the numbers above one. -/
theorem mem_partlyCovering_iff :
    ∃ found : List (Hypothesis domain.size), partlyCovering grammar target = .ok found ∧
      ∀ hypothesis, hypothesis ∈ found ↔ ∃ leaf ∈ grammar.rules,
        hypothesis = .ofTerminal domain.size leaf ∧
        (∃ n ∈ target, n ∈ leaf.extension domain.size) ∧
        (∃ n ∈ target, n ∉ leaf.extension domain.size) ∧
        ∀ base, leaf = .powerOf base → ∃ n ∈ target, 1 < n ∧ n ∈ leaf.extension domain.size := by
  obtain ⟨leaves, isPartly, members⟩ := partlyCovering_eq_ok inRange inside
  refine ⟨_, isPartly, ?_⟩
  intro hypothesis
  simp only [List.mem_map, members, Terminal.splits_iff]
  constructor
  · rintro ⟨leaf, ⟨rule, splits⟩, rfl⟩
    exact ⟨leaf, rule, rfl, splits⟩
  · rintro ⟨leaf, rule, rfl, splits⟩
    exact ⟨leaf, ⟨rule, splits⟩, rfl⟩

end Part

/-- Over twenty numbers the powers of two contain a part of 1, 8 and 9, and are listed for it with a
grammar in which they can be; the multiples of seven contain none. -/
theorem mem_partlyCovering_one_eight_nine :
    ∃ found : List (Hypothesis 20),
      partlyCovering ⟨[3, 2], [7], true, 5⟩ (.ofList [1, 8, 9]) = .ok found ∧
      .ofTerminal 20 (.powerOf 2) ∈ found ∧ .ofTerminal 20 (.multipleOf 7) ∉ found := by
  let domain : Domain := ⟨20, by decide⟩
  have inRange : Grammar.InRange ⟨[3, 2], [7], true, 5⟩ := ⟨by decide, by decide⟩
  have admitted : domain.HasExamples [1, 8, 9] := ⟨by decide, by decide⟩
  have inside := admitted.target.inside admitted
  obtain ⟨found, isPartly, members⟩ := mem_partlyCovering_iff inRange inside
  refine ⟨found, isPartly, (members _).2 ⟨.powerOf 2, by decide, rfl, ?_, ?_, ?_⟩, ?_⟩
  · exact ⟨8, by decide +kernel, by decide +kernel⟩
  · exact ⟨9, by decide +kernel, by decide +kernel⟩
  · exact fun _ _ => ⟨8, by decide +kernel, by decide, by decide +kernel⟩
  · rw [members]
    rintro ⟨leaf, _, same, ⟨n, isTarget, belongs⟩, _⟩
    obtain rfl := Hypothesis.ofTerminal_injective same
    have none : ∀ n ∈ [1, 8, 9], n ∉ (Terminal.multipleOf 7).extension 20 := by decide +kernel
    exact none n (NatSet.mem_ofList.1 isTarget) belongs

/-- Over three numbers the powers of two contain one, miss three, and are not listed for these two:
no other base than three can be read off three, and none at all off one. -/
theorem partlyCovering_misses_powers_of_one :
    ∃ found : List (Hypothesis 3),
      partlyCovering ⟨[2], [], false, 0⟩ (.ofList [1, 3]) = .ok found ∧
      .powerOf 2 ∈ Grammar.rules ⟨[2], [], false, 0⟩ ∧
      1 ∈ (Terminal.powerOf 2).extension 3 ∧ 3 ∉ (Terminal.powerOf 2).extension 3 ∧
      .ofTerminal 3 (.powerOf 2) ∉ found := by
  let domain : Domain := ⟨3, by decide⟩
  have inRange : Grammar.InRange ⟨[2], [], false, 0⟩ := ⟨by decide, by decide⟩
  have admitted : domain.HasExamples [1, 3] := ⟨by decide, by decide⟩
  obtain ⟨leaves, isPartly, members⟩ :=
    partlyCovering_eq_ok inRange (admitted.target.inside admitted)
  refine ⟨_, isPartly, by decide, by decide +kernel, by decide +kernel, ?_⟩
  intro listed
  obtain ⟨leaf, isLeaf, same⟩ := List.mem_map.1 listed
  obtain rfl := Hypothesis.ofTerminal_injective same
  obtain ⟨n, isTarget, above, belongs⟩ := ((members _).1 isLeaf).2.aboveOne 2 rfl
  have none : ∀ n ∈ [1, 3], 1 < n → n ∉ (Terminal.powerOf 2).extension 3 := by decide +kernel
  exact none n (NatSet.mem_ofList.1 isTarget) above belongs

end Terminals

end NumberConcepts
