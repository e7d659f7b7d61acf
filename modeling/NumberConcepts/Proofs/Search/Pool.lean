import Mathlib.Data.List.Nodup
import NumberConcepts.Proofs.Domain
import NumberConcepts.Proofs.Sequence
import NumberConcepts.Search.Enumeration
/-!
# The pool of terminals

For a grammar in range and examples inside a domain, building terminals never
fails: the pool is `Grammar.rules` followed by the intervals around the examples.
-/

namespace NumberConcepts

/-- The value lies in the range of the parameter. -/
def Parameter.Ranges (parameter : Parameter) (value : Int) : Prop :=
  parameter.least ≤ value ∧ value ≤ parameter.greatest

instance (parameter : Parameter) (value : Int) : Decidable (parameter.Ranges value) :=
  inferInstanceAs (Decidable (_ ∧ _))

/-- A value in range passes its check. -/
theorem Parameter.check_int {parameter : Parameter} {value : Int} (inRange : parameter.Ranges value) :
    parameter.check (.int value) = .ok value.toNat := by
  rw [Parameter.check]
  exact if_pos inRange

/-- An interval of numbers of a domain passes its check. -/
theorem Terminal.checkInterval_eq_ok {domain : Domain} {low high : Nat} (positive : 1 ≤ low)
    (ordered : low ≤ high) (upper : high ≤ domain.size) :
    checkInterval (.int low) (.int high) = .ok (.interval low high) := by
  obtain ⟨⟨least, greatest⟩, ⟨least', greatest'⟩, _⟩ :=
    Domain.legal_interval positive ordered upper
  have lowRange : Parameter.intervalLow.Ranges low := by
    constructor <;> exact_mod_cast by assumption
  have highRange : Parameter.intervalHigh.Ranges high := by
    constructor <;> exact_mod_cast by assumption
  simp only [checkInterval, Parameter.check_int lowRange, Parameter.check_int highRange]
  change (if low ≤ high then _ else _) = _
  rw [if_pos ordered]
  rfl

namespace Grammar

/-- All bases and all steps lie in their ranges. -/
structure InRange (grammar : Grammar) : Prop where
  bases : ∀ base ∈ grammar.powerBases, Parameter.powerBase.Ranges base
  steps : ∀ step ∈ grammar.multiples, Parameter.multipleStep.Ranges step

theorem InRange.two_le {grammar : Grammar} (inRange : grammar.InRange) :
    ∀ base ∈ grammar.powerBases, 2 ≤ base :=
  fun base listed => (inRange.bases base listed).1

theorem InRange.step_ne_zero {grammar : Grammar} (inRange : grammar.InRange) :
    ∀ step ∈ grammar.multiples, step ≠ 0 := by
  rintro step listed rfl
  exact absurd (inRange.steps 0 listed).1 (by decide)

/-- No base and no step is listed twice. -/
structure Distinct (grammar : Grammar) : Prop where
  bases : grammar.powerBases.Nodup
  steps : grammar.multiples.Nodup

theorem mem_span {low high x : Int} : x ∈ span low high ↔ low ≤ x ∧ x ≤ high := by
  simp only [span, List.mem_map, List.mem_range]
  constructor
  · rintro ⟨offset, bound, rfl⟩
    omega
  · rintro ⟨lower, upper⟩
    exact ⟨(x - low).toNat, by omega, by omega⟩

theorem nodup_span (low high : Int) : (span low high).Nodup := by
  apply List.Nodup.map _ List.nodup_range
  intro offset offset' same
  have equal : low + (offset : Int) = low + offset' := same
  omega

end Grammar

namespace Terminals

/-- Bases in range become terminals. -/
theorem powers_eq_ok {bases : List Int} (inRange : ∀ base ∈ bases, Parameter.powerBase.Ranges base) :
    powers bases = .ok (bases.map fun base => .powerOf base.toNat) := by
  apply Sequence.mapM_ok
  intro base member
  rw [Terminal.checkPowerOf, Parameter.check_int (inRange base member)]
  rfl

/-- Steps in range become terminals. -/
theorem multiples_eq_ok {steps : List Int}
    (inRange : ∀ step ∈ steps, Parameter.multipleStep.Ranges step) :
    multiples steps = .ok (steps.map fun step => .multipleOf step.toNat) := by
  apply Sequence.mapM_ok
  intro step member
  rw [Terminal.checkMultipleOf, Parameter.check_int (inRange step member)]
  rfl

/-- The bounds of intervals contain the examples and lie inside the domain. -/
theorem mem_intervalBounds {size least greatest : Int} {bounds : Int × Int} :
    bounds ∈ intervalBounds size least greatest ↔
      (1 ≤ bounds.1 ∧ bounds.1 ≤ least) ∧ greatest ≤ bounds.2 ∧ bounds.2 ≤ size := by
  obtain ⟨low, high⟩ := bounds
  simp only [intervalBounds, List.mem_mergeSort, List.mem_flatMap, List.mem_map, Grammar.mem_span,
    Prod.mk.injEq]
  constructor
  · rintro ⟨low, lows, high, highs, rfl, rfl⟩
    exact ⟨lows, highs⟩
  · rintro ⟨lows, highs⟩
    exact ⟨low, lows, high, highs, rfl, rfl⟩

theorem nodup_intervalBounds (size least greatest : Int) :
    (intervalBounds size least greatest).Nodup := by
  rw [intervalBounds, (List.mergeSort_perm _ _).nodup_iff, List.nodup_flatMap]
  constructor
  · intro low _
    apply List.Nodup.map _ (Grammar.nodup_span _ _)
    intro high high' same
    exact (Prod.mk.inj same).2
  · apply List.Pairwise.imp _ (Grammar.nodup_span 1 least)
    intro low low' different bounds listed listed'
    obtain ⟨high, _, rfl⟩ := List.mem_map.1 listed
    obtain ⟨high', _, same⟩ := List.mem_map.1 listed'
    exact different (Prod.mk.inj same).1.symm

/-- The terminals other than intervals for some bases, steps and last digits, without a check of
these parameters. -/
def rules (bases steps : List Int) (digits : List Nat) : List Terminal :=
  properties ++ bases.map (fun base => .powerOf base.toNat) ++
    steps.map (fun step => .multipleOf step.toNat) ++ endings digits

theorem mem_rules {bases steps : List Int} {digits : List Nat} {leaf : Terminal} :
    leaf ∈ rules bases steps digits ↔
      match leaf with
      | .primitive _ => True
      | .powerOf base => ∃ x ∈ bases, x.toNat = base
      | .multipleOf step => ∃ x ∈ steps, x.toNat = step
      | .interval _ _ => False
      | .endsIn digit => digit ∈ digits := by
  cases leaf with
  | primitive property => cases property <;> simp [rules, properties, Primitive.all]
  | powerOf base => simp [rules, properties, endings]
  | multipleOf step => simp [rules, properties, endings]
  | interval low high => simp [rules, properties, endings]
  | endsIn digit => simp [rules, properties, endings]

/-- The intervals around examples, without a check of their bounds. -/
def around (size limit : Int) (examples : List Int) : List Terminal :=
  match Discovery.bounds examples with
  | .ok (least, greatest) =>
    (Sequence.first limit (intervalBounds size least greatest)).map fun bounds =>
      .interval bounds.1.toNat bounds.2.toNat
  | .error _ => []

end Terminals

namespace Grammar

/-- The last digits that a grammar allows. -/
def digits (grammar : Grammar) : List Nat := if grammar.includeEndings then List.range 10 else []

/-- The terminals of a grammar other than intervals, in their fixed order. -/
def rules (grammar : Grammar) : List Terminal :=
  Terminals.rules grammar.powerBases grammar.multiples grammar.digits

/-- All terminals that a search over a domain may use, in their fixed order. -/
def pool (size : Int) (grammar : Grammar) (examples : List Int) : List Terminal :=
  grammar.rules ++ Terminals.around size grammar.maxIntervals examples

end Grammar

namespace Discovery

/-- A pick between two numbers that comes before both comes, folded over a list, before all. -/
private theorem foldl_pick (pick : Int → Int → Int) (before : Int → Int → Prop)
    (reflexive : ∀ a, before a a) (transitive : ∀ a b c, before a b → before b c → before a c)
    (picked : ∀ a b, pick a b = a ∨ pick a b = b)
    (leads : ∀ a b, before (pick a b) a ∧ before (pick a b) b) (rest : List Int) (first : Int) :
    rest.foldl pick first ∈ first :: rest ∧ ∀ n ∈ first :: rest, before (rest.foldl pick first) n := by
  induction rest generalizing first with
  | nil => simpa using reflexive first
  | cons second rest inductionHypothesis =>
      obtain ⟨member, least⟩ := inductionHypothesis (pick first second)
      obtain ⟨overFirst, overSecond⟩ := leads first second
      rw [List.foldl_cons]
      rw [List.forall_mem_cons] at least
      refine ⟨?_, ?_⟩
      · rcases picked first second with same | same <;> rw [same] at member ⊢ <;> grind
      · rw [List.forall_mem_cons, List.forall_mem_cons]
        exact ⟨transitive _ _ _ least.1 overFirst, transitive _ _ _ least.1 overSecond, least.2⟩

/-- The least and the greatest of some numbers are among them, and the others lie between. -/
theorem bounds_eq_ok {numbers : List Int} (given : numbers ≠ []) :
    ∃ least ∈ numbers, ∃ greatest ∈ numbers, bounds numbers = .ok (least, greatest) ∧
      ∀ n ∈ numbers, least ≤ n ∧ n ≤ greatest := by
  cases numbers with
  | nil => exact absurd rfl given
  | cons first rest =>
      obtain ⟨isLeast, below⟩ := foldl_pick min (· ≤ ·) (by omega) (by omega) (by omega)
        (by omega) rest first
      obtain ⟨isGreatest, above⟩ := foldl_pick max (· ≥ ·) (by omega) (by omega)
        (by omega) (by omega) rest first
      exact ⟨_, isLeast, _, isGreatest, rfl, fun n member => ⟨below n member, above n member⟩⟩

end Discovery

namespace Terminals

variable {domain : Domain} {examples : List Nat}

/-- Intervals around examples of a domain lie inside the domain and contain the examples. -/
private theorem exists_bounds (admitted : domain.HasExamples examples) :
    ∃ least greatest, Discovery.bounds (examples.map Int.ofNat) = .ok (least, greatest) ∧
      ∀ bounds ∈ intervalBounds domain.size least greatest,
        ∃ low high : Nat, bounds = (↑low, ↑high) ∧ 1 ≤ low ∧ high ≤ domain.size ∧
          low ≤ high ∧ ∀ n ∈ examples, low ≤ n ∧ n ≤ high := by
  have given : examples.map Int.ofNat ≠ [] := by simpa using admitted.given
  obtain ⟨least, isLeast, greatest, _, found, between⟩ := Discovery.bounds_eq_ok given
  refine ⟨least, greatest, found, ?_⟩
  rintro ⟨low, high⟩ listed
  obtain ⟨lows, highs⟩ := mem_intervalBounds.1 listed
  have contains : ∀ n ∈ examples, low.toNat ≤ n ∧ n ≤ high.toNat := by
    intro n isExample
    have bounded := between n (List.mem_map.2 ⟨n, isExample, rfl⟩)
    have inside := admitted.inside n isExample
    omega
  obtain ⟨n, isExample, rfl⟩ := List.mem_map.1 isLeast
  have ordered := contains n isExample
  have bounded := between _ isLeast
  refine ⟨low.toNat, high.toNat, ?_, by omega, by omega, by omega, contains⟩
  rw [Prod.mk.injEq]
  omega

/-- Building the intervals around examples of a domain never fails. -/
theorem intervals_eq_ok (admitted : domain.HasExamples examples) (limit : Int) :
    intervals domain.size limit (examples.map Int.ofNat) =
      .ok (around domain.size limit (examples.map Int.ofNat)) := by
  obtain ⟨least, greatest, found, shape⟩ := exists_bounds admitted
  rw [intervals, around, found]
  apply Sequence.mapM_ok
  intro bounds selected
  obtain ⟨low, high, rfl, lower, upper, ordered, _⟩ :=
    shape bounds ((Sequence.first_sublist limit _).subset selected)
  exact Terminal.checkInterval_eq_ok lower ordered upper

/-- The intervals around examples of a domain are intervals that contain them. -/
theorem mem_around (admitted : domain.HasExamples examples) {limit : Int} {leaf : Terminal}
    (member : leaf ∈ around domain.size limit (examples.map Int.ofNat)) :
    ∃ low high, leaf = .interval low high ∧ 1 ≤ low ∧ high ≤ domain.size ∧
      ∀ n ∈ examples, low ≤ n ∧ n ≤ high := by
  obtain ⟨least, greatest, found, shape⟩ := exists_bounds admitted
  rw [around, found] at member
  obtain ⟨bounds, selected, rfl⟩ := List.mem_map.1 member
  obtain ⟨low, high, rfl, lower, upper, _, contains⟩ :=
    shape bounds ((Sequence.first_sublist limit _).subset selected)
  exact ⟨low, high, rfl, lower, upper, contains⟩

/-- No interval is listed twice. -/
theorem nodup_around (admitted : domain.HasExamples examples) (limit : Int) :
    (around domain.size limit (examples.map Int.ofNat)).Nodup := by
  obtain ⟨least, greatest, found, shape⟩ := exists_bounds admitted
  rw [around, found]
  have selection := Sequence.first_sublist limit (intervalBounds domain.size least greatest)
  apply List.Nodup.map_on _ ((nodup_intervalBounds _ _ _).sublist selection)
  intro bounds selected bounds' selected' same
  obtain ⟨low, high, rfl, _⟩ := shape bounds (selection.subset selected)
  obtain ⟨low', high', rfl, _⟩ := shape bounds' (selection.subset selected')
  obtain ⟨lows, highs⟩ := Terminal.interval.inj same
  rw [Int.toNat_natCast, Int.toNat_natCast] at lows highs
  rw [lows, highs]

end Terminals

namespace Grammar

variable {domain : Domain} {examples : List Nat} {grammar : Grammar}

/-- Building the terminals of a grammar in range never fails. -/
theorem InRange.ofGrammar_eq_ok (inRange : grammar.InRange)
    (admitted : domain.HasExamples examples) :
    Terminals.ofGrammar domain.size grammar (examples.map Int.ofNat) =
      .ok (grammar.pool domain.size (examples.map Int.ofNat)) := by
  simp only [Terminals.ofGrammar, Terminals.powers_eq_ok inRange.bases,
    Terminals.multiples_eq_ok inRange.steps, Terminals.intervals_eq_ok admitted]
  rw [pool, rules, Terminals.rules, digits]
  cases grammar.includeEndings <;> rfl

/-- The pool of a grammar in range, with the members of its terminals. -/
theorem InRange.poolOf_eq_ok (inRange : grammar.InRange)
    (admitted : domain.HasExamples examples) :
    Enumeration.poolOf domain.size grammar (examples.map Int.ofNat) =
      .ok ((grammar.pool domain.size (examples.map Int.ofNat)).map
        (Hypothesis.ofTerminal domain.size)) := by
  rw [Enumeration.poolOf, inRange.ofGrammar_eq_ok admitted]
  rfl

/-- A grammar without repetition has no terminal twice in its pool. -/
theorem Distinct.nodup_pool (distinct : grammar.Distinct) (inRange : grammar.InRange)
    (admitted : domain.HasExamples examples) :
    (grammar.pool domain.size (examples.map Int.ofNat)).Nodup := by
  have positive : ∀ parameter value, Parameter.Ranges parameter value → 0 ≤ value := by
    intro parameter value bounds
    exact Int.le_trans (Int.natCast_nonneg _) bounds.1
  have powers : (grammar.powerBases.map fun base => Terminal.powerOf base.toNat).Nodup := by
    apply List.Nodup.map_on _ distinct.bases
    intro base member base' member' same
    have := positive _ _ (inRange.bases base member)
    have := positive _ _ (inRange.bases base' member')
    have := Terminal.powerOf.inj same
    omega
  have multiples : (grammar.multiples.map fun step => Terminal.multipleOf step.toNat).Nodup := by
    apply List.Nodup.map_on _ distinct.steps
    intro step member step' member' same
    have := positive _ _ (inRange.steps step member)
    have := positive _ _ (inRange.steps step' member')
    have := Terminal.multipleOf.inj same
    omega
  have endings : (Terminals.endings grammar.digits).Nodup := by
    rw [digits]
    split <;> decide
  have intervals : ∀ leaf ∈ Terminals.around domain.size grammar.maxIntervals
      (examples.map Int.ofNat), leaf.isInterval = true := by
    intro leaf member
    obtain ⟨low, high, rfl, _⟩ := Terminals.mem_around admitted member
    rfl
  simp only [pool, rules, Terminals.rules, List.nodup_append']
  refine ⟨⟨⟨⟨by decide, powers, ?_⟩, multiples, ?_⟩, endings, ?_⟩, Terminals.nodup_around admitted _, ?_⟩
  all_goals
    intro leaf first second
    grind [Terminals.properties, Terminals.endings, Terminal.isInterval]

end Grammar

end NumberConcepts
