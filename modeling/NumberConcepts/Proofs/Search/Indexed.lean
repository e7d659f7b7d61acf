import Mathlib.Tactic.Linarith
import NumberConcepts.Proofs.Hypothesis.Space
import NumberConcepts.Proofs.Search.Refinement
/-!
# The index beside the searches

Looking up the consistent hypotheses of the base space finds the same concepts
as either search over the grammar of its terminals. Rules agree one by one. Of
the intervals the index knows all, and the searches list only those around the
examples; but no other interval contains the examples, and a limit that leaves
room for all intervals of the domain cuts off none of them.
-/

namespace NumberConcepts

namespace Grammar

/-- The terminals of the base space as a grammar, with a limit on the intervals. -/
def ofBase (maxIntervals : Int) : Grammar where
  powerBases := [2, 3, 4]
  multiples := span 2 12
  includeEndings := true
  maxIntervals

theorem inRange_ofBase (maxIntervals : Int) : (ofBase maxIntervals).InRange where
  bases := by
    have bases : ∀ base ∈ [(2 : Int), 3, 4], Parameter.powerBase.Ranges base := by decide
    exact bases
  steps := by
    have steps : ∀ step ∈ span 2 12, Parameter.multipleStep.Ranges step := by decide
    exact steps

/-- The rules of the grammar are those of the base space. -/
theorem mem_rules_ofBase {maxIntervals : Int} {leaf : Terminal} :
    leaf ∈ (ofBase maxIntervals).rules ↔ .terminal leaf ∈ HypothesisSpace.rules := by
  have same : ((Terminals.rules [2, 3, 4] (span 2 12) (List.range 10)).map
      Concept.terminal).Perm HypothesisSpace.rules := by decide
  rw [← same.mem_iff, List.mem_map]
  constructor
  · exact fun rule => ⟨leaf, rule, rfl⟩
  · rintro ⟨leaf', rule, equal⟩
    obtain rfl := Concept.terminal.inj equal
    exact rule

theorem length_span (low high : Int) : (span low high).length = (high + 1 - low).toNat := by
  simp [span]

end Grammar

namespace Terminals

variable {domain : Domain} {examples : List Nat}

theorem length_intervalBounds (size least greatest : Int) :
    (intervalBounds size least greatest).length = least.toNat * (size + 1 - greatest).toNat := by
  simp [intervalBounds, List.length_flatMap, Grammar.length_span]

/-- No more intervals lie around some examples than the domain has. -/
theorem length_intervalBounds_le {least greatest : Nat} (positive : 1 ≤ least)
    (ordered : least ≤ greatest) (inside : greatest ≤ domain.size) :
    (intervalBounds domain.size least greatest).length ≤ domain.intervalCount := by
  obtain ⟨above, upper⟩ := Nat.exists_eq_add_of_le inside
  have room : ((domain.size : Int) + 1 - greatest).toNat = above + 1 := by omega
  rw [length_intervalBounds, Int.toNat_natCast, room, Domain.intervalCount, upper,
    Nat.le_div_iff_mul_le Nat.two_pos]
  nlinarith

/-- Where the limit leaves room for all intervals of the domain, the intervals around the examples
are those that contain them. -/
theorem mem_around_iff (admitted : domain.HasExamples examples) {limit : Int}
    (enough : domain.intervalCount ≤ limit) {leaf : Terminal} :
    leaf ∈ around domain.size limit (examples.map Int.ofNat) ↔
      ∃ low high, leaf = .interval low high ∧ 1 ≤ low ∧ high ≤ domain.size ∧
        ∀ n ∈ examples, low ≤ n ∧ n ≤ high := by
  refine ⟨mem_around admitted, ?_⟩
  rintro ⟨low, high, rfl, positive, upper, contains⟩
  have given : examples.map Int.ofNat ≠ [] := by simpa using admitted.given
  obtain ⟨_, isLeast, _, isGreatest, found, between⟩ := Discovery.bounds_eq_ok given
  obtain ⟨least, isExample, rfl⟩ := List.mem_map.1 isLeast
  obtain ⟨greatest, isExample', rfl⟩ := List.mem_map.1 isGreatest
  have ordered : least ≤ greatest := Int.ofNat_le.1 (between _ isGreatest).1
  have fits : (intervalBounds domain.size least greatest).length ≤ domain.intervalCount :=
    length_intervalBounds_le (admitted.inside least isExample).1 ordered
      (admitted.inside greatest isExample').2
  have all : Sequence.first limit (intervalBounds domain.size least greatest) =
      intervalBounds domain.size least greatest := by
    rw [Sequence.first, if_pos (by omega)]
    exact List.take_of_length_le (by omega)
  simp only [around, found, Int.ofNat_eq_natCast, all, List.mem_map]
  have lower := (contains least isExample).1
  have higher := (contains greatest isExample').2
  exact ⟨(low, high), mem_intervalBounds.2 (by omega), by simp⟩

end Terminals

namespace HypothesisSpace

variable {domain : Domain} {examples : List Nat}

/-- A terminal that contains the examples belongs to the base space exactly when it belongs to the
pool of its grammar. -/
theorem mem_base_iff_mem_pool (admitted : domain.HasExamples examples) {maxIntervals : Int}
    (enough : domain.intervalCount ≤ maxIntervals) {leaf : Terminal}
    (contains : ∀ n ∈ examples, n ∈ leaf.extension domain.size) :
    .terminal leaf ∈ rules ++ intervals domain ↔
      leaf ∈ (Grammar.ofBase maxIntervals).pool domain.size (examples.map Int.ofNat) := by
  rw [Grammar.pool, List.mem_append, List.mem_append, Grammar.mem_rules_ofBase]
  apply or_congr_right
  change _ ↔ leaf ∈ Terminals.around domain.size maxIntervals _
  rw [mem_intervals, Terminals.mem_around_iff admitted enough]
  constructor
  · rintro ⟨low, high, same, positive, _, upper⟩
    obtain rfl := Concept.terminal.inj same
    refine ⟨low, high, rfl, positive, upper, ?_⟩
    intro n isExample
    obtain ⟨lower, higher, _⟩ := Terminal.mem_extension_interval.1 (contains n isExample)
    exact ⟨lower, higher⟩
  · rintro ⟨low, high, rfl, positive, upper, between⟩
    obtain ⟨n, isExample⟩ := List.exists_mem_of_ne_nil _ admitted.given
    obtain ⟨lower, higher⟩ := between n isExample
    exact ⟨low, high, rfl, positive, Nat.le_trans lower higher, upper⟩

/-- The index of the base space finds the terminals of the pool that contain the examples. -/
theorem mem_select_base (admitted : domain.HasExamples examples) {maxIntervals : Int}
    (enough : domain.intervalCount ≤ maxIntervals) {hypothesis : Hypothesis domain.size} :
    hypothesis ∈ (base domain).select ((base domain).consistent examples) ↔
      ∃ leaf, (leaf ∈ (Grammar.ofBase maxIntervals).pool domain.size (examples.map Int.ofNat) ∧
        NatSet.ofList examples ⊆ leaf.extension domain.size) ∧
        .ofTerminal domain.size leaf = hypothesis := by
  refine (sound_base domain).mem_select_consistent.trans ((and_congr_left' mem_ofConcepts).trans ?_)
  simp only [NatSet.subset_iff, NatSet.mem_ofList]
  constructor
  · rintro ⟨⟨listed, _⟩, contains⟩
    obtain ⟨leaf, isTerminal, _⟩ := legal_base listed
    obtain rfl : .ofTerminal domain.size leaf = hypothesis :=
      Hypothesis.concept_injective isTerminal.symm
    exact ⟨leaf, ⟨(mem_base_iff_mem_pool admitted enough contains).1 listed, contains⟩, rfl⟩
  · rintro ⟨leaf, ⟨inPool, contains⟩, rfl⟩
    obtain ⟨n, isExample⟩ := List.exists_mem_of_ne_nil _ admitted.given
    exact ⟨⟨(mem_base_iff_mem_pool admitted enough contains).2 inPool,
      NatSet.ne_empty_of_mem (contains n isExample)⟩, contains⟩

/-- The look-up in an index lists the consistent hypotheses up to the limit, whatever the grammar
and the depth. -/
theorem indexed_eq_ok {space : HypothesisSpace} (admitted : space.domain.HasExamples examples)
    (grammar : Grammar) {depth : Int} (possible : 0 ≤ depth ∧ depth ≤ Concept.maxDepth)
    (limit : Int) :
    space.synthesizeAsked "indexed" grammar depth limit (Domain.asData examples) =
      .ok ((space.select (space.consistent examples)).take limit.toNat) := by
  have named : Synthesis.checkStrategy "indexed" = .ok .indexed := rfl
  exact synthesizeAsked_eq_ok admitted named possible (fun _ => rfl) limit

/-- Over the base space the index, the exhaustive search and the guided search find the same
concepts. -/
theorem strategies_agree_on_base (admitted : domain.HasExamples examples) {maxIntervals : Int}
    (enough : domain.intervalCount ≤ maxIntervals) :
    ∃ indexed exact guided : List (Hypothesis domain.size),
      (∀ grammar (depth : Int), 0 ≤ depth ∧ depth ≤ Concept.maxDepth → ∀ limit,
        (base domain).synthesizeAsked "indexed" grammar depth limit (Domain.asData examples) =
          .ok (indexed.take limit.toNat)) ∧
      (∀ limit, (base domain).synthesizeAsked "exact" (.ofBase maxIntervals) 0 limit
        (Domain.asData examples) = .ok (exact.take limit.toNat)) ∧
      (∀ limit, (base domain).synthesizeAsked "guided" (.ofBase maxIntervals) 0 limit
        (Domain.asData examples) = .ok (guided.take limit.toNat)) ∧
      ∀ hypothesis, (hypothesis ∈ indexed ↔ hypothesis ∈ exact) ∧
        (hypothesis ∈ exact ↔ hypothesis ∈ guided) := by
  have inRange := Grammar.inRange_ofBase maxIntervals
  have possible : 0 ≤ (0 : Int) ∧ (0 : Int) ≤ Concept.maxDepth := by decide
  have admittedBase : (base domain).domain.HasExamples examples := admitted
  obtain ⟨guided, _, members, isGuided⟩ := guided_eq_ok inRange admittedBase possible
  refine ⟨_, _, guided, fun grammar depth => indexed_eq_ok admittedBase grammar,
    exact_eq_ok inRange admittedBase possible, isGuided, ?_⟩
  intro hypothesis
  have inExact : hypothesis ∈ Enumeration.consistent domain (.ofBase maxIntervals) examples 0 ↔
      ∃ leaf, (leaf ∈ (Grammar.ofBase maxIntervals).pool domain.size (examples.map Int.ofNat) ∧
        NatSet.ofList examples ⊆ leaf.extension domain.size) ∧
        .ofTerminal domain.size leaf = hypothesis := by
    simp only [Enumeration.consistent_zero admitted, List.mem_map, List.mem_filter,
      decide_eq_true_iff]
  constructor
  · exact (mem_select_base admitted enough).trans inExact.symm
  · exact inExact.trans (Covering.derived_zero_iff.symm.trans (members hypothesis).symm)

/-- Over twenty numbers all three find the same concepts for 4, 16 and again 4. -/
theorem strategies_agree_on_twenty :
    ∃ indexed exact guided : List (Hypothesis 20),
      (∀ limit, (base ⟨20, by decide⟩).synthesizeAsked "indexed" .standard 1 limit
        (Domain.asData [4, 16, 4]) = .ok (indexed.take limit.toNat)) ∧
      (∀ limit, (base ⟨20, by decide⟩).synthesizeAsked "exact" (.ofBase 210) 0 limit
        (Domain.asData [4, 16, 4]) = .ok (exact.take limit.toNat)) ∧
      (∀ limit, (base ⟨20, by decide⟩).synthesizeAsked "guided" (.ofBase 210) 0 limit
        (Domain.asData [4, 16, 4]) = .ok (guided.take limit.toNat)) ∧
      ∀ hypothesis, (hypothesis ∈ indexed ↔ hypothesis ∈ exact) ∧
        (hypothesis ∈ exact ↔ hypothesis ∈ guided) := by
  let domain : Domain := ⟨20, by decide⟩
  have admitted : domain.HasExamples [4, 16, 4] := ⟨by decide, by decide⟩
  have enough : domain.intervalCount ≤ (210 : Int) := by decide
  obtain ⟨indexed, exact, guided, isIndexed, isExact, isGuided, same⟩ :=
    strategies_agree_on_base admitted enough
  exact ⟨indexed, exact, guided, isIndexed .standard 1 (by decide), isExact, isGuided, same⟩

end HypothesisSpace

end NumberConcepts
