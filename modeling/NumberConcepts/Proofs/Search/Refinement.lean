import NumberConcepts.Proofs.Search.Derivation
import NumberConcepts.Proofs.Search.Exhaustive
import NumberConcepts.Search.Synthesis
/-!
# The guided search beside the exhaustive one

Both searches succeed for a grammar in range and examples of the domain, and a limit
only cuts off their lists: `searchExhaustively_eq_ok` and `searchGuided_eq_ok`. So they
do when they are asked for, at a depth that concepts can have. The guided search then
finds only what the exhaustive one finds; at depth one it misses no more than redundant
unions, and at depth zero nothing.
-/

namespace NumberConcepts

/-- A union of which one part alone has all the numbers. -/
def Concept.RedundantUnion (size : Nat) (numbers : List Nat) : Concept → Prop
  | combine .union left right =>
    (∀ n ∈ numbers, n ∈ left.extension size) ∨ ∀ n ∈ numbers, n ∈ right.extension size
  | _ => False

namespace Enumeration

variable {domain : Domain} {grammar : Grammar} {examples : List Nat}

/-- The concepts of the exhaustive enumeration that contain all examples. -/
def consistent (domain : Domain) (grammar : Grammar) (examples : List Nat) (depth : Nat) :
    List (Hypothesis domain.size) :=
  (everything domain grammar examples depth).filter fun hypothesis =>
    hypothesis.containsAll (examples.map Int.ofNat)

/-- Consistent concepts are built from the pool and contain all examples. -/
theorem mem_consistent (admitted : domain.HasExamples examples) {depth : Nat}
    {hypothesis : Hypothesis domain.size} :
    hypothesis ∈ consistent domain grammar examples depth ↔
      hypothesis.concept.BuiltFrom domain.size
        (grammar.pool domain.size (examples.map Int.ofNat)) ∧
      hypothesis.concept.depth ≤ depth ∧ ∀ n ∈ examples, n ∈ hypothesis.members := by
  rw [consistent, List.mem_filter, everything, mem_all,
    Hypothesis.containsAll, NatSet.containsAll_map_ofNat]
  constructor
  · rintro ⟨⟨built, bounded, _⟩, contains⟩
    exact ⟨built, bounded, contains⟩
  · rintro ⟨built, bounded, contains⟩
    obtain ⟨n, isExample⟩ := List.exists_mem_of_ne_nil _ admitted.given
    exact ⟨⟨built, bounded, NatSet.ne_empty_of_mem (contains n isExample)⟩, contains⟩

/-- At depth zero the consistent concepts are the terminals of the pool that contain all examples. -/
theorem consistent_zero (admitted : domain.HasExamples examples) :
    consistent domain grammar examples 0 =
      ((grammar.pool domain.size (examples.map Int.ofNat)).filter fun leaf =>
        NatSet.ofList examples ⊆ leaf.extension domain.size).map
          (Hypothesis.ofTerminal domain.size) := by
  simp only [consistent, everything, all, levels,
    inhabited, List.append_nil, List.filter_filter, List.filter_map]
  congr 1
  apply List.filter_congr
  intro leaf _
  rw [Bool.eq_iff_iff, Function.comp_apply, Bool.and_eq_true, Hypothesis.containsAll,
    NatSet.containsAll_map_ofNat, decide_eq_true_iff, NatSet.subset_iff]
  simp only [NatSet.mem_ofList]
  constructor
  · exact fun both => both.1
  · intro contains
    obtain ⟨n, isExample⟩ := List.exists_mem_of_ne_nil _ admitted.given
    exact ⟨contains, NatSet.not_isEmpty_iff.2 (NatSet.ne_empty_of_mem (contains n isExample))⟩

end Enumeration

namespace Covering

variable {domain : Domain} {grammar : Grammar} {examples : List Nat}

/-- A last look at the examples drops nothing that contains them. -/
theorem filter_containsAll {size : Nat} {found : List (Hypothesis size)}
    (contains : ∀ hypothesis ∈ found, ∀ n ∈ NatSet.ofList examples, n ∈ hypothesis.members) :
    found.filter (fun hypothesis => hypothesis.containsAll (examples.map Int.ofNat)) = found := by
  rw [List.filter_eq_self]
  intro hypothesis listed
  rw [Hypothesis.containsAll, NatSet.containsAll_map_ofNat]
  intro n isExample
  exact contains hypothesis listed n (NatSet.mem_ofList.2 isExample)

/-- A consistent union that is not redundant is derived at depth one. -/
theorem derived_of_union (admitted : domain.HasExamples examples)
    {left right : Terminal} {hypothesis : Hypothesis domain.size}
    (combined : hypothesis.concept = .combine .union (.terminal left) (.terminal right))
    (built : hypothesis.concept.BuiltFrom domain.size
      (grammar.pool domain.size (examples.map Int.ofNat)))
    (contains : ∀ n ∈ NatSet.ofList examples, n ∈ hypothesis.members)
    (notRedundant : ¬ hypothesis.concept.RedundantUnion domain.size examples) :
    Derived domain grammar examples 1 (NatSet.ofList examples) hypothesis := by
  have composed := Hypothesis.compose_of_builtFrom combined built
  rw [combined] at built notRedundant
  obtain ⟨⟨builtLeft, builtRight⟩, _⟩ := Concept.builtFrom_combine.1 built
  rw [Concept.builtFrom_terminal] at builtLeft builtRight
  simp only [Concept.RedundantUnion, not_or, Classical.not_forall] at notRedundant
  obtain ⟨⟨missLeft, isExampleLeft, strayLeft⟩, missRight, isExampleRight, strayRight⟩ := notRedundant
  have isTargetLeft := NatSet.mem_ofList.2 isExampleLeft
  have isTargetRight := NatSet.mem_ofList.2 isExampleRight
  have inRight : missLeft ∈ right.extension domain.size :=
    ((Hypothesis.mem_union_of_compose composed).1 (contains _ isTargetLeft)).resolve_left strayLeft
  have inLeft : missRight ∈ left.extension domain.size :=
    ((Hypothesis.mem_union_of_compose composed).1 (contains _ isTargetRight)).resolve_right strayRight
  -- Powers of one number alone are not found, but only one of the two numbers can be one.
  by_cases above : 1 < missRight
  · exact .union_of_hit admitted admitted.target builtLeft builtRight composed contains isTargetRight
      inLeft above isTargetLeft strayLeft
  · have different : missLeft ≠ missRight := by
      rintro rfl
      exact strayLeft inLeft
    have positive := (admitted.inside missLeft isExampleLeft).1
    have positive' := (admitted.inside missRight isExampleRight).1
    rw [Hypothesis.compose_comm] at composed
    exact .union_of_hit admitted admitted.target builtRight builtLeft composed contains isTargetLeft
      inRight (by omega) isTargetRight strayRight

/-- A combination of depth one combines terminals. -/
theorem terminals_of_depth_le_one {operation : Operation} {left right : Concept}
    (flat : (Concept.combine operation left right).depth ≤ 1) :
    ∃ a b, left = .terminal a ∧ right = .terminal b := by
  cases left with
  | combine => simp [Concept.depth] at flat
  | terminal a =>
      cases right with
      | combine => simp [Concept.depth] at flat
      | terminal b => exact ⟨a, b, rfl, rfl⟩

/-- A consistent concept of depth one is derived unless it is a redundant union. -/
theorem derived_of_depth_le_one (admitted : domain.HasExamples examples)
    {hypothesis : Hypothesis domain.size}
    (built : hypothesis.concept.BuiltFrom domain.size
      (grammar.pool domain.size (examples.map Int.ofNat)))
    (bounded : hypothesis.concept.depth ≤ 1)
    (contains : ∀ n ∈ NatSet.ofList examples, n ∈ hypothesis.members)
    (notRedundant : ¬ hypothesis.concept.RedundantUnion domain.size examples) :
    Derived domain grammar examples 1 (NatSet.ofList examples) hypothesis := by
  cases shape : hypothesis.concept with
  | terminal leaf =>
      have same : hypothesis = .ofTerminal domain.size leaf := Hypothesis.concept_injective shape
      rw [shape, Concept.builtFrom_terminal] at built
      rw [same] at contains ⊢
      exact .shallower (.terminal built (NatSet.subset_iff.2 contains))
  | combine operation left right =>
      rw [shape] at bounded
      obtain ⟨a, b, rfl, rfl⟩ := terminals_of_depth_le_one bounded
      cases operation with
      | union => exact derived_of_union admitted shape built contains notRedundant
      | intersect =>
          have composed := Hypothesis.compose_of_builtFrom shape built
          have shared := fun n isTarget =>
            (Hypothesis.mem_inter_of_compose composed).1 (contains n isTarget)
          rw [shape] at built
          obtain ⟨⟨builtA, builtB⟩, _⟩ := Concept.builtFrom_combine.1 built
          rw [Concept.builtFrom_terminal] at builtA builtB
          exact .intersect
            (.terminal builtA (NatSet.subset_iff.2 fun n isTarget => (shared n isTarget).1))
            (.terminal builtB (NatSet.subset_iff.2 fun n isTarget => (shared n isTarget).2)) composed

end Covering

namespace HypothesisSpace

variable {space : HypothesisSpace} {grammar : Grammar} {examples : List Nat} {depth : Int}

/-- A search for examples of the domain at a depth that concepts can have passes all checks. If its
limit cuts off one list, so does a limit that is asked for. -/
theorem synthesizeAsked_eq_ok {name : String} {strategy : Strategy}
    {results : List (Hypothesis space.domain.size)}
    (admitted : space.domain.HasExamples examples)
    (named : Synthesis.checkStrategy name = .ok strategy)
    (possible : 0 ≤ depth ∧ depth ≤ Concept.maxDepth)
    (searched : ∀ limit, space.synthesize { strategy, grammar, depth := depth.toNat, limit }
      examples = .ok (results.take limit)) (limit : Int) :
    space.synthesizeAsked name grammar depth limit (Domain.asData examples) =
      .ok (results.take limit.toNat) := by
  rw [synthesizeAsked, admitted.validateSome_eq_ok, named, Synthesis.checkDepth, if_pos possible]
  change (if limit ≤ 0 then Except.ok [] else space.synthesize _ examples) = _
  split
  next none => rw [Int.toNat_of_nonpos none, List.take_zero]
  next => exact searched limit.toNat

/-- The exhaustive search lists the consistent concepts up to the limit. -/
theorem searchExhaustively_eq_ok (search : Synthesis) (inRange : search.grammar.InRange)
    (admitted : space.domain.HasExamples examples) :
    space.searchExhaustively search examples =
      .ok ((Enumeration.consistent space.domain search.grammar examples search.depth).take
        search.limit) := by
  simp only [searchExhaustively, inRange.poolOf_eq_ok admitted, bind, Except.bind, pure,
    Except.pure, Enumeration.firstAccepted_eq]
  rfl

/-- The guided search lists what is derived for the examples up to the limit; the last look at the
examples drops nothing. -/
theorem searchGuided_eq_ok (inRange : grammar.InRange) (admitted : space.domain.HasExamples examples)
    (depth : Nat) :
    ∃ found,
      Covering.fresh (Covering.problemAround space.domain grammar examples) depth
        (NatSet.ofList examples) = .ok found ∧
      (∀ hypothesis, hypothesis ∈ found ↔ Covering.Derived space.domain grammar examples
        depth (NatSet.ofList examples) hypothesis) ∧
      ∀ strategy limit, space.searchGuided { strategy, grammar, depth, limit } examples =
        .ok (found.take limit) := by
  obtain ⟨found, isFound, members⟩ := Covering.fresh_eq_ok inRange admitted depth admitted.target
  have allConsistent := Covering.filter_containsAll fun hypothesis listed =>
    ((members hypothesis).1 listed).contains
  refine ⟨found, isFound, members, ?_⟩
  intro strategy limit
  simp only [searchGuided, Covering.ofExamples_eq, Covering.problemOf_eq_ok admitted, isFound,
    bind, Except.bind, pure, Except.pure, allConsistent]

/-- The exhaustive search as it is asked for. -/
theorem exact_eq_ok (inRange : grammar.InRange) (admitted : space.domain.HasExamples examples)
    (possible : 0 ≤ depth ∧ depth ≤ Concept.maxDepth) (limit : Int) :
    space.synthesizeAsked "exact" grammar depth limit (Domain.asData examples) =
      .ok ((Enumeration.consistent space.domain grammar examples depth.toNat).take limit.toNat) := by
  have named : Synthesis.checkStrategy "exact" = .ok .exact := rfl
  apply synthesizeAsked_eq_ok admitted named possible
  intro limit
  exact searchExhaustively_eq_ok _ inRange admitted

/-- The guided search as it is asked for. -/
theorem guided_eq_ok (inRange : grammar.InRange) (admitted : space.domain.HasExamples examples)
    (possible : 0 ≤ depth ∧ depth ≤ Concept.maxDepth) :
    ∃ found,
      Covering.fresh (Covering.problemAround space.domain grammar examples) depth.toNat
        (NatSet.ofList examples) = .ok found ∧
      (∀ hypothesis, hypothesis ∈ found ↔ Covering.Derived space.domain grammar examples
        depth.toNat (NatSet.ofList examples) hypothesis) ∧
      ∀ limit, space.synthesizeAsked "guided" grammar depth limit (Domain.asData examples) =
        .ok (found.take limit.toNat) := by
  obtain ⟨found, isFound, members, lists⟩ := searchGuided_eq_ok inRange admitted depth.toNat
  have named : Synthesis.checkStrategy "guided" = .ok .guided := rfl
  exact ⟨found, isFound, members, synthesizeAsked_eq_ok admitted named possible (lists .guided)⟩

/-- Every concept that the guided search finds is found by the exhaustive one, too. -/
theorem guided_refines_exact (space : HypothesisSpace) (inRange : grammar.InRange)
    (admitted : space.domain.HasExamples examples)
    (possible : 0 ≤ depth ∧ depth ≤ Concept.maxDepth) :
    ∃ complete : List (Hypothesis space.domain.size),
      (∀ limit, space.synthesizeAsked "exact" grammar depth limit (Domain.asData examples) =
        .ok (complete.take limit.toNat)) ∧
      ∀ limit, ∃ found,
        space.synthesizeAsked "guided" grammar depth limit (Domain.asData examples) = .ok found ∧
          ∀ hypothesis ∈ found, hypothesis ∈ complete := by
  obtain ⟨found, _, members, isFound⟩ := guided_eq_ok inRange admitted possible
  refine ⟨_, exact_eq_ok inRange admitted possible, ?_⟩
  intro limit
  refine ⟨_, isFound limit, ?_⟩
  intro hypothesis listed
  have derived := (members hypothesis).1 (List.mem_of_mem_take listed)
  rw [Enumeration.mem_consistent admitted]
  refine ⟨derived.builtFrom, derived.depth_le, ?_⟩
  intro n isExample
  exact derived.contains n (NatSet.mem_ofList.2 isExample)

/-- Over twenty numbers the search for 2, 8 and 9 at the greatest depth is such a refinement. -/
theorem guided_refines_exact_deeply :
    ∃ complete : List (Hypothesis 20),
      (∀ limit, (ofConcepts ⟨20, by decide⟩ [] []).synthesizeAsked "exact" ⟨[3, 2], [7], true, 5⟩ 3
        limit (Domain.asData [2, 8, 9]) = .ok (complete.take limit.toNat)) ∧
      ∀ limit, ∃ found, (ofConcepts ⟨20, by decide⟩ [] []).synthesizeAsked "guided"
        ⟨[3, 2], [7], true, 5⟩ 3 limit (Domain.asData [2, 8, 9]) = .ok found ∧
          ∀ hypothesis ∈ found, hypothesis ∈ complete := by
  let space := ofConcepts ⟨20, by decide⟩ [] []
  have inRange : Grammar.InRange ⟨[3, 2], [7], true, 5⟩ := ⟨by decide, by decide⟩
  have admitted : space.domain.HasExamples [2, 8, 9] := ⟨by decide, by decide⟩
  exact guided_refines_exact space inRange admitted (by decide)

/-- At depth one the guided search finds every consistent concept but redundant unions. -/
theorem guided_misses_only_redundant_unions (space : HypothesisSpace) (inRange : grammar.InRange)
    (admitted : space.domain.HasExamples examples) :
    ∃ complete guided : List (Hypothesis space.domain.size),
      (∀ limit, space.synthesizeAsked "exact" grammar 1 limit (Domain.asData examples) =
        .ok (complete.take limit.toNat)) ∧
      (∀ limit, space.synthesizeAsked "guided" grammar 1 limit (Domain.asData examples) =
        .ok (guided.take limit.toNat)) ∧
      ∀ hypothesis ∈ complete,
        ¬ hypothesis.concept.RedundantUnion space.domain.size examples → hypothesis ∈ guided := by
  have possible : 0 ≤ (1 : Int) ∧ (1 : Int) ≤ Concept.maxDepth := by decide
  obtain ⟨found, _, members, isFound⟩ := guided_eq_ok inRange admitted possible
  refine ⟨_, found, exact_eq_ok inRange admitted possible, isFound, ?_⟩
  intro hypothesis listed notRedundant
  obtain ⟨built, bounded, contains⟩ := (Enumeration.mem_consistent admitted).1 listed
  rw [members]
  apply Covering.derived_of_depth_le_one admitted built bounded _ notRedundant
  intro n isTarget
  exact contains n (NatSet.mem_ofList.1 isTarget)

/-- Over twenty numbers the powers of two or multiples of three are found for 1 and 3, although the
base cannot be read off the number that only the powers contain. -/
theorem guided_finds_union_of_one :
    ∃ guided : List (Hypothesis 20),
      (∀ limit, (ofConcepts ⟨20, by decide⟩ [] []).synthesizeAsked "guided" ⟨[2], [3], false, 0⟩ 1
        limit (Domain.asData [1, 3]) = .ok (guided.take limit.toNat)) ∧
      Hypothesis.ofConcept 20
        (.combine .union (.terminal (.multipleOf 3)) (.terminal (.powerOf 2))) ∈ guided := by
  let space := ofConcepts ⟨20, by decide⟩ [] []
  let grammar : Grammar := ⟨[2], [3], false, 0⟩
  have inRange : grammar.InRange := ⟨by decide, by decide⟩
  have admitted : space.domain.HasExamples [1, 3] := ⟨by decide, by decide⟩
  obtain ⟨complete, guided, isComplete, isGuided, finds⟩ :=
    guided_misses_only_redundant_unions space inRange admitted
  refine ⟨guided, isGuided, finds _ ?_ ?_⟩
  · have same : complete = Enumeration.consistent space.domain grammar [1, 3] 1 := by
      have cut := (isComplete _).symm.trans (exact_eq_ok inRange admitted (by decide)
        (complete.length + (Enumeration.consistent space.domain grammar [1, 3] 1).length : Nat))
      rw [Int.toNat_natCast, Except.ok.injEq, List.take_of_length_le (Nat.le_add_right _ _)] at cut
      rw [cut]
      exact List.take_of_length_le (Nat.le_add_left _ _)
    rw [same]
    refine (Enumeration.mem_consistent admitted).2
      ⟨⟨?_, by decide +kernel, by decide⟩, by decide, by decide +kernel⟩
    have rules : ∀ leaf ∈ [Terminal.multipleOf 3, Terminal.powerOf 2],
        leaf ∈ grammar.rules := by decide
    exact fun leaf isLeaf => List.mem_append_left _ (rules leaf isLeaf)
  · rintro (whole | whole)
    · exact absurd (whole 1 (by decide)) (by decide +kernel)
    · exact absurd (whole 3 (by decide)) (by decide +kernel)

/-- At depth zero both searches find the same concepts in the same order. -/
theorem guided_eq_exact_at_depth_zero (space : HypothesisSpace) (inRange : grammar.InRange)
    (increasing : grammar.powerBases.Pairwise (· < ·))
    (admitted : space.domain.HasExamples examples) (limit : Int) :
    ∃ found,
      space.synthesizeAsked "guided" grammar 0 limit (Domain.asData examples) = .ok found ∧
      space.synthesizeAsked "exact" grammar 0 limit (Domain.asData examples) = .ok found := by
  have possible : 0 ≤ (0 : Int) ∧ (0 : Int) ≤ Concept.maxDepth := by decide
  obtain ⟨found, isFresh, _, isFound⟩ := guided_eq_ok inRange admitted possible
  obtain ⟨leaves, covers, _, ordered⟩ :=
    Terminals.covering_eq_ok inRange admitted admitted.target
  have same : found = Enumeration.consistent space.domain grammar examples 0 := by
    rw [Enumeration.consistent_zero admitted, ← ordered increasing]
    exact Except.ok.inj (isFresh.symm.trans covers)
  refine ⟨_, isFound limit, ?_⟩
  rw [same]
  exact exact_eq_ok inRange admitted possible limit

/-- Over one number, where most terminals are empty, both searches agree on the first three for the
example 1. -/
theorem guided_eq_exact_over_one_number :
    ∃ found,
      (ofConcepts ⟨1, by decide⟩ [] []).synthesizeAsked "guided" ⟨[2, 10], [3, 20], true, 2⟩ 0 3
        (Domain.asData [1, 1]) = .ok found ∧
      (ofConcepts ⟨1, by decide⟩ [] []).synthesizeAsked "exact" ⟨[2, 10], [3, 20], true, 2⟩ 0 3
        (Domain.asData [1, 1]) = .ok found := by
  let space := ofConcepts ⟨1, by decide⟩ [] []
  have inRange : Grammar.InRange ⟨[2, 10], [3, 20], true, 2⟩ := ⟨by decide, by decide⟩
  have increasing : [(2 : Int), 10].Pairwise (· < ·) := by decide
  have admitted : space.domain.HasExamples [1, 1] := ⟨by decide, by decide⟩
  exact guided_eq_exact_at_depth_zero space inRange increasing admitted 3

end HypothesisSpace

end NumberConcepts
