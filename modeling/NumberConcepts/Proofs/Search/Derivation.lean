import NumberConcepts.Proofs.Search.Fitting
import NumberConcepts.Proofs.Search.Levels
import NumberConcepts.Proofs.Search.Remembering
/-!
# What the guided search derives

`Derived` lists the ways in which the guided search comes to a concept for a
target, without the order of its lists and without its memory. `fresh_eq_ok`
shows that the search fails for no target made of examples and finds exactly
what is derived. What holds of every derived concept follows by induction on
the derivation.
-/

namespace NumberConcepts

namespace Roster

variable {size : Nat} {hypothesis : Hypothesis size}

theorem mem_insert {roster : Roster size} {added : Hypothesis size} :
    hypothesis ∈ (roster.insert added).toList ↔ hypothesis ∈ roster.toList ∨ hypothesis = added := by
  rw [insert]
  split
  next known =>
    rw [Std.HashSet.contains_iff_mem, roster.mem_seen_iff] at known
    obtain ⟨entry, listed, same⟩ := known
    obtain rfl := Hypothesis.concept_injective same
    constructor
    · exact .inl
    · rintro (member | rfl)
      · exact member
      · exact List.mem_reverse.2 listed
  next => simp [push, toList, or_comm]

/-- A roster extended by a list holds what it held and the entries of the list. -/
theorem mem_insertAll {roster : Roster size} {added : List (Hypothesis size)} :
    hypothesis ∈ (roster.insertAll added).toList ↔
      hypothesis ∈ roster.toList ∨ hypothesis ∈ added := by
  rw [insertAll]
  induction added generalizing roster with
  | nil => simp
  | cons first rest inductionHypothesis =>
      rw [List.foldl_cons, inductionHypothesis, mem_insert, List.mem_cons, or_assoc]

/-- A concept that has been seen is not added again. -/
theorem nodup_insert {roster : Roster size} (unrepeated : roster.toList.Nodup)
    (added : Hypothesis size) : (roster.insert added).toList.Nodup := by
  rw [insert]
  split
  next => exact unrepeated
  next unknown =>
    have new : added ∉ roster.latestFirst := by
      intro listed
      apply unknown
      rw [Std.HashSet.contains_iff_mem, roster.mem_seen_iff]
      exact ⟨added, listed, rfl⟩
    rw [toList, List.nodup_reverse] at unrepeated ⊢
    exact List.nodup_cons.2 ⟨new, unrepeated⟩

theorem nodup_insertAll {roster : Roster size} (unrepeated : roster.toList.Nodup)
    (added : List (Hypothesis size)) : (roster.insertAll added).toList.Nodup := by
  rw [insertAll]
  induction added generalizing roster with
  | nil => exact unrepeated
  | cons first rest inductionHypothesis =>
      rw [List.foldl_cons]
      exact inductionHypothesis (nodup_insert unrepeated first)

/-- A roster that starts empty holds the entries of a list, each of them once. -/
theorem insertAll_empty_perm {added other : List (Hypothesis size)} (unrepeated : other.Nodup)
    (same : ∀ hypothesis, hypothesis ∈ added ↔ hypothesis ∈ other) :
    (empty.insertAll added).toList.Perm other := by
  have none : (empty : Roster size).toList.Nodup := List.nodup_nil
  rw [List.perm_ext_iff_of_nodup (nodup_insertAll none added) unrepeated]
  intro hypothesis
  have notListed : hypothesis ∉ (empty : Roster size).toList := List.not_mem_nil
  rw [mem_insertAll, or_iff_right notListed, same]

/-- The roster of a list is the list. -/
theorem toList_ofList (hypotheses : List (Hypothesis size)) :
    (ofList hypotheses).toList = hypotheses := by
  have pushed : ∀ (added : List (Hypothesis size)) (roster : Roster size),
      (added.foldl push roster).toList = roster.toList ++ added := by
    intro added
    induction added with
    | nil => simp
    | cons first rest inductionHypothesis =>
        intro roster
        rw [List.foldl_cons, inductionHypothesis]
        simp [push, toList]
  exact pushed hypotheses empty

end Roster

namespace Covering

variable {size : Nat} {hypothesis : Hypothesis size}

theorem mem_unions {left : Hypothesis size} {rights : List (Hypothesis size)} :
    hypothesis ∈ unions left rights ↔
      ∃ right ∈ rights, left.compose .union right = some hypothesis := by
  rw [unions, List.mem_filterMap]

/-- Any two concepts of a list are intersected. -/
theorem mem_intersections {below : List (Hypothesis size)} :
    hypothesis ∈ intersections below ↔
      ∃ a ∈ below, ∃ b ∈ below, a.compose .intersect b = some hypothesis := by
  rw [← Enumeration.exists_laterPartners_iff]
  · simp only [intersections, List.mem_flatMap, List.mem_filterMap]
  · intro a b composed
    rw [Hypothesis.compose_comm, composed]
  · intro a composed
    rw [Hypothesis.compose_self rfl] at composed
    cases composed

/-- Combining adds the unions at hand and all intersections to the concepts one depth below. -/
theorem mem_combined {below unions : List (Hypothesis size)} :
    hypothesis ∈ combined below unions ↔
      hypothesis ∈ below ∨ hypothesis ∈ unions ∨
        ∃ a ∈ below, ∃ b ∈ below, a.compose .intersect b = some hypothesis := by
  rw [combined, Roster.mem_insertAll, Roster.mem_insertAll, Roster.toList_ofList, mem_intersections,
    or_assoc]

/-- Combining adds no concept that is there already. -/
theorem nodup_combined {below : List (Hypothesis size)} (unrepeated : below.Nodup)
    (unions : List (Hypothesis size)) : (combined below unions).Nodup := by
  rw [← Roster.toList_ofList below] at unrepeated
  exact Roster.nodup_insertAll (Roster.nodup_insertAll unrepeated unions) _

/-- A search that succeeds also succeeds one depth below, and combines what is found there with
unions. -/
theorem combined_of_fresh {problem : Problem size} {depth : Nat} {target : NatSet}
    {found : List (Hypothesis size)} (succeeds : fresh problem (depth + 1) target = .ok found) :
    ∃ below unions, fresh problem depth target = .ok below ∧ found = combined below unions := by
  rw [fresh] at succeeds
  obtain ⟨below, isBelow, succeeds⟩ := Sequence.exists_of_bind_ok succeeds
  obtain ⟨parts, _, succeeds⟩ := Sequence.exists_of_bind_ok succeeds
  obtain ⟨unions, _, succeeds⟩ := Sequence.exists_of_bind_ok succeeds
  exact ⟨below, unions.flatten, isBelow, (Except.ok.inj succeeds).symm⟩

/-! ### Derivations -/

variable {domain : Domain} {grammar : Grammar} {examples : List Nat} {target : NatSet}

/-- What a terminal that splits a target leaves of it is a target again. -/
theorem targetOf_residual {leaf : Terminal} (posed : TargetOf examples target)
    (splits : leaf.Splits size target) :
    TargetOf examples (residual target (.ofTerminal size leaf)) where
  inhabited := by
    intro nothing
    apply splits.notAll
    rw [NatSet.inter_eq_right_iff]
    intro n isTarget
    apply Classical.byContradiction
    intro stray
    have left : n ∈ residual target (.ofTerminal size leaf) := NatSet.mem_sdiff.2 ⟨isTarget, stray⟩
    rw [nothing] at left
    exact NatSet.not_mem_empty n left
  isPart := by
    intro n member
    exact posed.isPart n (NatSet.mem_sdiff.1 member).1

/-- The ways to a concept that covers a target: a terminal that contains it, what covers it at a
lesser depth, a terminal that splits it beside what covers the remainder, and what two concepts
share that cover it. -/
inductive Derived (domain : Domain) (grammar : Grammar) (examples : List Nat) :
    Nat → NatSet → Hypothesis domain.size → Prop where
  | terminal {leaf : Terminal} {target : NatSet} :
      leaf ∈ grammar.pool domain.size (examples.map Int.ofNat) →
        target ⊆ leaf.extension domain.size →
          Derived domain grammar examples 0 target (.ofTerminal domain.size leaf)
  | shallower {depth : Nat} {target : NatSet} {hypothesis : Hypothesis domain.size} :
      Derived domain grammar examples depth target hypothesis →
        Derived domain grammar examples (depth + 1) target hypothesis
  | union {depth : Nat} {target : NatSet} {leaf : Terminal} {right result : Hypothesis domain.size} :
      leaf ∈ grammar.rules → leaf.Splits domain.size target →
        Derived domain grammar examples depth (residual target (.ofTerminal domain.size leaf)) right →
          (Hypothesis.ofTerminal domain.size leaf).compose .union right = some result →
            Derived domain grammar examples (depth + 1) target result
  | intersect {depth : Nat} {target : NatSet} {a b result : Hypothesis domain.size} :
      Derived domain grammar examples depth target a →
        Derived domain grammar examples depth target b →
          a.compose .intersect b = some result →
            Derived domain grammar examples (depth + 1) target result

/-- The problem that examples of a domain pose, without a check of its intervals. -/
def problemAround (domain : Domain) (grammar : Grammar) (examples : List Nat) :
    Problem domain.size where
  grammar
  intervals := (Terminals.around domain.size grammar.maxIntervals (examples.map Int.ofNat)).map
    (Hypothesis.ofTerminal domain.size)

/-- Examples of a domain pose a problem. -/
theorem problemOf_eq_ok (admitted : domain.HasExamples examples) (grammar : Grammar) :
    problemOf domain.size grammar (examples.map Int.ofNat) =
      .ok (problemAround domain grammar examples) := by
  rw [problemOf, Terminals.intervals_eq_ok admitted]
  rfl

/-- At depth zero the terminals of the pool are derived that contain the target. -/
theorem derived_zero_iff {hypothesis : Hypothesis domain.size} :
    Derived domain grammar examples 0 target hypothesis ↔
      ∃ leaf, (leaf ∈ grammar.pool domain.size (examples.map Int.ofNat) ∧
        target ⊆ leaf.extension domain.size) ∧ .ofTerminal domain.size leaf = hypothesis := by
  constructor
  · intro derived
    cases derived with
    | terminal inPool contains => exact ⟨_, ⟨inPool, contains⟩, rfl⟩
  · rintro ⟨leaf, ⟨inPool, contains⟩, rfl⟩
    exact .terminal inPool contains

/-- One more depth derives what is derived below it, and unions and intersections of that. -/
theorem derived_succ_iff {depth : Nat} {hypothesis : Hypothesis domain.size} :
    Derived domain grammar examples (depth + 1) target hypothesis ↔
      Derived domain grammar examples depth target hypothesis ∨
      (∃ leaf, (leaf ∈ grammar.rules ∧ leaf.Splits domain.size target) ∧ ∃ right,
        Derived domain grammar examples depth (residual target (.ofTerminal domain.size leaf)) right ∧
          (Hypothesis.ofTerminal domain.size leaf).compose .union right = some hypothesis) ∨
      ∃ a, Derived domain grammar examples depth target a ∧
        ∃ b, Derived domain grammar examples depth target b ∧
          a.compose .intersect b = some hypothesis := by
  constructor
  · intro derived
    cases derived with
    | shallower derived => exact .inl derived
    | union rule splits derived composed =>
        exact .inr (.inl ⟨_, ⟨rule, splits⟩, _, derived, composed⟩)
    | intersect first second composed => exact .inr (.inr ⟨_, first, _, second, composed⟩)
  · rintro (derived | ⟨leaf, ⟨rule, splits⟩, right, derived, composed⟩ |
      ⟨a, first, b, second, composed⟩)
    · exact .shallower derived
    · exact .union rule splits derived composed
    · exact .intersect first second composed

/-- The search finds exactly what is derived, and it fails for no target made of examples. -/
theorem fresh_eq_ok (inRange : grammar.InRange) (admitted : domain.HasExamples examples)
    (depth : Nat) (posed : TargetOf examples target) :
    ∃ found, fresh (problemAround domain grammar examples) depth target = .ok found ∧
      ∀ hypothesis, hypothesis ∈ found ↔
        Derived domain grammar examples depth target hypothesis := by
  induction depth generalizing target with
  | zero =>
      obtain ⟨leaves, covers, members, _⟩ := Terminals.covering_eq_ok inRange admitted posed
      refine ⟨_, covers, ?_⟩
      intro hypothesis
      simp only [derived_zero_iff, List.mem_map, members]
  | succ depth inductionHypothesis =>
      obtain ⟨below, isBelow, memBelow⟩ := inductionHypothesis posed
      obtain ⟨leaves, isPartly, memLeaves⟩ := Terminals.partlyCovering_eq_ok inRange (posed.inside admitted)
      have each : ∀ left ∈ leaves.map (Hypothesis.ofTerminal domain.size), ∃ result,
          (do return unions left (← fresh (problemAround domain grammar examples) depth
            (residual target left))) = Except.ok result ∧
          ∀ hypothesis, hypothesis ∈ result ↔ ∃ right,
            Derived domain grammar examples depth (residual target left) right ∧
              left.compose .union right = some hypothesis := by
        intro left listed
        obtain ⟨leaf, isLeaf, rfl⟩ := List.mem_map.1 listed
        have remainder := targetOf_residual posed ((memLeaves leaf).1 isLeaf).2
        obtain ⟨rights, isRights, memRights⟩ := inductionHypothesis remainder
        refine ⟨_, by rw [isRights]; rfl, ?_⟩
        intro hypothesis
        simp only [mem_unions, memRights]
      obtain ⟨found, isFound, memFound⟩ := Sequence.mapM_flatten_ok each
      refine ⟨combined below found.flatten, ?_, ?_⟩
      · have sameGrammar : (problemAround domain grammar examples).grammar = grammar := rfl
        rw [fresh, isBelow, sameGrammar, isPartly]
        simp only [bind, Except.bind, pure, Except.pure] at isFound ⊢
        rw [isFound]
      · intro hypothesis
        rw [mem_combined, memFound, derived_succ_iff]
        simp only [memBelow, List.mem_map, exists_exists_and_eq_and, memLeaves]

/-- Over a grammar without repetition nothing is found twice. -/
theorem nodup_of_fresh (distinct : grammar.Distinct) (inRange : grammar.InRange)
    (admitted : domain.HasExamples examples) (posed : TargetOf examples target) {depth : Nat}
    {found : List (Hypothesis domain.size)}
    (succeeds : fresh (problemAround domain grammar examples) depth target = .ok found) :
    found.Nodup := by
  induction depth generalizing found with
  | zero => exact Terminals.nodup_of_covering distinct inRange admitted posed succeeds
  | succ depth inductionHypothesis =>
      obtain ⟨below, unions, isBelow, rfl⟩ := combined_of_fresh succeeds
      exact nodup_combined (inductionHypothesis isBelow) unions

namespace Derived

variable {depth : Nat} {hypothesis : Hypothesis domain.size}

/-- What is derived is a canonical concept over the pool of the exhaustive search. -/
theorem builtFrom (derived : Derived domain grammar examples depth target hypothesis) :
    hypothesis.concept.BuiltFrom domain.size
      (grammar.pool domain.size (examples.map Int.ofNat)) := by
  induction derived with
  | terminal inPool _ => exact Concept.builtFrom_terminal.2 inPool
  | shallower _ inductionHypothesis => exact inductionHypothesis
  | union rule _ _ composed inductionHypothesis =>
      apply Hypothesis.builtFrom_of_compose _ inductionHypothesis composed
      exact Concept.builtFrom_terminal.2 (List.mem_append_left _ rule)
  | intersect _ _ composed first second => exact Hypothesis.builtFrom_of_compose first second composed

/-- What is derived is no deeper than its derivation may be. -/
theorem depth_le (derived : Derived domain grammar examples depth target hypothesis) :
    hypothesis.concept.depth ≤ depth := by
  induction derived with
  | terminal => exact Nat.le_refl 0
  | shallower _ inductionHypothesis => exact Nat.le_succ_of_le inductionHypothesis
  | union _ _ _ composed inductionHypothesis =>
      rw [Hypothesis.depth_of_compose composed, Hypothesis.concept_ofTerminal, Concept.depth]
      omega
  | intersect _ _ composed first second =>
      rw [Hypothesis.depth_of_compose composed]
      omega

/-- What is derived for a target contains it. -/
theorem contains (derived : Derived domain grammar examples depth target hypothesis) :
    ∀ n ∈ target, n ∈ hypothesis.members := by
  induction derived with
  | terminal _ contained => exact NatSet.subset_iff.1 contained
  | shallower _ inductionHypothesis => exact inductionHypothesis
  | union _ _ _ composed inductionHypothesis =>
      intro n isTarget
      rw [Hypothesis.mem_union_of_compose composed, Classical.or_iff_not_imp_left]
      intro left
      exact inductionHypothesis n (NatSet.mem_sdiff.2 ⟨isTarget, left⟩)
  | intersect _ _ composed first second =>
      intro n isTarget
      exact (Hypothesis.mem_inter_of_compose composed).2 ⟨first n isTarget, second n isTarget⟩

/-- A union of which the first terminal contains a number above one that the second one misses is
derived from the first. -/
theorem union_of_hit (admitted : domain.HasExamples examples) (posed : TargetOf examples target)
    {a b : Terminal} (inPoolA : a ∈ grammar.pool domain.size (examples.map Int.ofNat))
    (inPoolB : b ∈ grammar.pool domain.size (examples.map Int.ofNat))
    {result : Hypothesis domain.size}
    (composed : (Hypothesis.ofTerminal domain.size a).compose .union (.ofTerminal domain.size b) =
      some result)
    (contains : ∀ n ∈ target, n ∈ result.members) {hit miss : Nat} (isTarget : hit ∈ target)
    (belongs : hit ∈ a.extension domain.size) (above : 1 < hit) (missing : miss ∈ target)
    (stray : miss ∉ a.extension domain.size) :
    Derived domain grammar examples 1 target result := by
  have rule : a ∈ grammar.rules := by
    rcases List.mem_append.1 inPoolA with rule | interval
    · exact rule
    · -- Intervals miss nothing.
      have whole := Terminals.subset_of_mem_around admitted posed interval
      exact absurd (NatSet.subset_iff.1 whole miss missing) stray
  apply Derived.union rule (.of_members isTarget belongs above missing stray) _ composed
  apply Derived.terminal inPoolB
  rw [NatSet.subset_iff]
  intro n left
  obtain ⟨member, notInA⟩ := NatSet.mem_sdiff.1 left
  rcases (Hypothesis.mem_union_of_compose composed).1 (contains n member) with inA | inB
  · exact absurd inA notInA
  · exact inB

end Derived

end Covering

end NumberConcepts
