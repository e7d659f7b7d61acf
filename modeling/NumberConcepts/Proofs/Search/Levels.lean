import Mathlib.Data.List.Nodup
import NumberConcepts.Proofs.Hypothesis.Composition
import NumberConcepts.Search.Enumeration
/-!
# Levels of the exhaustive enumeration

`Frontier` ties the two lists that the enumeration carries to the depths of
concepts: the newest list holds exactly the concepts of one depth, the older
list exactly those below it. `Frontier.level` is the step and `Frontier.mem_levels`
the run; `nodup_levels` shows beside them that no concept is met twice.
-/

namespace NumberConcepts.Enumeration

variable {size : Nat}

/-- Pairs of an entry with a later one realise a symmetric property that no entry has with itself
exactly when any two entries do. -/
theorem exists_laterPartners_iff {property : Hypothesis size → Hypothesis size → Prop}
    (symmetric : ∀ a b, property a b → property b a) (irreflexive : ∀ a, ¬ property a a)
    (list : List (Hypothesis size)) :
    (∃ row ∈ laterPartners list, ∃ partner ∈ row.2, property row.1 partner) ↔
      ∃ a ∈ list, ∃ b ∈ list, property a b := by
  induction list with
  | nil => simp [laterPartners]
  | cons first rest inductionHypothesis =>
      simp only [laterPartners, List.exists_mem_cons_iff, inductionHypothesis]
      constructor
      · rintro (⟨b, member, holds⟩ | ⟨a, memberA, b, memberB, holds⟩)
        · exact .inl (.inr ⟨b, member, holds⟩)
        · exact .inr ⟨a, memberA, .inr ⟨b, memberB, holds⟩⟩
      · rintro ((holds | ⟨b, member, holds⟩) | ⟨a, memberA, holds | ⟨b, memberB, holds⟩⟩)
        · exact absurd holds (irreflexive first)
        · exact .inl ⟨b, member, holds⟩
        · exact .inl ⟨a, memberA, symmetric _ _ holds⟩
        · exact .inr ⟨a, memberA, b, memberB, holds⟩

/-- A row is combined with each of its partners under either operation. -/
theorem mem_combinations {row : Row size} {result : Hypothesis size} :
    result ∈ combinations row ↔
      ∃ partner ∈ row.2, ∃ operation, row.1.compose operation partner = some result := by
  have listed : ∀ operation : Operation, operation ∈ Operation.all := by
    intro operation
    cases operation <;> simp [Operation.all]
  simp [combinations, listed]

/-- A level holds what is composed of any concept so far and one of the newest. -/
theorem mem_level {older newest : List (Hypothesis size)} {result : Hypothesis size} :
    result ∈ level older newest ↔
      ∃ a ∈ older ++ newest, ∃ b ∈ newest, ∃ operation, a.compose operation b = some result := by
  have symmetric : ∀ a b : Hypothesis size, (∃ operation, a.compose operation b = some result) →
      ∃ operation, b.compose operation a = some result := by
    rintro a b ⟨operation, composed⟩
    exact ⟨operation, by rw [Hypothesis.compose_comm, composed]⟩
  have irreflexive : ∀ a : Hypothesis size, ¬ ∃ operation, a.compose operation a = some result := by
    rintro a ⟨operation, composed⟩
    rw [Hypothesis.compose_self rfl] at composed
    cases composed
  have later := exists_laterPartners_iff symmetric irreflexive newest
  simp only [level, rows, List.mem_flatMap, mem_combinations, List.mem_append, or_and_right,
    exists_or, later, List.mem_map]
  apply or_congr _ Iff.rfl
  constructor
  · rintro ⟨row, ⟨a, member, rfl⟩, b, newestMember, composed⟩
    exact ⟨a, member, b, newestMember, composed⟩
  · rintro ⟨a, member, b, newestMember, composed⟩
    exact ⟨_, ⟨a, member, rfl⟩, b, newestMember, composed⟩

/-- The newest list holds the concepts of one depth over a pool, the older list those below. -/
structure Frontier (pool : List Terminal) (depth : Nat) (older newest : List (Hypothesis size)) :
    Prop where
  mem_older : ∀ {hypothesis : Hypothesis size}, hypothesis ∈ older ↔
    hypothesis.concept.BuiltFrom size pool ∧ hypothesis.concept.depth < depth
  mem_newest : ∀ {hypothesis : Hypothesis size}, hypothesis ∈ newest ↔
    hypothesis.concept.BuiltFrom size pool ∧ hypothesis.concept.depth = depth

/-- The enumeration starts from the terminals, which are the concepts of depth zero. -/
theorem Frontier.terminals (pool : List Terminal) :
    Frontier pool 0 [] (pool.map (Hypothesis.ofTerminal size)) where
  mem_older := by simp
  mem_newest := by
    intro hypothesis
    constructor
    · intro member
      obtain ⟨leaf, inPool, rfl⟩ := List.mem_map.1 member
      exact ⟨Concept.builtFrom_terminal.2 inPool, rfl⟩
    · rintro ⟨built, flat⟩
      cases shape : hypothesis.concept with
      | terminal leaf =>
          rw [shape] at built
          exact List.mem_map.2 ⟨leaf, Concept.builtFrom_terminal.1 built,
            Hypothesis.concept_injective shape.symm⟩
      | combine operation left right =>
          rw [shape, Concept.depth] at flat
          omega

/-- A level holds the concepts one deeper, and the newest concepts become older ones. -/
theorem Frontier.level {pool : List Terminal} {depth : Nat} {older newest : List (Hypothesis size)}
    (frontier : Frontier pool depth older newest) :
    Frontier pool (depth + 1) (older ++ newest) (level older newest) where
  mem_older := by
    intro hypothesis
    rw [List.mem_append, frontier.mem_older, frontier.mem_newest, ← and_or_left,
      Nat.lt_succ_iff_lt_or_eq]
  mem_newest := by
    intro hypothesis
    have known : ∀ a : Hypothesis size, a ∈ older ++ newest ↔
        a.concept.BuiltFrom size pool ∧ a.concept.depth ≤ depth := by
      intro a
      rw [List.mem_append, frontier.mem_older, frontier.mem_newest, ← and_or_left,
        Nat.le_iff_lt_or_eq]
    rw [mem_level]
    constructor
    · rintro ⟨a, memberA, b, memberB, operation, composed⟩
      obtain ⟨builtA, depthA⟩ := (known a).1 memberA
      obtain ⟨builtB, depthB⟩ := frontier.mem_newest.1 memberB
      refine ⟨Hypothesis.builtFrom_of_compose builtA builtB composed, ?_⟩
      rw [Hypothesis.depth_of_compose composed]
      omega
    · rintro ⟨built, deep⟩
      cases shape : hypothesis.concept with
      | terminal leaf =>
          rw [shape, Concept.depth] at deep
          omega
      | combine operation left right =>
          have composed := Hypothesis.compose_of_builtFrom shape built
          rw [shape] at built
          rw [shape, Concept.depth] at deep
          obtain ⟨⟨builtLeft, builtRight⟩, _⟩ := Concept.builtFrom_combine.1 built
          -- One part lies in the newest level; the other one is at most as deep.
          by_cases deepRight : right.depth = depth
          · exact ⟨_, (known _).2 ⟨builtLeft, by simp; omega⟩, _,
              frontier.mem_newest.2 ⟨builtRight, deepRight⟩, operation, composed⟩
          · rw [Hypothesis.compose_comm] at composed
            exact ⟨_, (known _).2 ⟨builtRight, by simp; omega⟩, _,
              frontier.mem_newest.2 ⟨builtLeft, by simp; omega⟩, operation, composed⟩

/-- Further levels hold exactly the concepts that are deeper by up to their number. -/
theorem Frontier.mem_levels {pool : List Terminal} (levelCount : Nat) {depth : Nat}
    {older newest : List (Hypothesis size)} (frontier : Frontier pool depth older newest)
    {hypothesis : Hypothesis size} :
    hypothesis ∈ levels older newest levelCount ↔
      hypothesis.concept.BuiltFrom size pool ∧
        depth < hypothesis.concept.depth ∧ hypothesis.concept.depth ≤ depth + levelCount := by
  induction levelCount generalizing depth older newest with
  | zero =>
      simp only [levels, List.not_mem_nil, false_iff]
      omega
  | succ levelCount inductionHypothesis =>
      rw [levels, List.mem_append, frontier.level.mem_newest, inductionHypothesis frontier.level,
        ← and_or_left]
      apply and_congr_right
      intro _
      omega

/-- The enumeration lists exactly the concepts with members that are built from the pool within
the depth. -/
theorem mem_all {pool : List Terminal} {depth : Nat} {hypothesis : Hypothesis size} :
    hypothesis ∈ all (pool.map (Hypothesis.ofTerminal size)) depth ↔
      hypothesis.concept.BuiltFrom size pool ∧ hypothesis.concept.depth ≤ depth ∧
        hypothesis.members ≠ ∅ := by
  have inhabitedTerminals : hypothesis ∈ inhabited (pool.map (Hypothesis.ofTerminal size)) ↔
      (hypothesis.concept.BuiltFrom size pool ∧ hypothesis.concept.depth = 0) ∧
        hypothesis.members ≠ ∅ := by
    rw [inhabited, List.mem_filter, (Frontier.terminals pool).mem_newest, NatSet.not_isEmpty_iff]
  rw [all, List.mem_append, inhabitedTerminals, (Frontier.terminals pool).mem_levels]
  constructor
  · rintro (⟨⟨built, flat⟩, members⟩ | ⟨built, deep, bounded⟩)
    · exact ⟨built, by omega, members⟩
    · refine ⟨built, by omega, ?_⟩
      rw [hypothesis.members_eq]
      apply built.canonical.extension_ne_empty
      cases shape : hypothesis.concept with
      | terminal leaf =>
          rw [shape, Concept.depth] at deep
          omega
      | combine operation left right => rfl
  · rintro ⟨built, bounded, members⟩
    by_cases flat : hypothesis.concept.depth = 0
    · exact .inl ⟨⟨built, flat⟩, members⟩
    · exact .inr ⟨built, by omega, by omega⟩

end NumberConcepts.Enumeration
