import NumberConcepts.Proofs.Search.Pool
import NumberConcepts.Proofs.Search.Repetition
import NumberConcepts.Proofs.Search.Visits
/-!
# What the exhaustive enumeration lists

`listed_eq_ok` reads the enumeration with its early stop as an initial part of
one list. `listed_exactly_once` says which concepts this list holds: the
inhabited terminals and the canonical combinations within the depth, each once.
-/

namespace NumberConcepts

/-- What an enumeration over a pool lists within a depth: terminals with members, and canonical
combinations of terminals. -/
def Concept.Enumerable (size : Nat) (pool : List Terminal) (depth : Nat) : Concept → Prop
  | terminal leaf => leaf ∈ pool ∧ leaf.extension size ≠ ∅
  | combine operation left right =>
    (combine operation left right).depth ≤ min depth maxDepth ∧
      (∀ leaf ∈ (combine operation left right).leaves, leaf ∈ pool) ∧
      (combine operation left right).Canonical size

/-- A concept is enumerable when it has members and is built from the pool within the depth. -/
theorem Concept.enumerable_iff {size depth : Nat} {pool : List Terminal} {concept : Concept} :
    concept.Enumerable size pool depth ↔
      concept.BuiltFrom size pool ∧ concept.depth ≤ depth ∧ concept.extension size ≠ ∅ := by
  cases concept with
  | terminal leaf =>
      rw [Enumerable, builtFrom_terminal]
      constructor
      · rintro ⟨member, members⟩
        exact ⟨member, Nat.zero_le _, members⟩
      · rintro ⟨member, _, members⟩
        exact ⟨member, members⟩
  | combine operation left right =>
      rw [Enumerable, Nat.le_min]
      constructor
      · rintro ⟨⟨bounded, shallow⟩, leaves, canonical⟩
        exact ⟨⟨leaves, canonical, shallow⟩, bounded, canonical.extension_ne_empty rfl⟩
      · rintro ⟨built, bounded, _⟩
        exact ⟨⟨bounded, built.shallow⟩, built.leaves, built.canonical⟩

namespace Enumeration

variable {domain : Domain} {grammar : Grammar} {examples : List Nat}

/-- The enumeration for some examples, to a depth and without a limit. -/
def everything (domain : Domain) (grammar : Grammar) (examples : List Nat) (depth : Nat) :
    List (Hypothesis domain.size) :=
  all ((grammar.pool domain.size (examples.map Int.ofNat)).map (Hypothesis.ofTerminal domain.size))
    depth

/-- For a grammar in range the enumeration never fails, and a limit cuts off the one list. -/
theorem listed_eq_ok (inRange : grammar.InRange) (admitted : domain.HasExamples examples)
    (depth limit : Nat) :
    listed domain.size grammar (examples.map Int.ofNat) depth limit =
      .ok ((everything domain grammar examples depth).take limit) := by
  rw [listed]
  split
  next none => rw [none, List.take_zero]
  next some =>
    rw [inRange.poolOf_eq_ok admitted]
    change Except.ok (firstAccepted _ _ _ _) = _
    rw [firstAccepted_eq, List.filter_true, everything]

/-- The concepts of the enumeration are the enumerable ones. -/
theorem mem_everything {depth : Nat} {hypothesis : Hypothesis domain.size} :
    hypothesis ∈ everything domain grammar examples depth ↔
      hypothesis.concept.Enumerable domain.size
        (grammar.pool domain.size (examples.map Int.ofNat)) depth := by
  rw [everything, mem_all, Concept.enumerable_iff, hypothesis.members_eq]

/-- A grammar in range and without repetition has no concept twice in its enumeration. -/
theorem nodup_everything (inRange : grammar.InRange) (distinct : grammar.Distinct)
    (admitted : domain.HasExamples examples) (depth : Nat) :
    ((everything domain grammar examples depth).map Hypothesis.concept).Nodup :=
  (nodup_all (distinct.nodup_pool inRange admitted) depth).map Hypothesis.concept_injective

/-- The enumeration of a grammar in range and without repetition lists each enumerable concept
exactly once and no other one, and no two that differ only by swapped parts. -/
theorem listed_exactly_once (inRange : grammar.InRange) (distinct : grammar.Distinct)
    (admitted : domain.HasExamples examples) (depth : Nat) :
    ∃ (pool : List Terminal) (yielded : List Concept),
      Terminals.ofGrammar domain.size grammar (examples.map Int.ofNat) = .ok pool ∧
      (∀ limit, (listed domain.size grammar (examples.map Int.ofNat) depth limit).map
        (fun found => found.map Hypothesis.concept) = .ok (yielded.take limit)) ∧
      (∀ concept, concept.Enumerable domain.size pool depth → yielded.count concept = 1) ∧
      (∀ concept ∈ yielded, concept.Enumerable domain.size pool depth) ∧
      ∀ a ∈ yielded, ∀ b ∈ yielded, Concept.SameUpToSwaps a b → a = b := by
  have sound : ∀ concept ∈ (everything domain grammar examples depth).map Hypothesis.concept,
      concept.Enumerable domain.size (grammar.pool domain.size (examples.map Int.ofNat)) depth := by
    intro concept member
    obtain ⟨hypothesis, listed, rfl⟩ := List.mem_map.1 member
    exact mem_everything.1 listed
  refine ⟨_, _, inRange.ofGrammar_eq_ok admitted, ?_, ?_, sound, ?_⟩
  · intro limit
    rw [listed_eq_ok inRange admitted, ← List.map_take]
    rfl
  · intro concept enumerable
    apply List.count_eq_one_of_mem (nodup_everything inRange distinct admitted depth)
    exact List.mem_map.2 ⟨Hypothesis.ofConcept domain.size concept, mem_everything.2 enumerable, rfl⟩
  · intro a memberA b memberB same
    have canonicalA := (Concept.enumerable_iff.1 (sound a memberA)).1.canonical
    have canonicalB := (Concept.enumerable_iff.1 (sound b memberB)).1.canonical
    exact canonicalA.eq_of_sameUpToSwaps canonicalB same

/-- In the domain of twenty numbers the multiples of three or powers of two are enumerated once. -/
theorem listed_exactly_once_union :
    ∃ yielded : List Concept,
      (∀ limit, (listed 20 ⟨[2], [3], false, 3⟩ [4] 2 limit).map
        (fun found => found.map Hypothesis.concept) = .ok (yielded.take limit)) ∧
      yielded.count (.combine .union (.terminal (.multipleOf 3)) (.terminal (.powerOf 2))) = 1 := by
  let grammar : Grammar := ⟨[2], [3], false, 3⟩
  let domain : Domain := ⟨20, by decide⟩
  have inRange : grammar.InRange := ⟨by decide, by decide⟩
  have distinct : grammar.Distinct := ⟨by decide, by decide⟩
  have admitted : domain.HasExamples [4] := ⟨by decide, by decide⟩
  obtain ⟨pool, yielded, built, listed, once, _⟩ :=
    listed_exactly_once inRange distinct admitted 2
  refine ⟨yielded, listed, once _ ?_⟩
  obtain rfl := Except.ok.inj ((inRange.ofGrammar_eq_ok admitted).symm.trans built)
  have multiples : Terminal.multipleOf 3 ∈ grammar.rules := by decide
  have powers : Terminal.powerOf 2 ∈ grammar.rules := by decide
  refine ⟨by decide, ?_, by decide +kernel⟩
  intro leaf isLeaf
  rcases List.mem_cons.1 isLeaf with rfl | rest
  · exact List.mem_append_left _ multiples
  · rw [List.mem_singleton.1 rest]
    exact List.mem_append_left _ powers

end Enumeration

end NumberConcepts
