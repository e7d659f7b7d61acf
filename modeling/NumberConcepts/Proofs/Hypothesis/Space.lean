import Mathlib.Data.List.Nodup
import NumberConcepts.Hypothesis.Space
import NumberConcepts.Proofs.Concept.Extension
import NumberConcepts.Proofs.Domain
import NumberConcepts.Proofs.Hypothesis.Composition
import NumberConcepts.Proofs.Hypothesis.Index
/-!
# Hypothesis spaces with a right index

A space is `Sound` when its hypotheses have members, all of them in the domain,
and its index knows each of these members. Spaces built from legal concepts are,
and so the base space of every domain is. In a sound space the hypotheses that
the index finds consistent are those that contain all examples.
-/

namespace NumberConcepts

/-- A concept of legal terminals has only numbers of the domain as members. -/
theorem Concept.inside {concept : Concept} {size n : Nat}
    (legal : ∀ leaf ∈ concept.leaves, leaf.Legal) (belongs : n ∈ concept.extension size) :
    1 ≤ n ∧ n ≤ size :=
  ((mem_extension legal).1 belongs).1

namespace Hypothesis

/-- Every concept with members is among the hypotheses of a list of concepts, and no other one. -/
theorem mem_inhabitedOf {size : Nat} {concepts : List Concept} {hypothesis : Hypothesis size} :
    hypothesis ∈ inhabitedOf size concepts ↔
      hypothesis.concept ∈ concepts ∧ hypothesis.members ≠ ∅ := by
  rw [inhabitedOf, List.mem_filter, NatSet.not_isEmpty_iff, and_congr_left_iff]
  intro _
  constructor
  · intro listed
    obtain ⟨concept, member, rfl⟩ := List.mem_map.1 listed
    exact member
  · intro member
    exact List.mem_map.2 ⟨hypothesis.concept, member, concept_injective rfl⟩

/-- Which values the numbers have decides whether all of them are members. -/
theorem containsAll_congr {size : Nat} {first second : List Nat}
    (values : ∀ n, n ∈ first ↔ n ∈ second) (hypothesis : Hypothesis size) :
    hypothesis.containsAll (first.map Int.ofNat) =
      hypothesis.containsAll (second.map Int.ofNat) := by
  rw [Bool.eq_iff_iff, containsAll, containsAll, NatSet.containsAll_map_ofNat,
    NatSet.containsAll_map_ofNat]
  simp only [values]

end Hypothesis

namespace HypothesisSpace

/-- Every hypothesis has members, all of them in the domain, and the index finds it from each of
them. -/
structure Sound (space : HypothesisSpace) : Prop where
  inhabited : ∀ hypothesis ∈ space.hypotheses, hypothesis.members ≠ ∅
  inside : ∀ hypothesis ∈ space.hypotheses, ∀ n ∈ hypothesis.members, 1 ≤ n ∧ n ≤ space.domain.size
  all : ∀ position, position ∈ space.index.all ↔ position < space.hypotheses.size
  containing : ∀ (n position : Nat), position ∈ space.index.containing n ↔
    ∃ hypothesis, space.hypotheses[position]? = some hypothesis ∧ n ∈ hypothesis.members

/-- The hypotheses of a space of concepts are those with members. -/
theorem mem_ofConcepts {domain : Domain} {concepts : List Concept} {indexed : List Int}
    {hypothesis : Hypothesis domain.size} :
    hypothesis ∈ (ofConcepts domain concepts indexed).hypotheses ↔
      hypothesis.concept ∈ concepts ∧ hypothesis.members ≠ ∅ := by
  exact List.mem_toArray.trans Hypothesis.mem_inhabitedOf

theorem mem_indexedNumbers {domain : Domain} {n : Nat} :
    (n : Int) ∈ indexedNumbers domain ↔ 1 ≤ n ∧ n ≤ domain.size := by
  rw [indexedNumbers, ← Int.ofNat_eq_natCast, List.mem_map_of_injective fun _ _ => Int.ofNat.inj,
    Domain.mem_numbers]

/-- A space of legal concepts that is indexed by its domain is sound. -/
theorem sound_ofConcepts {domain : Domain} {concepts : List Concept}
    (legal : ∀ concept ∈ concepts, ∀ leaf ∈ concept.leaves, leaf.Legal) :
    (ofConcepts domain concepts (indexedNumbers domain)).Sound := by
  have inside : ∀ hypothesis ∈ (ofConcepts domain concepts (indexedNumbers domain)).hypotheses,
      ∀ n ∈ hypothesis.members, 1 ≤ n ∧ n ≤ domain.size := by
    intro hypothesis listed n member
    rw [hypothesis.members_eq] at member
    exact Concept.inside (legal _ (mem_ofConcepts.1 listed).1) member
  refine ⟨fun hypothesis listed => (mem_ofConcepts.1 listed).2, inside, ?_, ?_⟩
  · intro position
    exact Index.mem_all
  · intro n position
    have found : position ∈ (ofConcepts domain concepts (indexedNumbers domain)).index.containing n ↔
        (n : Int) ∈ indexedNumbers domain ∧
          ∃ hypothesis, (Hypothesis.inhabitedOf domain.size concepts).toArray[position]? =
            some hypothesis ∧ hypothesis.members.containsInt n = true := by
      simp only [List.getElem?_toArray]
      exact Index.mem_containing
    simp only [found, NatSet.containsInt_natCast, mem_indexedNumbers]
    constructor
    · rintro ⟨_, known⟩
      exact known
    · rintro ⟨hypothesis, isAt, member⟩
      exact ⟨inside hypothesis (Array.mem_of_getElem? isAt) n member, hypothesis, isAt, member⟩

/-! ### The base space -/

theorem mem_intervals {domain : Domain} {concept : Concept} :
    concept ∈ intervals domain ↔
      ∃ low high, concept = .terminal (.interval low high) ∧ 1 ≤ low ∧ low ≤ high ∧
        high ≤ domain.size := by
  simp only [intervals, Domain.numbers, List.mem_flatMap, List.mem_map, List.mem_range]
  constructor
  · rintro ⟨low, ⟨n, below, rfl⟩, width, bound, rfl⟩
    exact ⟨n + 1, n + 1 + width, rfl, by omega, by omega, by omega⟩
  · rintro ⟨low, high, rfl, positive, ordered, upper⟩
    refine ⟨low, ⟨low - 1, by omega, by omega⟩, high - low, by omega, ?_⟩
    rw [Nat.add_sub_cancel' ordered]

theorem nodup_intervals (domain : Domain) : (intervals domain).Nodup := by
  rw [intervals, List.nodup_flatMap]
  constructor
  · intro low _
    apply List.Nodup.map _ List.nodup_range
    intro width width' same
    have highs : low + width = low + width' := (Terminal.interval.inj (Concept.terminal.inj same)).2
    omega
  · apply List.Pairwise.imp _ domain.nodup_numbers
    intro low low' different concept listed listed'
    obtain ⟨width, _, rfl⟩ := List.mem_map.1 listed
    obtain ⟨width', _, same⟩ := List.mem_map.1 listed'
    exact different (Terminal.interval.inj (Concept.terminal.inj same)).1.symm

/-- No hypothesis of the base space is listed twice. -/
theorem nodup_base (domain : Domain) : (base domain).hypotheses.toList.Nodup := by
  have others : ∀ concept ∈ rules, concept.isInterval = false := by decide
  have concepts : (rules ++ intervals domain).Nodup := by
    apply List.Nodup.append (by decide) (nodup_intervals domain)
    intro concept rule interval
    obtain ⟨low, high, rfl, _⟩ := mem_intervals.1 interval
    cases others _ rule
  have injective : Function.Injective (Hypothesis.ofConcept domain.size) :=
    fun _ _ same => congrArg Hypothesis.concept same
  change (Hypothesis.inhabitedOf domain.size (rules ++ intervals domain)).Nodup
  exact (concepts.map injective).filter _

/-- The concepts of the base space are legal terminals. -/
theorem legal_base {domain : Domain} {concept : Concept} (listed : concept ∈ rules ++ intervals domain) :
    ∃ leaf : Terminal, concept = .terminal leaf ∧ leaf.Legal := by
  rcases List.mem_append.1 listed with rule | interval
  · have legal : ∀ concept ∈ rules, ∃ leaf ∈ concept.leaves, concept = .terminal leaf ∧ leaf.Legal := by
      decide
    obtain ⟨leaf, _, same⟩ := legal concept rule
    exact ⟨leaf, same⟩
  · obtain ⟨low, high, rfl, positive, ordered, upper⟩ := mem_intervals.1 interval
    exact ⟨_, rfl, Domain.legal_interval positive ordered upper⟩

/-- The base space of a domain is sound. -/
theorem sound_base (domain : Domain) : (base domain).Sound := by
  apply sound_ofConcepts
  intro concept listed leaf isLeaf
  obtain ⟨leaf', rfl, legal⟩ := legal_base listed
  rw [Concept.leaves, List.mem_singleton] at isLeaf
  rwa [isLeaf]

namespace Sound

variable {space : HypothesisSpace} {examples : List Nat} {position : Nat}

/-- The positions that the index finds consistent are those of the hypotheses that contain all
examples. -/
theorem mem_consistent (sound : space.Sound) :
    position ∈ space.consistent examples ↔
      ∃ hypothesis, space.hypotheses[position]? = some hypothesis ∧
        ∀ n ∈ examples, n ∈ hypothesis.members := by
  rw [consistent, Index.consistent, Index.mem_narrow, sound.all, List.forall_mem_map]
  simp only [Int.ofNat_eq_natCast, sound.containing]
  constructor
  · rintro ⟨below, found⟩
    refine ⟨space.hypotheses[position], Array.getElem?_eq_getElem below, ?_⟩
    intro n isExample
    obtain ⟨hypothesis, isAt, member⟩ := found n isExample
    rw [Array.getElem?_eq_getElem below, Option.some.injEq] at isAt
    rwa [isAt]
  · rintro ⟨hypothesis, isAt, contains⟩
    obtain ⟨below, _⟩ := Array.getElem?_eq_some_iff.1 isAt
    exact ⟨below, fun n isExample => ⟨hypothesis, isAt, contains n isExample⟩⟩

end Sound

/-- Which values the examples have decides what the index leaves. -/
theorem consistent_congr {space : HypothesisSpace} {first second : List Nat}
    (values : ∀ n, n ∈ first ↔ n ∈ second) :
    space.consistent first = space.consistent second := by
  ext position
  simp only [consistent, Index.consistent, Index.mem_narrow, List.forall_mem_map, values]

/-- The hypotheses selected are those at the positions of the set. -/
theorem mem_select {space : HypothesisSpace} {positions : NatSet}
    {hypothesis : Hypothesis space.domain.size} :
    hypothesis ∈ space.select positions ↔
      ∃ position ∈ positions, space.hypotheses[position]? = some hypothesis := by
  simp only [select, List.mem_filterMap, NatSet.mem_toList]

/-- The hypotheses of a sound space that the index finds are those that contain all examples. -/
theorem Sound.mem_select_consistent {space : HypothesisSpace} (sound : space.Sound)
    {examples : List Nat} {hypothesis : Hypothesis space.domain.size} :
    hypothesis ∈ space.select (space.consistent examples) ↔
      hypothesis ∈ space.hypotheses ∧ ∀ n ∈ examples, n ∈ hypothesis.members := by
  simp only [mem_select, sound.mem_consistent, Array.mem_iff_getElem?]
  constructor
  · rintro ⟨position, ⟨found, isAt, contains⟩, isAt'⟩
    obtain rfl := Option.some.inj (isAt.symm.trans isAt')
    exact ⟨⟨position, isAt⟩, contains⟩
  · rintro ⟨⟨position, isAt⟩, contains⟩
    exact ⟨position, ⟨hypothesis, isAt, contains⟩, isAt⟩

end HypothesisSpace

end NumberConcepts
