import NumberConcepts.Hypothesis.Space
import NumberConcepts.Proofs.Hypothesis.Index
import NumberConcepts.Proofs.Sequence
/-!
# Filtering beside the scan

The index of a space finds what a look at each hypothesis finds, for any integers
and after each of them, as long as it was built from the hypotheses for numbers
among which all their members are. A number that is not indexed is then no member
either, so that both ways nothing is left.
-/

namespace NumberConcepts.HypothesisSpace

/-- The index is built from the hypotheses, for numbers among which all their members are. -/
structure Indexed (space : HypothesisSpace) (numbers : List Int) : Prop where
  built : space.index = .build space.hypotheses.toList numbers
  known : ∀ hypothesis ∈ space.hypotheses, ∀ n ∈ hypothesis.members, (n : Int) ∈ numbers

variable {space : HypothesisSpace} {numbers examples : List Int} {position : Nat}

/-- The hypotheses at the positions of those with a property are these, in their order. -/
theorem select_eq_filter {positions : NatSet} {accepts : Hypothesis space.domain.size → Bool}
    (describes : ∀ position, position ∈ positions ↔
      ∃ hypothesis, space.hypotheses[position]? = some hypothesis ∧ accepts hypothesis = true) :
    space.select positions = space.hypotheses.toList.filter accepts := by
  have below : ∀ position ∈ positions, position < space.hypotheses.toList.length := by
    intro position chosen
    obtain ⟨_, isAt, _⟩ := (describes position).1 chosen
    simpa using (Array.getElem?_eq_some_iff.1 isAt).1
  have kept : ∀ position, (if decide (position ∈ positions) = true then
      space.hypotheses.toList[position]? else none) =
        space.hypotheses.toList[position]?.filter accepts := by
    intro position
    simp only [Array.getElem?_toList, decide_eq_true_iff, describes]
    cases space.hypotheses[position]? with
    | none => simp
    | some hypothesis => cases accepted : accepts hypothesis <;> simp [Option.filter, accepted]
  calc
    space.select positions
      = ((List.range space.hypotheses.toList.length).filter (· ∈ positions)).filterMap
          fun position => space.hypotheses.toList[position]? := by
        rw [select, NatSet.toList_eq_filter_range below]
        simp only [Array.getElem?_toList]
    _ = (List.range space.hypotheses.toList.length).filterMap fun position =>
          space.hypotheses.toList[position]?.filter accepts := by
        rw [List.filterMap_filter]
        exact congrArg (List.filterMap · _) (funext kept)
    _ = space.hypotheses.toList.filter accepts := by
        rw [← List.filter_filterMap, Sequence.filterMap_getElem?_range]

namespace Indexed

variable (indexed : space.Indexed numbers)

include indexed

/-- All positions are indexed. -/
theorem mem_all : position ∈ space.index.all ↔ position < space.count := by
  rw [indexed.built, Index.mem_all, Array.length_toList, count]

/-- The index finds the hypotheses that contain a number, be it indexed or not. -/
theorem mem_containing {n : Int} :
    position ∈ space.index.containing n ↔
      ∃ hypothesis, space.hypotheses[position]? = some hypothesis ∧
        hypothesis.members.containsInt n = true := by
  rw [indexed.built, Index.mem_containing, and_iff_right_of_imp]
  · simp only [Array.getElem?_toList]
  · rintro ⟨hypothesis, isAt, contains⟩
    rw [Array.getElem?_toList] at isAt
    obtain ⟨m, member, rfl⟩ := NatSet.containsInt_iff.1 contains
    exact indexed.known hypothesis (Array.mem_of_getElem? isAt) m member

/-- The index finds the hypotheses that contain all of some integers. -/
theorem mem_consistent :
    position ∈ space.index.consistent examples ↔
      ∃ hypothesis, space.hypotheses[position]? = some hypothesis ∧
        hypothesis.containsAll examples = true := by
  rw [Index.consistent, Index.mem_narrow, indexed.mem_all, count]
  simp only [indexed.mem_containing, Hypothesis.containsAll, NatSet.containsAll, List.all_eq_true]
  constructor
  · rintro ⟨below, found⟩
    refine ⟨_, Array.getElem?_eq_getElem below, ?_⟩
    intro n isExample
    obtain ⟨hypothesis, isAt, contains⟩ := found n isExample
    obtain rfl := Option.some.inj ((Array.getElem?_eq_getElem below).symm.trans isAt)
    exact contains
  · rintro ⟨hypothesis, isAt, contains⟩
    exact ⟨(Array.getElem?_eq_some_iff.1 isAt).1,
      fun n isExample => ⟨hypothesis, isAt, contains n isExample⟩⟩

end Indexed

/-- The index finds exactly the positions of the hypotheses that a look at each of them keeps,
whatever the integers are. Its stages are what it finds for each initial part of them, from all
positions downward. -/
theorem filtering_agrees_with_scan (indexed : space.Indexed numbers) (examples : List Int) :
    (∀ position, position ∈ space.index.consistent examples ↔
      ∃ hypothesis ∈ space.containingAll examples,
        space.hypotheses[position]? = some hypothesis) ∧
    space.select (space.index.consistent examples) = space.containingAll examples ∧
    (space.index.stages examples).length = examples.length + 1 ∧
    (∀ seen, seen ≤ examples.length → (space.index.stages examples)[seen]? =
      some (space.index.consistent (examples.take seen))) ∧
    (space.index.stages examples).Pairwise (fun before after => after ⊆ before) ∧
    (space.index.stages examples).head? = some space.index.all ∧
    ∀ position, position ∈ space.index.all ↔ position < space.count := by
  refine ⟨?_, select_eq_filter fun _ => indexed.mem_consistent, ?_, ?_,
    space.index.pairwise_stages examples, ?_, fun _ => indexed.mem_all⟩
  · intro position
    rw [indexed.mem_consistent]
    constructor
    · rintro ⟨hypothesis, isAt, contains⟩
      have listed := Array.mem_toList_iff.2 (Array.mem_of_getElem? isAt)
      exact ⟨hypothesis, List.mem_filter.2 ⟨listed, contains⟩, isAt⟩
    · rintro ⟨hypothesis, kept, isAt⟩
      exact ⟨hypothesis, isAt, (List.mem_filter.1 kept).2⟩
  · rw [Index.stages_eq, List.length_map, List.length_inits]
  · intro seen bound
    have inRange : seen < examples.inits.length := by
      rw [List.length_inits]
      omega
    rw [Index.stages_eq, List.getElem?_map, List.getElem?_eq_getElem inRange, List.getElem_inits,
      Option.map_some]
  · cases examples <;> rfl

/-- Over twelve numbers, with one hypothesis twice and an index that starts below the domain, the
index agrees with the scan for 6, 0, again 6 and 40, of which all but 6 leave nothing. -/
theorem filtering_agrees_past_nothing :
    let hypotheses : List (Hypothesis 12) :=
      [.ofTerminal 12 (.multipleOf 3), .ofTerminal 12 (.interval 5 9),
        .ofConcept 12 (.combine .union (.terminal (.powerOf 2)) (.terminal (.endsIn 6))),
        .ofTerminal 12 (.multipleOf 3), .ofTerminal 12 (.multipleOf 20)]
    let numbers : List Int := (List.range 14).map fun (offset : Nat) => (offset : Int) - 1
    let space : HypothesisSpace :=
      ⟨⟨12, by decide⟩, hypotheses.toArray, .build hypotheses numbers⟩
    (∀ position, position ∈ space.index.consistent [6, 0, 6, 40] ↔
      ∃ hypothesis ∈ space.containingAll [6, 0, 6, 40],
        space.hypotheses[position]? = some hypothesis) ∧
    space.select (space.index.consistent [6, 0, 6, 40]) = space.containingAll [6, 0, 6, 40] ∧
    (space.index.stages [6, 0, 6, 40]).length = 5 ∧
    (∀ seen, seen ≤ 4 → (space.index.stages [6, 0, 6, 40])[seen]? =
      some (space.index.consistent (([6, 0, 6, 40] : List Int).take seen))) ∧
    (space.index.stages [6, 0, 6, 40]).Pairwise (fun before after => after ⊆ before) ∧
    (space.index.stages [6, 0, 6, 40]).head? = some space.index.all ∧
    ∀ position, position ∈ space.index.all ↔ position < 5 := by
  intro hypotheses numbers space
  have known : ∀ hypothesis ∈ hypotheses, ∀ n ∈ hypothesis.members.toList, (n : Int) ∈ numbers := by
    decide +kernel
  have indexed : space.Indexed numbers := by
    refine ⟨rfl, ?_⟩
    intro hypothesis listed n member
    exact known hypothesis (List.mem_toArray.1 listed) n (NatSet.mem_toList.2 member)
  exact filtering_agrees_with_scan indexed [6, 0, 6, 40]

end NumberConcepts.HypothesisSpace
