import NumberConcepts.Proofs.Search.Indexed
/-!
# Examples by value

A search sees of the examples only which values they have. Wherever a list of
numbers is looked at, what is read off it has a fixed form: bounds and a common
divisor are folds that settle on one value, bases and steps are sorted without
repetition or filtered from the grammar, and targets are sets. So neither the
order of the examples nor a repetition reaches the order of the concepts found.
-/

namespace NumberConcepts

theorem NatSet.ofList_congr {first second : List Nat} (values : ∀ n, n ∈ first ↔ n ∈ second) :
    ofList first = ofList second := by
  ext n
  rw [mem_ofList, mem_ofList, values]

/-- Examples of a domain are so by their values. -/
theorem Domain.HasExamples.of_values {domain : Domain} {first second : List Nat}
    (admitted : domain.HasExamples first) (values : ∀ n, n ∈ first ↔ n ∈ second) :
    domain.HasExamples second where
  given := by
    obtain ⟨n, isExample⟩ := List.exists_mem_of_ne_nil _ admitted.given
    exact List.ne_nil_of_mem ((values n).1 isExample)
  inside n isExample := admitted.inside n ((values n).2 isExample)

/-! ### Faults of discovery -/

namespace Discovery

/-- Discovery of bases fails in one way only. -/
theorem fault_of_fittingBases {grammar : Grammar} {target : List Int} {fault : Fault}
    (fails : fittingBases grammar target = .error fault) : fault = .overflow := by
  rw [fittingBases] at fails
  split at fails
  next => cases fails
  next =>
    split at fails
    · exact (Except.error.inj fails).symm
    · cases fails

theorem fault_of_divisorsAmong {n : Nat} {steps : List Int} {fault : Fault}
    (fails : divisorsAmong n steps = .error fault) : fault = .zeroModulus := by
  induction steps with
  | nil => cases fails
  | cons step rest inductionHypothesis =>
      rw [divisorsAmong] at fails
      split at fails
      · exact (Except.error.inj fails).symm
      · cases found : divisorsAmong n rest with
        | error other =>
            rw [found] at fails
            obtain rfl := Except.error.inj fails
            exact inductionHypothesis found
        | ok divisors =>
            rw [found] at fails
            cases fails

/-- So does discovery of steps. -/
theorem fault_of_fittingSteps {grammar : Grammar} {target : List Int} {fault : Fault}
    (fails : fittingSteps grammar target = .error fault) : fault = .zeroModulus := by
  simp only [fittingSteps] at fails
  split at fails
  · cases fails
  · exact fault_of_divisorsAmong fails

end Discovery

variable {first second : List Int} (values : ∀ n, n ∈ first ↔ n ∈ second)

/-! ### What is read off numbers -/

include values in
theorem Number.commonDivisor_congr : commonDivisor first = commonDivisor second := by
  apply Nat.dvd_antisymm
  · rw [dvd_commonDivisor_iff]
    exact fun n isSecond => dvd_commonDivisor_iff.1 (Nat.dvd_refl _) n ((values n).2 isSecond)
  · rw [dvd_commonDivisor_iff]
    exact fun n isFirst => dvd_commonDivisor_iff.1 (Nat.dvd_refl _) n ((values n).1 isFirst)

namespace Discovery

include values

/-- Bounds are values between which all values lie. -/
theorem bounds_congr : bounds first = bounds second := by
  by_cases given : first = []
  · subst given
    have none : second = [] := List.eq_nil_iff_forall_not_mem.2 fun n isSecond =>
      List.not_mem_nil ((values n).2 isSecond)
    rw [none]
  have given' : second ≠ [] := by
    obtain ⟨n, isFirst⟩ := List.exists_mem_of_ne_nil _ given
    exact List.ne_nil_of_mem ((values n).1 isFirst)
  obtain ⟨least, isLeast, greatest, isGreatest, found, between⟩ := bounds_eq_ok given
  obtain ⟨least', isLeast', greatest', isGreatest', found', between'⟩ := bounds_eq_ok given'
  have sameLeast : least = least' := le_antisymm (between _ ((values _).2 isLeast')).1
    (between' _ ((values _).1 isLeast)).1
  have sameGreatest : greatest = greatest' := le_antisymm (between' _ ((values _).1 isGreatest)).2
    (between _ ((values _).2 isGreatest')).2
  rw [found, found', sameLeast, sameGreatest]

theorem sortedDistinct_congr : sortedDistinct first = sortedDistinct second := by
  apply (pairwise_sortedDistinct first).eq_of_mem_iff (pairwise_sortedDistinct second)
  intro x
  rw [mem_sortedDistinct, mem_sortedDistinct, values]

theorem fittingBases_congr (grammar : Grammar) :
    fittingBases grammar first = fittingBases grammar second := by
  have everywhere : ∀ base, (first.all fun n => Number.isPowerOf n base) =
      second.all fun n => Number.isPowerOf n base := by
    intro base
    rw [Bool.eq_iff_iff, List.all_eq_true, List.all_eq_true]
    simp only [values]
  simp only [fittingBases, sortedDistinct_congr values, everywhere]

theorem fittingSteps_congr (grammar : Grammar) :
    fittingSteps grammar first = fittingSteps grammar second := by
  rw [fittingSteps, fittingSteps, Number.commonDivisor_congr values]

end Discovery

namespace Terminals

include values

theorem partialBases_congr (grammar : Grammar) :
    partialBases grammar first = partialBases grammar second := by
  have above : ∀ n, n ∈ first.filter (1 < ·) ↔ n ∈ second.filter (1 < ·) := by
    intro n
    rw [List.mem_filter, List.mem_filter, values]
  have alike : ∀ n fault, Discovery.fittingBases grammar [n] = .error fault → fault = .overflow :=
    fun _ _ => Discovery.fault_of_fittingBases
  rw [partialBases, partialBases]
  rcases Sequence.mapM_flatten_congr alike above with
    ⟨fails, fails'⟩ | ⟨bases, bases', succeeds, succeeds', members⟩
  · rw [fails, fails']
  · rw [succeeds, succeeds']
    exact congrArg Except.ok (Discovery.sortedDistinct_congr members)

theorem partialMultiples_congr (grammar : Grammar) :
    partialMultiples grammar first = partialMultiples grammar second := by
  have alike : ∀ n fault, Discovery.fittingSteps grammar [n] = .error fault →
      fault = .zeroModulus := fun _ _ => Discovery.fault_of_fittingSteps
  rw [partialMultiples, partialMultiples]
  rcases Sequence.mapM_flatten_congr alike values with
    ⟨fails, fails'⟩ | ⟨steps, steps', succeeds, succeeds', members⟩
  · rw [fails, fails']
  · rw [succeeds, succeeds']
    exact congrArg Except.ok (Discovery.sortedDistinct_congr members)

theorem intervals_congr (size limit : Int) :
    intervals size limit first = intervals size limit second := by
  rw [intervals, intervals, Discovery.bounds_congr values]

theorem ofGrammar_congr (size : Int) (grammar : Grammar) :
    ofGrammar size grammar first = ofGrammar size grammar second := by
  simp only [ofGrammar, intervals_congr values]

end Terminals

/-! ### Searches -/

namespace HypothesisSpace

variable {first second : List Nat}

/-- A search lists the same for examples of the same values, or fails alike. -/
theorem synthesize_congr (space : HypothesisSpace) (search : Synthesis)
    (values : ∀ n, n ∈ first ↔ n ∈ second) :
    space.synthesize search first = space.synthesize search second := by
  have integers : ∀ n, n ∈ first.map Int.ofNat ↔ n ∈ second.map Int.ofNat := by
    simp only [List.mem_map, values, implies_true]
  have contained := fun hypothesis : Hypothesis space.domain.size =>
    hypothesis.containsAll_congr values
  rw [synthesize, synthesize]
  cases search.strategy with
  | exact =>
      simp only [searchExhaustively, Enumeration.poolOf, contained,
        Terminals.ofGrammar_congr integers]
  | guided =>
      simp only [searchGuided, Covering.ofExamples, Covering.problemOf, contained,
        Terminals.intervals_congr integers, NatSet.ofList_congr values]
  | indexed => simp only [searchIndex, consistent_congr values]

variable {grammar : Grammar} {depth : Int}

/-- Whatever the strategy, a search lists some concepts for examples of a domain. -/
theorem exists_found (space : HypothesisSpace) (inRange : grammar.InRange)
    (admitted : space.domain.HasExamples first) (strategy : Strategy)
    (possible : 0 ≤ depth ∧ depth ≤ Concept.maxDepth) (limit : Int) :
    ∃ found, space.synthesizeAsked strategy.name grammar depth limit (Domain.asData first) =
      .ok found := by
  cases strategy with
  | exact => exact ⟨_, exact_eq_ok inRange admitted possible limit⟩
  | guided =>
      obtain ⟨_, _, _, isFound⟩ := guided_eq_ok inRange admitted possible
      exact ⟨_, isFound limit⟩
  | indexed => exact ⟨_, indexed_eq_ok admitted grammar possible limit⟩

/-- For examples of a domain with the same values, whatever their order and repetitions, every
strategy finds the same concepts in the same order. On the way the numbers of a target may be taken
in any order and repeatedly, too: the bases and steps read off them are the same. -/
theorem synthesize_exchanged (space : HypothesisSpace) (inRange : grammar.InRange)
    (admitted : space.domain.HasExamples first) (values : ∀ n, n ∈ first ↔ n ∈ second)
    (strategy : Strategy) (possible : 0 ≤ depth ∧ depth ≤ Concept.maxDepth) (limit : Int) :
    (∃ found,
      space.synthesizeAsked strategy.name grammar depth limit (Domain.asData first) = .ok found ∧
      space.synthesizeAsked strategy.name grammar depth limit (Domain.asData second) =
        .ok found) ∧
    ∀ (target : NatSet) (numbers : List Int), (∀ n, n ∈ Terminals.integers target ↔ n ∈ numbers) →
      Discovery.fittingBases grammar (Terminals.integers target) =
        Discovery.fittingBases grammar numbers ∧
      Discovery.fittingSteps grammar (Terminals.integers target) =
        Discovery.fittingSteps grammar numbers ∧
      Terminals.partialBases grammar (Terminals.integers target) =
        Terminals.partialBases grammar numbers ∧
      Terminals.partialMultiples grammar (Terminals.integers target) =
        Terminals.partialMultiples grammar numbers := by
  constructor
  · obtain ⟨found, isFound⟩ := exists_found space inRange admitted strategy possible limit
    refine ⟨found, isFound, ?_⟩
    rw [← isFound]
    simp only [synthesizeAsked, admitted.validateSome_eq_ok,
      (admitted.of_values values).validateSome_eq_ok, bind, Except.bind,
      synthesize_congr space _ values]
  · intro target numbers listed
    exact ⟨Discovery.fittingBases_congr listed grammar, Discovery.fittingSteps_congr listed grammar,
      Terminals.partialBases_congr listed grammar, Terminals.partialMultiples_congr listed grammar⟩

/-- Over twenty numbers the guided search at the greatest depth finds for 9, 2, 8 and again 2 what
it finds for 2, 8 and 9. -/
theorem synthesize_exchanged_two_eight_nine :
    ∃ found,
      (base ⟨20, by decide⟩).synthesizeAsked "guided" ⟨[3, 2], [7, 2], true, 5⟩ 3 40
        (Domain.asData [2, 8, 9]) = .ok found ∧
      (base ⟨20, by decide⟩).synthesizeAsked "guided" ⟨[3, 2], [7, 2], true, 5⟩ 3 40
        (Domain.asData [9, 2, 8, 2]) = .ok found := by
  have inRange : Grammar.InRange ⟨[3, 2], [7, 2], true, 5⟩ := ⟨by decide, by decide⟩
  have admitted : (base ⟨20, by decide⟩).domain.HasExamples [2, 8, 9] := ⟨by decide, by decide⟩
  have values : ∀ n, n ∈ [2, 8, 9] ↔ n ∈ [9, 2, 8, 2] := by
    intro n
    simp only [List.mem_cons, List.not_mem_nil, or_false]
    omega
  exact (synthesize_exchanged (base ⟨20, by decide⟩) inRange admitted values .guided (by decide)
    40).1

end HypothesisSpace

end NumberConcepts
