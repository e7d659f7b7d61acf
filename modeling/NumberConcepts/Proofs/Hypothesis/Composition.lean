import NumberConcepts.Concept.Construction
import NumberConcepts.Hypothesis
import NumberConcepts.Proofs.Concept.Canonical
import NumberConcepts.Proofs.Concept.Key
import NumberConcepts.Proofs.NatSet
/-!
# Composition of hypotheses

A hypothesis is determined by its concept, so composition is described by the
concept of its result: `compose_eq_some_iff` says when there is one and which it
is, and `compose_comm` that the order of the operands does not matter. There is none
exactly when it would say nothing new or be too deep, and every other one is built
without a fault: `compose_informs`.
-/

namespace NumberConcepts

/-- Two concepts that are not too deep are combined. -/
theorem Concept.checkCombine_eq_ok {operation : Operation} {left right : Concept}
    (shallow : 1 + max left.depth right.depth ≤ maxDepth) :
    checkCombine operation left right = .ok (.combine operation left right) :=
  if_pos shallow

/-- The order of two sets does not matter to an operation. -/
theorem Operation.apply_comm (operation : Operation) (a b : NatSet) :
    operation.apply a b = operation.apply b a := by
  ext n
  cases operation with
  | union => rw [apply, apply, NatSet.mem_union, NatSet.mem_union, or_comm]
  | intersect => rw [apply, apply, NatSet.mem_inter, NatSet.mem_inter, and_comm]

namespace Hypothesis

variable {size : Nat}

/-- Hypotheses are determined by their concepts. -/
theorem concept_injective : Function.Injective (@concept size) := by
  rintro ⟨concept, key, members, count, rfl, rfl, rfl⟩
    ⟨concept', key', members', count', rfl, rfl, rfl⟩ same
  cases same
  rfl

/-- So they are by their written forms. -/
theorem key_injective : Function.Injective (@key size) := by
  intro a b same
  apply concept_injective
  apply Concept.key_injective
  rw [← a.key_eq, ← b.key_eq, same]

@[simp] theorem concept_ofConcept (concept : Concept) : (ofConcept size concept).concept = concept :=
  rfl

@[simp] theorem concept_ofTerminal (leaf : Terminal) :
    (ofTerminal size leaf).concept = .terminal leaf :=
  rfl

@[simp] theorem members_ofTerminal (leaf : Terminal) :
    (ofTerminal size leaf).members = leaf.extension size :=
  rfl

/-- Terminals are told apart with their members. -/
theorem ofTerminal_injective : Function.Injective (ofTerminal size) :=
  fun _ _ same => Concept.terminal.inj (congrArg concept same)

/-- A concept is not composed with itself. -/
theorem compose_self {operation : Operation} {a b : Hypothesis size}
    (same : a.concept = b.concept) : a.compose operation b = none := by
  rw [compose, if_pos same]

/-- The order of the operands does not matter. -/
theorem compose_comm (operation : Operation) (a b : Hypothesis size) :
    a.compose operation b = b.compose operation a := by
  by_cases same : a.concept = b.concept
  · rw [compose_self same, compose_self same.symm]
  · have different : b.concept ≠ a.concept := fun equal => same equal.symm
    rw [compose, compose, if_neg same, if_neg different]
    -- Exactly one of the two orders swaps, and both then continue with the same parts.
    rcases Concept.key_lt_or_gt same with before | after
    · rw [← a.key_eq, ← b.key_eq] at before
      simp only [if_pos before, if_neg (String.lt_asymm before)]
    · rw [← a.key_eq, ← b.key_eq] at after
      simp only [if_pos after, if_neg (String.lt_asymm after)]

/-- The test for a combination that says nothing new, in terms of concepts. -/
private theorem not_informative_iff {operation : Operation} {a b : Hypothesis size} :
    ((operation.apply a.members b.members).isEmpty ||
        operation.apply a.members b.members == a.members ||
        operation.apply a.members b.members == b.members) = true ↔
      ¬ Concept.Informative size operation a.concept b.concept := by
  have whole : operation.apply a.members b.members =
      (Concept.combine operation a.concept b.concept).extension size := by
    rw [a.members_eq, b.members_eq, Concept.extension]
  rw [whole, a.members_eq, b.members_eq, Bool.or_eq_true, Bool.or_eq_true, NatSet.isEmpty_iff,
    beq_iff_eq, beq_iff_eq, Concept.Informative]
  grind

/-- Two hypotheses of which the first is written before the second have exactly the informative
combination that is not too deep. -/
theorem compose_eq_some_iff {operation : Operation} {a b result : Hypothesis size}
    (ordered : a.concept.key < b.concept.key) :
    a.compose operation b = some result ↔
      result.concept = .combine operation a.concept b.concept ∧
        result.concept.depth ≤ Concept.maxDepth ∧
        Concept.Informative size operation a.concept b.concept := by
  have different : a.concept ≠ b.concept := by
    intro same
    rw [same] at ordered
    exact String.lt_irrefl _ ordered
  have inOrder : ¬ b.key < a.key := by
    rw [a.key_eq, b.key_eq]
    exact String.lt_asymm ordered
  rw [compose, if_neg different]
  simp only [if_neg inOrder]
  split
  next tooDeep =>
    constructor
    · intro impossible
      cases impossible
    · rintro ⟨combined, shallow, _⟩
      rw [combined, Concept.depth] at shallow
      omega
  next notTooDeep =>
    split
    next uninformative =>
      constructor
      · intro impossible
        cases impossible
      · rintro ⟨_, _, informative⟩
        exact absurd informative (not_informative_iff.1 uninformative)
    next informative =>
      rw [not_informative_iff, Classical.not_not] at informative
      rw [Option.some.injEq]
      constructor
      · rintro rfl
        exact ⟨rfl, Nat.le_of_not_lt notTooDeep, informative⟩
      · rintro ⟨combined, _, _⟩
        exact concept_injective combined.symm

/-- What is composed is an informative combination of both operands in the order of their written
forms. -/
theorem exists_parts_of_compose {operation : Operation} {a b result : Hypothesis size}
    (composed : a.compose operation b = some result) :
    ∃ left right, (left = a ∧ right = b ∨ left = b ∧ right = a) ∧
      left.concept.key < right.concept.key ∧
      result.concept = .combine operation left.concept right.concept ∧
      result.concept.depth ≤ Concept.maxDepth ∧
      Concept.Informative size operation left.concept right.concept := by
  have different : a.concept ≠ b.concept := by
    intro same
    rw [compose_self same] at composed
    cases composed
  rcases Concept.key_lt_or_gt different with before | after
  · exact ⟨a, b, .inl ⟨rfl, rfl⟩, before, (compose_eq_some_iff before).1 composed⟩
  · rw [compose_comm] at composed
    exact ⟨b, a, .inr ⟨rfl, rfl⟩, after, (compose_eq_some_iff after).1 composed⟩

/-- A composed union has the members of both operands. -/
theorem mem_union_of_compose {a b result : Hypothesis size}
    (composed : a.compose .union b = some result) {n : Nat} :
    n ∈ result.members ↔ n ∈ a.members ∨ n ∈ b.members := by
  obtain ⟨left, right, parts, _, combined, _⟩ := exists_parts_of_compose composed
  rw [result.members_eq, combined, Concept.extension, ← left.members_eq, ← right.members_eq,
    Operation.apply, NatSet.mem_union]
  rcases parts with ⟨rfl, rfl⟩ | ⟨rfl, rfl⟩
  · rfl
  · exact or_comm

/-- A composed intersection has the members that the operands share. -/
theorem mem_inter_of_compose {a b result : Hypothesis size}
    (composed : a.compose .intersect b = some result) {n : Nat} :
    n ∈ result.members ↔ n ∈ a.members ∧ n ∈ b.members := by
  obtain ⟨left, right, parts, _, combined, _⟩ := exists_parts_of_compose composed
  rw [result.members_eq, combined, Concept.extension, ← left.members_eq, ← right.members_eq,
    Operation.apply, NatSet.mem_inter]
  rcases parts with ⟨rfl, rfl⟩ | ⟨rfl, rfl⟩
  · rfl
  · exact and_comm

/-- Composition leads from concepts built from a pool to one built from it. -/
theorem builtFrom_of_compose {operation : Operation} {a b result : Hypothesis size}
    {pool : List Terminal} (first : a.concept.BuiltFrom size pool)
    (second : b.concept.BuiltFrom size pool)
    (composed : a.compose operation b = some result) : result.concept.BuiltFrom size pool := by
  obtain ⟨left, right, parts, ordered, combined, shallow, informative⟩ :=
    exists_parts_of_compose composed
  rw [combined] at shallow ⊢
  refine Concept.builtFrom_combine.2 ⟨?_, ordered, shallow, informative⟩
  rcases parts with ⟨rfl, rfl⟩ | ⟨rfl, rfl⟩
  · exact ⟨first, second⟩
  · exact ⟨second, first⟩

/-- A result of composition is one operation above its operands. -/
theorem depth_of_compose {operation : Operation} {a b result : Hypothesis size}
    (composed : a.compose operation b = some result) :
    result.concept.depth = 1 + max a.concept.depth b.concept.depth := by
  obtain ⟨left, right, parts, _, combined, _⟩ := exists_parts_of_compose composed
  rw [combined, Concept.depth]
  rcases parts with ⟨rfl, rfl⟩ | ⟨rfl, rfl⟩
  · rfl
  · rw [Nat.max_comm]

/-- A combination built from a pool is composed from its parts. -/
theorem compose_of_builtFrom {operation : Operation} {left right : Concept} {pool : List Terminal}
    {result : Hypothesis size} (combined : result.concept = .combine operation left right)
    (built : result.concept.BuiltFrom size pool) :
    (ofConcept size left).compose operation (ofConcept size right) = some result := by
  rw [combined] at built
  obtain ⟨_, ordered, shallow, informative⟩ := Concept.builtFrom_combine.1 built
  exact (compose_eq_some_iff ordered).2 ⟨combined, by rwa [combined], informative⟩

/-- The operation and the operands of a composition can be read off its result. -/
theorem operands_of_compose {operation operation' : Operation} {a b a' b' result : Hypothesis size}
    (composed : a.compose operation b = some result)
    (composed' : a'.compose operation' b' = some result) :
    operation = operation' ∧ (a = a' ∧ b = b' ∨ a = b' ∧ b = a') := by
  obtain ⟨left, right, parts, _, combined, _⟩ := exists_parts_of_compose composed
  obtain ⟨left', right', parts', _, combined', _⟩ := exists_parts_of_compose composed'
  obtain ⟨operations, lefts, rights⟩ := Concept.combine.inj (combined.symm.trans combined')
  obtain rfl := concept_injective lefts
  obtain rfl := concept_injective rights
  refine ⟨operations, ?_⟩
  rcases parts with ⟨rfl, rfl⟩ | ⟨rfl, rfl⟩ <;> rcases parts' with ⟨rfl, rfl⟩ | ⟨rfl, rfl⟩ <;> simp

/-- There is no composition exactly when both operands are the same concept, when it would be too
deep, or when it would have no members or those of either operand. -/
theorem compose_eq_none_iff {operation : Operation} {a b : Hypothesis size} :
    a.compose operation b = none ↔
      a.concept = b.concept ∨ Concept.maxDepth < 1 + max a.concept.depth b.concept.depth ∨
        operation.apply a.members b.members = ∅ ∨
        operation.apply a.members b.members = a.members ∨
        operation.apply a.members b.members = b.members := by
  by_cases same : a.concept = b.concept
  · simp only [compose_self same, same, true_or]
  have guarded : ∀ (tooDeep uninformative : Prop) [Decidable tooDeep] [Decidable uninformative]
      (result : Hypothesis size),
      (if tooDeep then none else if uninformative then none else some result) = none ↔
        tooDeep ∨ uninformative := by
    intro tooDeep uninformative _ _ result
    by_cases deep : tooDeep <;> by_cases vain : uninformative <;> simp [deep, vain]
  rw [compose, if_neg same, guarded, Bool.or_eq_true, Bool.or_eq_true, NatSet.isEmpty_iff,
    beq_iff_eq, beq_iff_eq, or_iff_right same]
  -- Where the second operand is written first, the parts change places, and nothing else.
  by_cases after : b.key < a.key
  · simp only [if_pos after, Nat.max_comm b.concept.depth, operation.apply_comm b.members,
      or_assoc, or_comm (a := operation.apply a.members b.members = b.members)]
  · simp only [if_neg after, or_assoc]

/-- What composing two hypotheses promises of its result. -/
structure IsComposition (operation : Operation) (a b result : Hypothesis size) : Prop where
  /-- It is the combination of both, the one written first on the left, and is built without a
  fault. -/
  built : ∃ left right, (left = a ∧ right = b ∨ left = b ∧ right = a) ∧
    left.concept.key < right.concept.key ∧
    result.concept = .combine operation left.concept right.concept ∧
    Concept.checkParts operation (.concept left.concept) (.concept right.concept) =
      .ok result.concept
  legal : a.concept.Legal → b.concept.Legal → result.concept.Legal
  inhabited : result.members ≠ ∅
  larger : operation = .union → ∀ part ∈ [a, b],
    part.members ⊆ result.members ∧ part.members ≠ result.members
  smaller : operation = .intersect → ∀ part ∈ [a, b],
    result.members ⊆ part.members ∧ result.members ≠ part.members

/-- What is composed keeps the promise. -/
theorem isComposition_of_compose {operation : Operation} {a b result : Hypothesis size}
    (composed : a.compose operation b = some result) : IsComposition operation a b result := by
  obtain ⟨left, right, parts, ordered, combined, shallow, informative⟩ :=
    exists_parts_of_compose composed
  have whole : result.members = (Concept.combine operation left.concept right.concept).extension
      size := by
    rw [result.members_eq, combined]
  have differs : ∀ part ∈ [a, b], part.members ≠ result.members := by
    have fromLeft : left.members ≠ result.members := by
      rw [whole, left.members_eq]
      exact informative.2.1.symm
    have fromRight : right.members ≠ result.members := by
      rw [whole, right.members_eq]
      exact informative.2.2.symm
    rcases parts with ⟨rfl, rfl⟩ | ⟨rfl, rfl⟩ <;> simp [fromLeft, fromRight]
  constructor
  case built =>
    refine ⟨left, right, parts, ordered, combined, ?_⟩
    rw [combined, Concept.depth] at shallow
    rw [combined]
    exact Concept.checkCombine_eq_ok shallow
  case legal =>
    intro legalA legalB
    refine ⟨?_, shallow⟩
    have legalParts : left.concept.Legal ∧ right.concept.Legal := by
      rcases parts with ⟨rfl, rfl⟩ | ⟨rfl, rfl⟩
      · exact ⟨legalA, legalB⟩
      · exact ⟨legalB, legalA⟩
    rw [combined]
    intro leaf isLeaf
    exact (List.mem_append.1 isLeaf).elim (legalParts.1.1 leaf) (legalParts.2.1 leaf)
  case inhabited =>
    rw [whole]
    exact informative.1
  case larger =>
    rintro rfl part isPart
    refine ⟨NatSet.subset_iff.2 fun n member => ?_, differs part isPart⟩
    rw [mem_union_of_compose composed]
    simp only [List.mem_cons, List.not_mem_nil, or_false] at isPart
    rcases isPart with rfl | rfl
    · exact .inl member
    · exact .inr member
  case smaller =>
    rintro rfl part isPart
    refine ⟨NatSet.subset_iff.2 fun n member => ?_, (differs part isPart).symm⟩
    rw [mem_inter_of_compose composed] at member
    simp only [List.mem_cons, List.not_mem_nil, or_false] at isPart
    rcases isPart with rfl | rfl
    · exact member.1
    · exact member.2

/-- Any two hypotheses are composed alike in both orders. There is no composition exactly when they
are the same concept, when it would be too deep, or when it would have no members or those of either;
any other is built without a fault and says something that neither says. -/
theorem compose_informs (operation : Operation) (a b : Hypothesis size) :
    a.compose operation b = b.compose operation a ∧
    (a.compose operation b = none ↔
      a.concept = b.concept ∨ Concept.maxDepth < 1 + max a.concept.depth b.concept.depth ∨
        operation.apply a.members b.members = ∅ ∨
        operation.apply a.members b.members = a.members ∨
        operation.apply a.members b.members = b.members) ∧
    ∀ result, a.compose operation b = some result → IsComposition operation a b result :=
  ⟨compose_comm operation a b, compose_eq_none_iff, fun _ => isComposition_of_compose⟩

/-- Up to twenty, the primes and the odd numbers have a union, in whichever order they are given, and
no even number is odd. -/
theorem compose_informs_over_twenty :
    let odd : Hypothesis 20 := .ofTerminal 20 (.primitive .odd)
    let primes : Hypothesis 20 := .ofTerminal 20 (.primitive .prime)
    let even : Hypothesis 20 := .ofTerminal 20 (.primitive .even)
    (∃ result, primes.compose .union odd = some result ∧ odd.compose .union primes = some result ∧
      IsComposition .union primes odd result) ∧
    even.compose .intersect odd = none := by
  intro odd primes even
  obtain ⟨commutes, _, promise⟩ := compose_informs .union primes odd
  have composed : (primes.compose .union odd).isSome = true := by decide +kernel
  obtain ⟨result, isResult⟩ := Option.isSome_iff_exists.1 composed
  obtain ⟨_, declines, _⟩ := compose_informs .intersect even odd
  have noMembers : Operation.apply .intersect even.members odd.members = ∅ := by decide +kernel
  exact ⟨⟨result, isResult, commutes ▸ isResult, promise result isResult⟩,
    declines.2 (.inr (.inr (.inl noMembers)))⟩

end Hypothesis

end NumberConcepts
