import NumberConcepts.Concept.Extension
/-!
# Canonical concepts

A concept is canonical when at each of its combinations the parts stand in the
order of their written forms and the whole has members and says something that
neither part says. `Canonical.eq_of_sameUpToSwaps` shows what the order is for:
no canonical concept turns into another one by swapping parts.
-/

namespace NumberConcepts.Concept

/-- A combination has members, and other ones than either part has. -/
def Informative (size : Nat) (operation : Operation) (left right : Concept) : Prop :=
  (combine operation left right).extension size ≠ ∅ ∧
    (combine operation left right).extension size ≠ left.extension size ∧
    (combine operation left right).extension size ≠ right.extension size

instance (size : Nat) (operation : Operation) (left right : Concept) :
    Decidable (Informative size operation left right) :=
  inferInstanceAs (Decidable (_ ∧ _))

/-- Every combination in the concept is informative and has its parts in order. -/
def Canonical (size : Nat) : Concept → Prop
  | terminal _ => True
  | combine operation left right =>
    left.Canonical size ∧ right.Canonical size ∧ left.key < right.key ∧
      Informative size operation left right

instance decidableCanonical (size : Nat) : DecidablePred (Canonical size)
  | terminal _ => .isTrue trivial
  | combine operation left right =>
    have := decidableCanonical size left
    have := decidableCanonical size right
    inferInstanceAs (Decidable (left.Canonical size ∧ right.Canonical size ∧ left.key < right.key ∧
      Informative size operation left right))

/-- The second concept is the first one with the parts of some combinations swapped. -/
inductive SameUpToSwaps : Concept → Concept → Prop where
  | leaf (leaf : Terminal) : SameUpToSwaps (terminal leaf) (terminal leaf)
  | straight {operation : Operation} {left right left' right' : Concept} :
      SameUpToSwaps left left' → SameUpToSwaps right right' →
        SameUpToSwaps (combine operation left right) (combine operation left' right')
  | swapped {operation : Operation} {left right left' right' : Concept} :
      SameUpToSwaps left left' → SameUpToSwaps right right' →
        SameUpToSwaps (combine operation left right) (combine operation right' left')

variable {size : Nat}

/-- The order of parts leaves one canonical concept among those that differ by swaps. -/
theorem Canonical.eq_of_sameUpToSwaps {a b : Concept} (canonical : a.Canonical size)
    (canonical' : b.Canonical size) (same : SameUpToSwaps a b) : a = b := by
  induction same with
  | leaf leaf => rfl
  | straight _ _ leftHypothesis rightHypothesis =>
      obtain ⟨left, right, _⟩ := canonical
      obtain ⟨left', right', _⟩ := canonical'
      rw [leftHypothesis left left', rightHypothesis right right']
  | swapped _ _ leftHypothesis rightHypothesis =>
      obtain ⟨left, right, ordered, _⟩ := canonical
      obtain ⟨right', left', ordered', _⟩ := canonical'
      obtain rfl := leftHypothesis left left'
      obtain rfl := rightHypothesis right right'
      exact absurd ordered' (String.lt_asymm ordered)

/-- A canonical combination has members. -/
theorem Canonical.extension_ne_empty {concept : Concept} (canonical : concept.Canonical size)
    (combination : concept.isTerminal = false) : concept.extension size ≠ ∅ := by
  cases concept with
  | terminal leaf => cases combination
  | combine operation left right => exact canonical.2.2.2.1

/-- A canonical concept over a pool of terminals that is not too deep. -/
structure BuiltFrom (size : Nat) (pool : List Terminal) (concept : Concept) : Prop where
  leaves : ∀ leaf ∈ concept.leaves, leaf ∈ pool
  canonical : concept.Canonical size
  shallow : concept.depth ≤ maxDepth

variable {pool : List Terminal}

/-- The terminals of the pool are built from it. -/
theorem builtFrom_terminal {leaf : Terminal} :
    (terminal leaf).BuiltFrom size pool ↔ leaf ∈ pool := by
  constructor
  · intro built
    exact built.leaves leaf (List.mem_singleton_self leaf)
  · intro member
    refine ⟨?_, trivial, Nat.zero_le _⟩
    intro leaf' isLeaf
    rw [leaves, List.mem_singleton] at isLeaf
    rw [isLeaf]
    exact member

/-- A combination is built from a pool when its parts are and it is canonical at its root. -/
theorem builtFrom_combine {operation : Operation} {left right : Concept} :
    (combine operation left right).BuiltFrom size pool ↔
      (left.BuiltFrom size pool ∧ right.BuiltFrom size pool) ∧ left.key < right.key ∧
        (combine operation left right).depth ≤ maxDepth ∧
        Informative size operation left right := by
  constructor
  · rintro ⟨leaves, ⟨leftCanonical, rightCanonical, ordered, informative⟩, shallow⟩
    have depths : 1 + max left.depth right.depth ≤ maxDepth := shallow
    refine ⟨⟨⟨?_, leftCanonical, by omega⟩, ⟨?_, rightCanonical, by omega⟩⟩, ordered, shallow,
      informative⟩
    · exact fun leaf isLeaf => leaves leaf (List.mem_append_left _ isLeaf)
    · exact fun leaf isLeaf => leaves leaf (List.mem_append_right _ isLeaf)
  · rintro ⟨⟨left, right⟩, ordered, shallow, informative⟩
    refine ⟨?_, ⟨left.canonical, right.canonical, ordered, informative⟩, shallow⟩
    intro leaf isLeaf
    exact (List.mem_append.1 isLeaf).elim (left.leaves leaf) (right.leaves leaf)

end NumberConcepts.Concept
