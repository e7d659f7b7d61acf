import NumberConcepts.Concept.Extension
/-!
# Evaluation with a memory

An `Evaluator` remembers the extensions of the terminals it has met. What it
remembers is right, so the memory never changes an answer.
-/

namespace NumberConcepts

/-- The extensions of some terminals in the domain `1, …, size`. -/
structure Evaluator (size : Nat) where
  known : List (Terminal × NatSet)
  sound : ∀ entry ∈ known, entry.2 = entry.1.extension size

namespace Evaluator

variable {size : Nat}

/-- An evaluator that has met nothing. -/
def empty : Evaluator size := ⟨[], by simp⟩

/-- The remembered extension of a terminal. -/
def remembered? (evaluator : Evaluator size) (leaf : Terminal) : Option NatSet :=
  (evaluator.known.find? fun entry => entry.1 == leaf).map Prod.snd

/-- The extension of a terminal, remembered from now on. -/
def terminal (evaluator : Evaluator size) (leaf : Terminal) : NatSet × Evaluator size :=
  match evaluator.remembered? leaf with
  | some members => (members, evaluator)
  | none =>
    let members := leaf.extension size
    (members, {
      known := (leaf, members) :: evaluator.known
      sound := by
        intro entry isKnown
        rcases List.mem_cons.1 isKnown with rfl | older
        · rfl
        · exact evaluator.sound entry older })

/-- The extension of a concept and the evaluator afterwards. -/
def extension (evaluator : Evaluator size) : Concept → NatSet × Evaluator size
  | .terminal leaf => evaluator.terminal leaf
  | .combine operation left right =>
    let (leftMembers, afterLeft) := evaluator.extension left
    let (rightMembers, afterRight) := afterLeft.extension right
    (operation.apply leftMembers rightMembers, afterRight)

/-- Every integer of the list belongs to the concept, with the evaluator afterwards. -/
def isConsistent (evaluator : Evaluator size) (concept : Concept) (examples : List Int) :
    Bool × Evaluator size :=
  let (members, after) := evaluator.extension concept
  (members.containsAll examples, after)

end Evaluator

end NumberConcepts
