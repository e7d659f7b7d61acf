import Mathlib.Data.List.Infix
import NumberConcepts.Hypothesis.Index
import NumberConcepts.Proofs.NatSet
import NumberConcepts.Proofs.Sequence
/-!
# What the index finds

The index is described by the positions in its sets: `mem_containing` for one
number and `mem_narrow` for several. The early stop of `Index.narrow` does not
show in its result, so that the stages are what each initial part of the numbers
leaves: `narrow_cons` is the step and `stagesFrom_eq` the run.
-/

namespace NumberConcepts.Index

variable {size : Nat} {hypotheses : List (Hypothesis size)} {numbers : List Int} {position : Nat}

/-- All positions of a list are those below its length. -/
theorem mem_all : position ∈ (build hypotheses numbers).all ↔ position < hypotheses.length := by
  simp only [build, NatSet.mem_positions, and_true]
  rw [← Option.isSome_iff_exists, isSome_getElem?]

/-- An index over some numbers finds the hypotheses that contain one of them, and none for any
other number. -/
theorem mem_containing {n : Int} :
    position ∈ (build hypotheses numbers).containing n ↔
      n ∈ numbers ∧ ∃ hypothesis, hypotheses[position]? = some hypothesis ∧
        hypothesis.members.containsInt n = true := by
  rw [containing, build, Sequence.lookup_map_pair]
  split
  next indexed => simp [indexed]
  next other => simp [other]

/-- What is left after some numbers are the positions that are left after each of them. -/
theorem mem_narrow {index : Index} {current : NatSet} :
    position ∈ index.narrow current numbers ↔
      position ∈ current ∧ ∀ n ∈ numbers, position ∈ index.containing n := by
  induction numbers generalizing current with
  | nil => simp [narrow]
  | cons first rest inductionHypothesis =>
      have retained : position ∈ index.retain current first ↔
          position ∈ current ∧ position ∈ index.containing first := NatSet.mem_inter
      rw [narrow, List.forall_mem_cons, ← and_assoc, ← retained]
      split
      next nothing =>
        -- The other numbers are not looked at, but there is nothing that they could take away.
        rw [NatSet.isEmpty_iff] at nothing
        simp [nothing]
      next => exact inductionHypothesis

/-- Numbers are taken one after the other, whether or not anything is left. -/
theorem narrow_cons (index : Index) (current : NatSet) (first : Int) (rest : List Int) :
    index.narrow current (first :: rest) = index.narrow (index.retain current first) rest := by
  ext position
  simp only [mem_narrow, retain, NatSet.mem_inter, List.forall_mem_cons, and_assoc]

/-- From a set of positions, the stages are what each initial part of the numbers leaves of it. -/
theorem stagesFrom_eq (index : Index) (current : NatSet) (numbers : List Int) :
    index.stagesFrom current numbers = numbers.inits.map (index.narrow current) := by
  induction numbers generalizing current with
  | nil => rfl
  | cons first rest inductionHypothesis =>
      rw [stagesFrom, inductionHypothesis, List.inits_cons, List.map_cons, List.map_map]
      congr 2
      funext seen
      exact (narrow_cons index current first seen).symm

/-- The stages are the positions consistent with each initial part of the examples. -/
theorem stages_eq (index : Index) (examples : List Int) :
    index.stages examples = examples.inits.map index.consistent :=
  stagesFrom_eq index index.all examples

/-- More examples leave no further positions. -/
theorem consistent_subset_of_prefix (index : Index) {seen examples : List Int}
    (isInitial : seen <+: examples) : index.consistent examples ⊆ index.consistent seen := by
  rw [NatSet.subset_iff]
  intro position
  simp only [consistent, mem_narrow]
  rintro ⟨known, found⟩
  exact ⟨known, fun n isSeen => found n (isInitial.subset isSeen)⟩

/-- The stages form a chain of sets that never grow. -/
theorem pairwise_stages (index : Index) (examples : List Int) :
    (index.stages examples).Pairwise fun before after => after ⊆ before := by
  rw [stages_eq, List.pairwise_map, List.pairwise_iff_getElem]
  intro seen later _ _ less
  rw [List.getElem_inits, List.getElem_inits]
  apply index.consistent_subset_of_prefix
  exact List.take_isPrefix_take.2 (.inl (Nat.le_of_lt less))

end NumberConcepts.Index
