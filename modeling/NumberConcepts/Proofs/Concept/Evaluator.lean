import Mathlib.Data.List.Forall2
import NumberConcepts.Concept.Evaluator
import NumberConcepts.Proofs.Concept.Extension
/-!
# Answers of an evaluator

An evaluator may be asked for one concept after the other. Each answer is the meaning
of its concept, the numbers of the domain that belong to it, and what was asked before
does not show in it: `answers_mean`.
-/

namespace NumberConcepts

/-- The set holds the numbers from 1 to `size` that belong to the concept. -/
def Concept.Means (size : Nat) (concept : Concept) (set : NatSet) : Prop :=
  ∀ n, n ∈ set ↔ (1 ≤ n ∧ n ≤ size) ∧ concept.Holds n

theorem Concept.Legal.means {concept : Concept} (legal : concept.Legal) {size : Nat} :
    concept.Means size (concept.extension size) := fun _ => Concept.mem_extension legal.1

namespace Evaluator

variable {size : Nat}

/-- The answers for some concepts, asked one after the other, and the evaluator afterwards. -/
def answers (evaluator : Evaluator size) : List Concept → List NatSet × Evaluator size
  | [] => ([], evaluator)
  | concept :: later =>
    let (members, next) := evaluator.extension concept
    let (others, last) := next.answers later
    (members :: others, last)

/-- A terminal is answered by its extension, remembered or not. -/
theorem fst_terminal (evaluator : Evaluator size) (leaf : Terminal) :
    (evaluator.terminal leaf).1 = leaf.extension size := by
  rw [terminal]
  split
  next members found =>
    obtain ⟨entry, isEntry, rfl⟩ := Option.map_eq_some_iff.1 found
    have same : entry.1 = leaf := by simpa using List.find?_some isEntry
    rw [evaluator.sound entry (List.mem_of_find?_eq_some isEntry), same]
  next => rfl

/-- A concept is answered by its extension, whatever is remembered. -/
theorem fst_extension (evaluator : Evaluator size) (concept : Concept) :
    (evaluator.extension concept).1 = concept.extension size := by
  induction concept generalizing evaluator with
  | terminal leaf => exact fst_terminal evaluator leaf
  | combine operation left right leftHypothesis rightHypothesis =>
      rw [extension, Concept.extension, ← leftHypothesis evaluator,
        ← rightHypothesis (evaluator.extension left).2]

/-- Concepts asked one after the other are answered by their extensions. -/
theorem fst_answers (evaluator : Evaluator size) (asked : List Concept) :
    (evaluator.answers asked).1 = asked.map (Concept.extension size) := by
  induction asked generalizing evaluator with
  | nil => rfl
  | cons concept later inductionHypothesis =>
      rw [answers, List.map_cons, ← fst_extension evaluator concept,
        ← inductionHypothesis (evaluator.extension concept).2]

/-- Integers are consistent with a legal concept when all of them are numbers of the domain that
belong to it. -/
theorem fst_isConsistent_iff (evaluator : Evaluator size) {concept : Concept}
    (legal : concept.Legal) {examples : List Int} :
    (evaluator.isConsistent concept examples).1 = true ↔
      ∀ x ∈ examples, ∃ n : Nat, (n : Int) = x ∧ (1 ≤ n ∧ n ≤ size) ∧ concept.Holds n := by
  have decides : (evaluator.isConsistent concept examples).1 =
      (concept.extension size).containsAll examples := by
    rw [isConsistent, ← fst_extension evaluator concept]
  rw [decides, NatSet.containsAll, List.all_eq_true]
  refine forall₂_congr fun x _ => ?_
  rw [NatSet.containsInt_iff]
  refine exists_congr fun n => ?_
  rw [legal.means n, and_comm]

/-- A new evaluator is asked for any concepts one after the other, in a domain of any size. Each
legal concept is answered by its meaning. Afterwards the answer to a concept is the same as after
any other questions, and examples are consistent with a legal concept exactly when all of them are
numbers of the domain that belong to it. -/
theorem answers_mean (size : Nat) (asked : List Concept) :
    List.Forall₂ (fun concept answer => concept.Legal → concept.Means size answer) asked
      ((empty : Evaluator size).answers asked).1 ∧
    ∀ concept,
      (∀ others, (((empty : Evaluator size).answers asked).2.extension concept).1 =
        (((empty : Evaluator size).answers others).2.extension concept).1) ∧
      (concept.Legal → ∀ examples : List Int,
        (((empty : Evaluator size).answers asked).2.isConsistent concept examples).1 = true ↔
          ∀ x ∈ examples, ∃ n : Nat, (n : Int) = x ∧ (1 ≤ n ∧ n ≤ size) ∧ concept.Holds n) := by
  refine ⟨?_, fun concept => ⟨fun others => ?_, fun legal examples => ?_⟩⟩
  · rw [fst_answers, List.forall₂_map_right_iff, List.forall₂_same]
    exact fun concept _ legal => legal.means
  · rw [fst_extension, fst_extension]
  · exact fst_isConsistent_iff _ legal

/-- Over twelve numbers an evaluator is asked for the even numbers and the primes from 10 to 90, for
the multiples of 20, of which there are none, and for the numbers from 10 to 90, most of which lie
beyond. All answers are right, and so is what it then finds of 12 and 11, of 12 and 5, and of 13. -/
theorem answers_mean_over_twelve :
    let beyond : Concept := .terminal (.interval 10 90)
    let primes : Concept := .combine .intersect beyond (.terminal (.primitive .prime))
    let either : Concept := .combine .union (.terminal (.primitive .even)) primes
    let asked : List Concept := [either, .terminal (.multipleOf 20), beyond, either]
    let last := ((empty : Evaluator 12).answers asked).2
    List.Forall₂ (fun concept answer => concept.Legal ∧ concept.Means 12 answer) asked
      ((empty : Evaluator 12).answers asked).1 ∧
    (last.extension primes).1 = ((empty : Evaluator 12).extension primes).1 ∧
    (∀ x ∈ [(12 : Int), 11], ∃ n : Nat, (n : Int) = x ∧ (1 ≤ n ∧ n ≤ 12) ∧ either.Holds n) ∧
    ¬ (∀ x ∈ [(12 : Int), 5], ∃ n : Nat, (n : Int) = x ∧ (1 ≤ n ∧ n ≤ 12) ∧ either.Holds n) ∧
    ¬ (∀ x ∈ [(13 : Int)], ∃ n : Nat, (n : Int) = x ∧ (1 ≤ n ∧ n ≤ 12) ∧ either.Holds n) := by
  intro beyond primes either asked last
  obtain ⟨meanings, afterwards⟩ := answers_mean 12 asked
  have legal : ∀ concept ∈ asked, concept.Legal := by decide
  have consistent := (afterwards either).2 (legal either List.mem_cons_self)
  refine ⟨?_, (afterwards primes).1 [], ?_, ?_, ?_⟩
  · refine ((List.forall₂_and_left asked _).2 ⟨legal, meanings⟩).imp ?_
    exact fun concept answer ⟨isLegal, means⟩ => ⟨isLegal, means isLegal⟩
  · rw [← consistent]
    decide +kernel
  · rw [← consistent]
    decide +kernel
  · rw [← consistent]
    decide +kernel

end Evaluator

end NumberConcepts
