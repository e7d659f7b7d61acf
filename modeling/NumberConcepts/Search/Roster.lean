import Std.Data.HashSet
import NumberConcepts.Hypothesis
/-!
# Rosters

A roster collects hypotheses in the order in which they arrive and takes a
concept only once.
-/

namespace NumberConcepts

/-- Hypotheses in order with the set of their concepts. -/
structure Roster (size : Nat) where
  latestFirst : List (Hypothesis size)
  seen : Std.HashSet Concept
  mem_seen_iff : ∀ concept, concept ∈ seen ↔ ∃ entry ∈ latestFirst, entry.concept = concept

namespace Roster

variable {size : Nat}

/-- The roster with no hypothesis. -/
def empty : Roster size where
  latestFirst := []
  seen := ∅
  mem_seen_iff := by simp

/-- The hypotheses in order. -/
def toList (roster : Roster size) : List (Hypothesis size) := roster.latestFirst.reverse

/-- The roster with one more hypothesis, even if its concept has been seen. -/
def push (roster : Roster size) (hypothesis : Hypothesis size) : Roster size where
  latestFirst := hypothesis :: roster.latestFirst
  seen := roster.seen.insert hypothesis.concept
  mem_seen_iff concept := by
    simp [roster.mem_seen_iff]

/-- The roster with one more hypothesis, unless its concept has been seen. -/
def insert (roster : Roster size) (hypothesis : Hypothesis size) : Roster size :=
  if roster.seen.contains hypothesis.concept then roster else roster.push hypothesis

/-- The roster with all hypotheses of a list whose concepts have not been seen. -/
def insertAll (roster : Roster size) (hypotheses : List (Hypothesis size)) : Roster size :=
  hypotheses.foldl insert roster

/-- The roster of a list, with its repetitions. -/
def ofList (hypotheses : List (Hypothesis size)) : Roster size := hypotheses.foldl push empty

end Roster

end NumberConcepts
