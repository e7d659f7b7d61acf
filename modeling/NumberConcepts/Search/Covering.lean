import NumberConcepts.Search.Enumeration
import NumberConcepts.Search.Roster
/-!
# Guided search

The concepts that cover a target are found from the target itself. At depth zero
they are the terminals that contain it. A union takes a terminal that contains a
part of the target and a concept that covers what is left of it; an intersection
takes two concepts that cover the target. Answers are remembered, because the
same remainder is met again and again.
-/

namespace NumberConcepts.Covering

variable {size : Nat}

/-- What a guided search is about. -/
structure Problem (size : Nat) where
  grammar : Grammar
  /-- The intervals around the examples. -/
  intervals : List (Hypothesis size)

/-- Answers for targets and depths. -/
abbrev Memory (size : Nat) := List ((NatSet × Nat) × List (Hypothesis size))

/-- A step of the search: a fault, or a result and the memory afterwards. -/
abbrev Search (size : Nat) := StateT (Memory size) (Except Fault)

/-- The unions of a terminal with concepts that cover what it leaves. -/
def unions (left : Hypothesis size) (rights : List (Hypothesis size)) : List (Hypothesis size) :=
  rights.filterMap fun right => left.compose .union right

/-- The intersections of the concepts of a list, each with those after it. -/
def intersections (below : List (Hypothesis size)) : List (Hypothesis size) :=
  (Enumeration.laterPartners below).flatMap fun (first, later) =>
    later.filterMap fun second => first.compose .intersect second

/-- What a terminal leaves of a target. -/
def residual (target : NatSet) (left : Hypothesis size) : NatSet := target \ left.members

/-- Concepts that cover a target at some depth from those one depth below and from the unions. -/
def combined (below unions : List (Hypothesis size)) : List (Hypothesis size) :=
  (((Roster.ofList below).insertAll unions).insertAll (intersections below)).toList

/-- The concepts that cover a target, up to a depth. -/
def fresh (problem : Problem size) : Nat → NatSet → Except Fault (List (Hypothesis size))
  | 0, target => Terminals.covering problem.grammar problem.intervals target
  | depth + 1, target => do
    let below ← fresh problem depth target
    let parts ← Terminals.partlyCovering problem.grammar target
    let found ← parts.mapM fun left => do
      return unions left (← fresh problem depth (residual target left))
    return combined below found.flatten

/-- The answer at hand, or the answer of a search, which is then remembered. -/
def remembering (target : NatSet) (depth : Nat) (search : Search size (List (Hypothesis size))) :
    Search size (List (Hypothesis size)) := do
  match (← get).lookup (target, depth) with
  | some answer => return answer
  | none =>
    let answer ← search
    modify fun memory => ((target, depth), answer) :: memory
    return answer

/-- The concepts that cover a target, up to a depth, found with the help of earlier answers. -/
def covering (problem : Problem size) : Nat → NatSet → Search size (List (Hypothesis size))
  | 0, target => remembering target 0 do
    (Terminals.covering problem.grammar problem.intervals target : Except Fault _)
  | depth + 1, target => remembering target (depth + 1) do
    let below ← covering problem depth target
    let parts ← (Terminals.partlyCovering problem.grammar target : Except Fault _)
    let found ← parts.mapM fun left => do
      return unions left (← covering problem depth (residual target left))
    return combined below found.flatten

/-- The problem that the examples pose. -/
def problemOf (size : Nat) (grammar : Grammar) (examples : List Int) :
    Except Fault (Problem size) := do
  let intervals ← Terminals.intervals size grammar.maxIntervals examples
  return { grammar, intervals := intervals.map (Hypothesis.ofTerminal size) }

/-- The concepts that cover the examples. -/
def ofExamples (size : Nat) (grammar : Grammar) (depth : Nat) (examples : List Nat) :
    Except Fault (List (Hypothesis size)) := do
  let problem ← problemOf size grammar (examples.map Int.ofNat)
  let (found, _) ← (covering problem depth (NatSet.ofList examples)).run []
  return found

end NumberConcepts.Covering
