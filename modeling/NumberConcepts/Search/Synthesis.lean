import NumberConcepts.Hypothesis.Space
import NumberConcepts.Search.Covering
/-!
# Synthesis

Synthesis finds concepts that contain all examples, by one of three strategies.
The exact one lists all concepts of the grammar and keeps those that fit; the
guided one finds a part of them faster; the indexed one looks up the hypotheses
of the space.
-/

namespace NumberConcepts

/-- How to search for concepts. -/
structure Synthesis where
  strategy : Strategy
  grammar : Grammar
  depth : Nat
  /-- How many concepts are enough. -/
  limit : Nat

namespace Synthesis

/-- The depth where nothing else is said. -/
def defaultDepth : Nat := 1

/-- The number of concepts where nothing else is said. -/
def defaultLimit : Nat := 1000

/-- The strategy of a name. -/
def checkStrategy (name : String) : Except Fault Strategy :=
  match Strategy.ofName? name with
  | some strategy => .ok strategy
  | none => .error (.unknownStrategy name)

/-- A depth that concepts can have. -/
def checkDepth (depth : Int) : Except Fault Nat :=
  if 0 ≤ depth ∧ depth ≤ Concept.maxDepth then .ok depth.toNat else .error (.searchDepth depth)

end Synthesis

namespace HypothesisSpace

variable (space : HypothesisSpace)

/-- The first concepts of the exhaustive enumeration that contain all examples. -/
def searchExhaustively (search : Synthesis) (examples : List Nat) :
    Except Fault (List (Hypothesis space.domain.size)) := do
  let numbers := examples.map Int.ofNat
  let pool ← Enumeration.poolOf space.domain.size search.grammar numbers
  return Enumeration.firstAccepted (fun hypothesis => hypothesis.containsAll numbers)
    search.limit pool search.depth

/-- The first concepts of the guided search that contain all examples. -/
def searchGuided (search : Synthesis) (examples : List Nat) :
    Except Fault (List (Hypothesis space.domain.size)) := do
  let found ← Covering.ofExamples space.domain.size search.grammar search.depth examples
  return (found.filter fun hypothesis =>
    hypothesis.containsAll (examples.map Int.ofNat)).take search.limit

/-- The first hypotheses of the space that contain all examples. -/
def searchIndex (search : Synthesis) (examples : List Nat) :
    List (Hypothesis space.domain.size) :=
  (space.select (space.consistent examples)).take search.limit

/-- The concepts that a search finds for the examples. -/
def synthesize (search : Synthesis) (examples : List Nat) :
    Except Fault (List (Hypothesis space.domain.size)) :=
  match search.strategy with
  | .exact => space.searchExhaustively search examples
  | .guided => space.searchGuided search examples
  | .indexed => .ok (space.searchIndex search examples)

/-- A search as it is asked for: the examples are checked first, then the strategy, then the
depth. A limit that is not positive asks for nothing. -/
def synthesizeAsked (strategy : String) (grammar : Grammar) (depth limit : Int)
    (examples : List Datum) : Except Fault (List (Hypothesis space.domain.size)) := do
  let examples ← space.domain.validateSome examples
  let strategy ← Synthesis.checkStrategy strategy
  let depth ← Synthesis.checkDepth depth
  if limit ≤ 0 then return []
  space.synthesize { strategy, grammar, depth, limit := limit.toNat } examples

/-- How many concepts the exhaustive enumeration lists for the examples. -/
def enumerationSize (grammar : Grammar) (depth : Int) (examples : List Datum) :
    Except Fault Nat := do
  let examples ← space.domain.validateSome examples
  let pool ← Enumeration.poolOf space.domain.size grammar (examples.map Int.ofNat)
  return Enumeration.count pool depth.toNat

end HypothesisSpace

end NumberConcepts
