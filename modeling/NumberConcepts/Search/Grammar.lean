import NumberConcepts.Concept.Terminal
/-!
# Grammars and strategies

A grammar says which terminals a search may use. Its parameters are not checked
until a terminal is built from them. A strategy is one of three ways to find
concepts that fit the examples.
-/

namespace NumberConcepts

/-- The terminals that a search may use, beside the properties. -/
structure Grammar where
  powerBases : List Int
  multiples : List Int
  includeEndings : Bool
  /-- How many intervals are among the terminals; a negative number leaves that many out. -/
  maxIntervals : Int
deriving DecidableEq, Repr

namespace Grammar

/-- All integers from one bound to the other. -/
def span (low high : Int) : List Int :=
  (List.range (high + 1 - low).toNat).map fun (offset : Nat) => low + offset

/-- All values of a parameter. -/
def wholeRange (parameter : Parameter) : List Int := span parameter.least parameter.greatest

/-- The number of intervals where nothing else is said. -/
def defaultIntervals : Nat := 100

/-- The grammar where nothing else is said: all bases and steps, and no endings. -/
def standard : Grammar where
  powerBases := wholeRange .powerBase
  multiples := wholeRange .multipleStep
  includeEndings := false
  maxIntervals := defaultIntervals

instance : Inhabited Grammar := ⟨standard⟩

end Grammar

/-- A way to search for concepts. -/
inductive Strategy where
  /-- List all concepts of the grammar and keep those that fit. -/
  | exact
  /-- Read the parameters off the examples. -/
  | guided
  /-- Look up the hypotheses of the space that fit. -/
  | indexed
deriving DecidableEq, Repr, Inhabited

namespace Strategy

/-- All strategies in their fixed order. -/
def all : List Strategy := [exact, guided, indexed]

/-- The name of the strategy. -/
def name : Strategy → String
  | exact => "exact"
  | guided => "guided"
  | indexed => "indexed"

/-- The strategy of a given name. -/
def ofName? (text : String) : Option Strategy := all.find? fun strategy => strategy.name == text

end Strategy

end NumberConcepts
