import NumberConcepts.Domain
import NumberConcepts.Prior
import NumberConcepts.Search.Grammar
/-!
# Settings

What a study or a command needs to know: the domain, the grammar, how to search,
the prior, which experiments to run and where to write. Every field has a
default.
-/

namespace NumberConcepts

/-- Which terminals a search offers, and the greatest depth of a concept. -/
structure GrammarSettings where
  /-- The least and the greatest base of powers. -/
  powerBases : Int × Int
  multiples : Int × Int
  maxDepth : Nat
  includeEndings : Bool

/-- How to search. -/
structure SearchSettings where
  strategy : Strategy
  maxDepth : Nat
  maxResults : Nat
  maxIntervals : Nat

/-- What a study runs. -/
structure StudySettings where
  exampleSets : List (List Int)
  /-- The numbers of examples for which recovery is measured. -/
  exampleCounts : List Int
  repeats : Nat
  samples : Nat
  topCount : Nat

/-- Where and what a study writes. -/
structure OutputSettings where
  directory : String
  saveRecords : Bool
  savePlots : Bool

/-- All settings. -/
structure Settings (α : Type) where
  domain : Domain
  grammar : GrammarSettings
  search : SearchSettings
  prior : Prior α
  study : StudySettings
  output : OutputSettings
  seed : Int

namespace Settings

variable {α : Type}

/-- The grammar that the settings describe. -/
def searchGrammar (settings : Settings α) : Grammar where
  powerBases := Grammar.span settings.grammar.powerBases.1 settings.grammar.powerBases.2
  multiples := Grammar.span settings.grammar.multiples.1 settings.grammar.multiples.2
  includeEndings := settings.grammar.includeEndings
  maxIntervals := settings.search.maxIntervals

/-- The range of a parameter, as a pair. -/
def wholeRange (parameter : Parameter) : Int × Int := (parameter.least, parameter.greatest)

/-- All terminals but the endings, and any depth. -/
def defaultGrammar : GrammarSettings := ⟨wholeRange .powerBase, wholeRange .multipleStep, 3, false⟩

/-- Up to a thousand concepts of depth one, read off the examples. -/
def defaultSearch : SearchSettings := ⟨.guided, 1, 1000, Grammar.defaultIntervals⟩

/-- Six sequences of examples and up to twelve examples per trial. -/
def defaultStudy : StudySettings where
  exampleSets :=
    [[16], [16, 8, 2, 64], [60, 80, 10, 30], [60, 52, 57, 55], [81, 25, 4, 36], [16, 23, 19, 20]]
  exampleCounts := [1, 2, 3, 4, 6, 8, 12]
  repeats := 50
  samples := 10000
  topCount := 3

/-- Everything is written to the directory of results. -/
def defaultOutput : OutputSettings := ⟨"results", true, true⟩

/-- The settings where nothing else is said. -/
def standard [Scalar α] : Settings α where
  domain := .largest
  grammar := defaultGrammar
  search := defaultSearch
  prior := .typeWeighted
  study := defaultStudy
  output := defaultOutput
  seed := 42

end Settings

end NumberConcepts
