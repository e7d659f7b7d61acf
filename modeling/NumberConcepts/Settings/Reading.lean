import NumberConcepts.Settings.Basic
import NumberConcepts.Settings.Placeholder
import NumberConcepts.Settings.PriorReading
/-!
# Reading settings

Settings are read from a record of records. A rule that joins several fields is
checked only when each of them has passed; fields of other names are ignored.
-/

namespace NumberConcepts.Settings

/-- A pair as messages show it. -/
def showPair (pair : Int × Int) : String := "(" ++ toString pair.1 ++ ", " ++ toString pair.2 ++ ")"

/-- The pair is a range within the range of a parameter. -/
def withinRange (name : String) (parameter : Parameter) (pair : Int × Int) : Checked Unit :=
  if parameter.least ≤ pair.1 ∧ pair.1 ≤ pair.2 ∧ pair.2 ≤ parameter.greatest then .valid ()
  else
    .broken (name ++ " must be a sub-range of " ++ showPair (wholeRange parameter) ++ ", got " ++
      showPair pair)

/-- The size of a domain. -/
def readSize (value : Datum) : Checked Domain :=
  (Lax.bounded 1 (some largestDomain) value).andThen fun size =>
    match Domain.ofSize size with
    | .ok domain => .valid domain
    | .error fault => .broken fault.message

/-- The domain. -/
def readDomain (value : Datum) : Checked Domain :=
  (Lax.record value).andThen fun fields => Lax.field fields "size" readSize .largest

/-- The terminals and the greatest depth. -/
def readGrammar (value : Datum) : Checked GrammarSettings :=
  (Lax.record value).andThen fun fields =>
    (GrammarSettings.mk <$> Lax.field fields "power_bases" Lax.pair defaultGrammar.powerBases
      <*> Lax.field fields "multiples" Lax.pair defaultGrammar.multiples
      <*> Lax.field fields "max_depth" (Lax.bounded 0 (some 3)) defaultGrammar.maxDepth
      <*> Lax.field fields "include_ends_in" Lax.bool defaultGrammar.includeEndings).andThen
    fun settings =>
      (withinRange "power_bases" .powerBase settings.powerBases).andThen fun _ =>
        (withinRange "multiples" .multipleStep settings.multiples).map fun _ => settings

/-- A strategy by its name. -/
def readStrategy : Datum → Checked Strategy
  | .text name =>
    match Strategy.ofName? name with
    | some strategy => .valid strategy
    | none => .fail "literal_error"
  | _ => .fail "literal_error"

/-- How to search. -/
def readSearch (value : Datum) : Checked SearchSettings :=
  (Lax.record value).andThen fun fields =>
    SearchSettings.mk <$> Lax.field fields "strategy" readStrategy defaultSearch.strategy
      <*> Lax.field fields "max_depth" (Lax.bounded 0 (some 3)) defaultSearch.maxDepth
      <*> Lax.field fields "max_results" (Lax.bounded 1 none) defaultSearch.maxResults
      <*> Lax.field fields "max_intervals" (Lax.bounded 0 none) defaultSearch.maxIntervals

/-- What a study runs. -/
def readStudy (value : Datum) : Checked StudySettings :=
  (Lax.record value).andThen fun fields =>
    StudySettings.mk
      <$> Lax.field fields "example_sets" (Lax.list (Lax.list Lax.integer)) defaultStudy.exampleSets
      <*> Lax.field fields "n_examples" (Lax.list Lax.integer) defaultStudy.exampleCounts
      <*> Lax.field fields "n_repeats" (Lax.bounded 1 none) defaultStudy.repeats
      <*> Lax.field fields "n_samples" (Lax.bounded 1 none) defaultStudy.samples
      <*> Lax.field fields "top_k" (Lax.bounded 1 none) defaultStudy.topCount

/-- Where and what a study writes. -/
def readOutput (value : Datum) : Checked OutputSettings :=
  (Lax.record value).andThen fun fields =>
    OutputSettings.mk <$> Lax.field fields "dir" Lax.text defaultOutput.directory
      <*> Lax.field fields "save_raw" Lax.bool defaultOutput.saveRecords
      <*> Lax.field fields "save_plots" Lax.bool defaultOutput.savePlots

/-- A search may not go deeper than the grammar. -/
def withinDepth (settings : Settings Float) : Checked (Settings Float) :=
  if settings.grammar.maxDepth < settings.search.maxDepth then
    .broken ("synthesis.max_depth (" ++ toString settings.search.maxDepth ++
      ") exceeds grammar.max_depth (" ++ toString settings.grammar.maxDepth ++ ")")
  else
    .valid settings

/-- The settings of a record, given its prior. -/
def readFields (fields : List (String × Datum)) (prior : Checked (Prior Float)) :
    Checked (Settings Float) :=
  (Settings.mk <$> Lax.field fields "domain" readDomain .largest
    <*> Lax.field fields "grammar" readGrammar defaultGrammar
    <*> Lax.field fields "synthesis" readSearch defaultSearch
    <*> prior.inside "prior"
    <*> Lax.field fields "experiment" readStudy defaultStudy
    <*> Lax.field fields "output" readOutput defaultOutput
    <*> Lax.field fields "seed" Lax.integer 42).andThen withinDepth

/-- The value, or a fault that lists all flaws. -/
def accept {β : Type} : Checked β → Except Fault β
  | .valid value => .ok value
  | .flawed flaws => .error (.invalidSettings (flaws.map Flaw.text))

/-- The prior that a value describes. -/
def readPrior (value : Datum) : Except Fault (Prior Float) := do accept (← PriorReading.read value)

/-- The settings that a document describes; an empty document describes the standard ones. -/
def read : Datum → Except Fault (Settings Float)
  | .null => .ok standard
  | .record fields => do
    let prior ← match fields.lookup "prior" with
      | some value => PriorReading.read value
      | none => .ok (.valid .typeWeighted)
    accept (readFields fields prior)
  | _ => .error .wrongShape

/-- The settings of a document with placeholders. -/
def load (environment : Placeholder.Environment) (document : Datum) :
    Except Fault (Settings Float) :=
  read (Placeholder.expand environment document)

end NumberConcepts.Settings
