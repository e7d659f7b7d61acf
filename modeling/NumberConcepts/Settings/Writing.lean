import NumberConcepts.Settings.Basic
/-!
# Writing settings

Settings are written as the record of records that they are read from, with all
fields in it.
-/

namespace NumberConcepts

/-- The document that describes a divisor of intervals. -/
def IntervalDivisor.document : IntervalDivisor Float → Datum
  | .fixed value => .float value
  | .exact => .text "exact"

/-- The document that describes a preference for sizes. -/
def SizePreference.document (preference : SizePreference Float) : Datum :=
  .record [("preferred_size", .float preference.preferredSize),
    ("spread", .float preference.spread)]

/-- The document that describes a prior. -/
def Prior.document (prior : Prior Float) : Datum :=
  .record [("name", .text prior.name),
    ("weights", .record (prior.weights.map fun (tag, weight) => (tag.name, .float weight))),
    ("default_weight", .float prior.defaultWeight),
    ("interval_divisor", prior.divisor.document),
    ("size_preference", match prior.sizePreference with
      | some preference => preference.document
      | none => .null)]

/-- The document that describes a grammar with its parameters one by one. -/
def Grammar.document (grammar : Grammar) : Datum :=
  .record [("power_bases", .ofInts grammar.powerBases), ("multiples", .ofInts grammar.multiples),
    ("include_ends_in", .bool grammar.includeEndings),
    ("max_intervals", .int grammar.maxIntervals)]

namespace Settings

/-- A pair as a document. -/
def pairDocument (pair : Int × Int) : Datum := .ofInts [pair.1, pair.2]

/-- The document that describes the terminals and the greatest depth. -/
def grammarDocument (grammar : GrammarSettings) : Datum :=
  .record [("power_bases", pairDocument grammar.powerBases),
    ("multiples", pairDocument grammar.multiples), ("max_depth", .int grammar.maxDepth),
    ("include_ends_in", .bool grammar.includeEndings)]

/-- The document that describes how to search. -/
def searchDocument (search : SearchSettings) : Datum :=
  .record [("strategy", .text search.strategy.name), ("max_depth", .int search.maxDepth),
    ("max_results", .int search.maxResults), ("max_intervals", .int search.maxIntervals)]

/-- The document that describes what a study runs. -/
def studyDocument (study : StudySettings) : Datum :=
  .record [("example_sets", .list (study.exampleSets.map Datum.ofInts)),
    ("n_examples", .ofInts study.exampleCounts), ("n_repeats", .int study.repeats),
    ("n_samples", .int study.samples), ("top_k", .int study.topCount)]

/-- The document that describes where and what a study writes. -/
def outputDocument (output : OutputSettings) : Datum :=
  .record [("dir", .text output.directory), ("save_raw", .bool output.saveRecords),
    ("save_plots", .bool output.savePlots)]

/-- The document that describes the settings. -/
def document (settings : Settings Float) : Datum :=
  .record [("domain", .record [("size", .int settings.domain.size)]),
    ("grammar", grammarDocument settings.grammar), ("synthesis", searchDocument settings.search),
    ("prior", settings.prior.document), ("experiment", studyDocument settings.study),
    ("output", outputDocument settings.output), ("seed", .int settings.seed)]

end Settings

end NumberConcepts
