import NumberConcepts.Statistics.Correlation
import NumberConcepts.Study.Document
import NumberConcepts.Study.RecoverySweep
import NumberConcepts.Text.Integer
/-!
# Reports of recovery sweeps

The trials of a sweep and their summaries as records, and the documents that
hold them.
-/

namespace NumberConcepts

/-- The fields of what was inferred; without an outcome there is no probability of the truth. -/
def RecoveryOutcome.fields : Option (RecoveryOutcome Float) → Fields
  | some outcome =>
    [("map_hypothesis", .text outcome.best), ("map_prob", .float outcome.bestProbability),
      ("true_prob", .float outcome.trueProbability), ("recovered", .bool outcome.recovered),
      ("recovered_extension", .bool outcome.recoveredMembers)]
  | none =>
    [("map_hypothesis", .null), ("map_prob", .float 0.0), ("recovered", .bool false),
      ("recovered_extension", .bool false)]

namespace RecoveryTrial

variable (trial : RecoveryTrial Float)

/-- The fields of a trial, given how its examples are shown. -/
def fieldsWith (examples : Datum) : Fields :=
  [("true_hypothesis", .text trial.trueKey), ("true_size", .int trial.trueSize),
    ("examples", examples), ("n_examples", .int trial.asked)] ++
    RecoveryOutcome.fields trial.outcome

/-- The fields of a trial. -/
def fields : Fields := trial.fieldsWith (Datum.ofInts (trial.examples.map Int.ofNat))

end RecoveryTrial

/-- The fields of a trial of a sweep, the examples as one text. -/
def SweepTrial.fields (trial : SweepTrial Float) : Fields :=
  trial.fieldsWith (.text (Text.writeIntegers (trial.examples.map Int.ofNat))) ++
    [("repeat", .int trial.round)]

/-- The mean, the deviation and the standard error of a measure. -/
def Statistics.GroupSummary.fields {κ : Type} (summary : Statistics.GroupSummary κ Float)
    (measure : String) : Fields :=
  [("mean_" ++ measure, .float summary.mean), ("std_" ++ measure, .float summary.deviation),
    ("stderr_" ++ measure, .float summary.standardError)]

/-- The fields of a summary of one measure with its key, which is a number of examples. -/
def Statistics.GroupSummary.fullFields {κ : Type} (summary : Statistics.GroupSummary κ Float)
    (key : κ → Datum) (measure : String) : Fields :=
  ("n_examples", key summary.key) :: summary.fields measure ++ [("n_samples", .int summary.count)]

/-- The fields of a summary of a sweep. -/
def SweepSummary.fields (summary : SweepSummary Float) : Fields :=
  summary.recovery.fullFields .int "recovered" ++
    summary.memberRecovery.fields "recovered_extension" ++
    summary.bestProbability.fields "map_prob"

namespace RecoverySweep

variable (settings : Settings Float) (trials : List (SweepTrial Float))

/-- Smaller concepts should be recovered with more confidence. -/
def sizeCorrelation : Except Fault Statistics.Correlations :=
  Statistics.correlations (trials.map fun trial => Float.ofNat trial.trueSize)
    (trials.map SweepTrial.bestProbability)

/-- What is said before the sweep. -/
def announcement : List String :=
  ["n values: " ++ Text.bracketed (settings.study.exampleCounts.map toString),
    "Repeats per n: " ++ toString settings.study.repeats]

/-- What the sweep leaves behind; the stamp tells it from other sweeps. -/
def documents (stamp : String) : List Document :=
  let directory := Location.ofText settings.output.directory
  let name := "recovery_" ++ stamp
  let raw := Document.ofTable "raw" (some "raw results") (directory.child (name ++ ".csv"))
    (Table.ofRecords (trials.map SweepTrial.fields))
  let aggregated := Document.ofTable "aggregated" (some "aggregated results")
    (directory.child (name ++ "_agg.csv"))
    (Table.ofRecords ((summaries trials).map SweepSummary.fields))
  if settings.output.saveRecords then [raw, aggregated] else [aggregated]

end RecoverySweep

end NumberConcepts
