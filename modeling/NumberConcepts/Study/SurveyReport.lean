import NumberConcepts.Study.Document
import NumberConcepts.Study.TrajectorySurvey
/-!
# Reports of trajectory surveys

The entries of a survey and the steps of their trajectories as records, and the
documents that hold them.
-/

namespace NumberConcepts

variable {size : Nat}

/-- A float or no value. -/
def Datum.ofFloat? : Option Float → Datum
  | some value => .float value
  | none => .null

/-- A text or no value. -/
def Datum.ofText? : Option String → Datum
  | some value => .text value
  | none => .null

namespace Trajectory

/-- The fields that sum up a trajectory. -/
def summaryFields (trajectory : Trajectory Float size) : Fields :=
  [("initial_hypotheses", .int trajectory.initial), ("final_hypotheses", .int trajectory.final),
    ("total_eliminated", .int trajectory.eliminated), ("efficiency_gain", .float trajectory.gain)]

end Trajectory

/-- The fields of a step with its best hypothesis. -/
def EliminationStep.fields (step : EliminationStep Float size) : Fields :=
  let best := step.top.bind List.head?
  [("step", .int step.step),
    ("after_example", match step.after with
      | some number => .int number
      | none => .null),
    ("remaining_count", .int step.remaining), ("eliminated", .int step.eliminated),
    ("elimination_rate", .float step.rate),
    ("top_hypothesis", Datum.ofText? (best.map fun entry => entry.hypothesis.key)),
    ("top_prob", Datum.ofFloat? (best.map Ranked.probability))]

namespace SurveyEntry

variable (entry : SurveyEntry Float size)

/-- The fields that say which entry it is. -/
def headFields : Fields := [("set_idx", .int entry.position), ("examples", .text entry.label)]

/-- The fields of the steps of the trajectory. -/
def stepFields : List Fields :=
  entry.trajectory.steps.map fun step => entry.headFields ++ step.fields

/-- The fields of the concepts found. -/
def foundFields : Fields :=
  [("n_programs", .int entry.found.count),
    ("best_program", Datum.ofText? (entry.found.best.map Prod.fst)),
    ("best_program_prob", .float ((entry.found.best.map Prod.snd).getD 0.0))]

/-- The fields of the entry; the divergence is a field only where it exists. -/
def fields : Fields :=
  entry.headFields ++ entry.trajectory.summaryFields ++ entry.foundFields ++
    [("effective_size", Datum.ofFloat? entry.effectiveSize)] ++
    (match entry.divergence with
      | some divergence => [("kl_from_uniform", .float divergence)]
      | none => []) ++
    [("sampling_acceptance_rate", .float entry.sampled.acceptance),
      ("sampling_best_program", Datum.ofText? entry.bestSample)]

/-- The predictions under the label of the entry, where something explains its examples. -/
def curve? : Option (String × List Float) :=
  entry.predictions.toOption.map fun values => (entry.label, values)

end SurveyEntry

namespace TrajectorySurvey

variable (space : HypothesisSpace) (settings : Settings Float)

/-- The table of the predictions, with a row for each number of the domain. -/
def predictionTable (entries : List (SurveyEntry Float size)) : Table :=
  let curves := entries.filterMap SurveyEntry.curve?
  Table.ofRecords ((List.range size).map fun (index : Nat) =>
    ("number", .int (index + 1 : Nat)) :: curves.map fun (label, values) =>
      (label, Datum.ofFloat? values[index]?))

/-- What is said before the survey. -/
def announcement : List String :=
  ["Built " ++ toString space.count ++ " base hypotheses over 1.." ++
      toString space.domain.size,
    "Using prior: " ++ settings.prior.name]

/-- What the survey leaves behind; the stamp tells it from other surveys. -/
def documents (entries : List (SurveyEntry Float size)) (stamp : String) : List Document :=
  let location (ending : String) : Location :=
    (Location.ofText settings.output.directory).child ("trajectory_" ++ stamp ++ ending)
  let records := entries.map SurveyEntry.fields
  let raw := Document.ofRecords "raw" (some "raw results") (location ".jsonl") records
  let tables :=
    [Document.ofTable "summary" none (location "_summary.csv") (Table.ofRecords records),
      Document.ofTable "steps" (some "pruning steps") (location "_steps.csv")
        (Table.ofRecords (entries.flatMap SurveyEntry.stepFields)),
      Document.ofTable "generalization" none (location "_generalization.csv")
        (predictionTable entries)]
  if settings.output.saveRecords then raw :: tables else tables

end TrajectorySurvey

end NumberConcepts
