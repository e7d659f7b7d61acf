import NumberConcepts.Search.Discovery
import NumberConcepts.Study.SurveyReport
import NumberConcepts.Study.SweepReport
import NumberConcepts.Text.Basic
/-!
# Lines

The lines in which the program tells what it has found.
-/

namespace NumberConcepts.CommandLine

/-- The line about what the examples have in common. -/
def constraintsLine (constraints : Discovery.Constraints) : String :=
  "Range " ++ toString constraints.least ++ ".." ++ toString constraints.greatest ++
    "  gcd=" ++ toString constraints.divisor ++
    "  bases=" ++ Text.bracketed (constraints.bases.map toString) ++
    "  multiples=" ++ Text.bracketed (constraints.multiples.map toString)

/-- The line about a concept and its size. -/
def conceptLine {size : Nat} (hypothesis : Hypothesis size) : String :=
  "  " ++ hypothesis.key ++ "  (size " ++ toString hypothesis.count ++ ")"

/-- The line about a ranked concept. -/
def rankLine {size : Nat} (rank : Nat) (entry : Ranked Float size) : String :=
  "  " ++ Text.alignRight 2 (toString rank) ++ ". " ++ Text.alignLeft 40 entry.hypothesis.key ++
    " p=" ++ Decimal.fixed 4 entry.probability ++ "  size=" ++ toString entry.hypothesis.count

/-- The line about a number and its probability. -/
def numberLine (number : Int) (probability : Float) : String :=
  "  " ++ Text.alignRight 3 (toString number) ++ "  " ++ Decimal.fixed 4 probability

/-- The line about a step of elimination. -/
def stepLine {size : Nat} (step : EliminationStep Float size) : String :=
  let top := (step.top.getD []).map fun entry =>
    entry.hypothesis.key ++ " (" ++ Decimal.fixed 3 entry.probability ++ ")"
  "  step " ++ Text.alignRight 2 (toString step.step) ++
    "  after " ++ Text.alignRight 3 ((step.after.map toString).getD "-") ++
    "  remaining=" ++ Text.alignRight 5 (toString step.remaining) ++
    "  eliminated=" ++ Text.alignRight 5 (toString step.eliminated) ++
    "  " ++ ", ".intercalate top

/-- The line about a whole trajectory. -/
def trajectoryLine {size : Nat} (trajectory : Trajectory Float size) : String :=
  toString trajectory.initial ++ " -> " ++ toString trajectory.final ++
    " hypotheses (efficiency gain " ++ Decimal.fixed 1 trajectory.gain ++ "x)"

/-- The line about an informative number. -/
def informativeLine (number eliminated : Nat) : String :=
  "  " ++ Text.alignRight 3 (toString number) ++ " would eliminate " ++ toString eliminated

/-- The line about an entry of a survey. -/
def entryLine {size : Nat} (entry : SurveyEntry Float size) : String :=
  "  [" ++ entry.label ++ "]: " ++ toString entry.trajectory.final ++
    " consistent, best program " ++ (Datum.ofText? (entry.found.best.map Prod.fst)).plain ++
    " (p=" ++ Decimal.fixed 3 ((entry.found.best.map Prod.snd).getD 0.0) ++ ")"

/-- The line about a summary of a sweep. -/
def summaryLine (summary : SweepSummary Float) : String :=
  "  n=" ++ Text.alignRight 2 (toString summary.recovery.key) ++
    ": recovered=" ++ Decimal.fixed 3 summary.recovery.mean ++
    " +/- " ++ Decimal.fixed 3 summary.recovery.standardError

end NumberConcepts.CommandLine
