import NumberConcepts.Settings.Basic
import NumberConcepts.Simulation
import NumberConcepts.Statistics.Samples
/-!
# Recovery sweeps

How well hypotheses are recovered depends on how many examples are drawn. A
sweep tries several numbers of examples, each a number of times, and sums up how
often the hypothesis came back and how probable the best one was.
-/

namespace NumberConcepts

variable {α σ : Type} [Scalar α] [RandomSource α σ]

/-- A trial of a sweep. -/
structure SweepTrial (α : Type) extends RecoveryTrial α where
  /-- How many trials with as many examples came before it. -/
  round : Nat

namespace SweepTrial

variable (trial : SweepTrial α)

/-- One if the hypothesis was recovered, otherwise zero. -/
def recovery : α :=
  if trial.outcome.any RecoveryOutcome.recovered then Scalar.one else Scalar.zero

/-- One if a hypothesis with the same members was recovered, otherwise zero. -/
def memberRecovery : α :=
  if trial.outcome.any RecoveryOutcome.recoveredMembers then Scalar.one else Scalar.zero

/-- The probability of the best hypothesis; zero where there is none. -/
def bestProbability : α :=
  match trial.outcome with
  | some outcome => outcome.bestProbability
  | none => Scalar.zero

end SweepTrial

/-- The trials with one number of examples in short. -/
structure SweepSummary (α : Type) where
  recovery : Statistics.GroupSummary Int α
  memberRecovery : Statistics.GroupSummary Int α
  bestProbability : Statistics.GroupSummary Int α

namespace RecoverySweep

/-- The summaries of some measure of the trials by the number of examples. -/
def summarizeBy (measure : SweepTrial α → α) (trials : List (SweepTrial α)) :
    List (Statistics.GroupSummary Int α) :=
  Statistics.summarizeByNumber (trials.map fun trial => (trial.asked, measure trial))

/-- The summaries of all trials, sorted by the number of examples. -/
def summaries (trials : List (SweepTrial α)) : List (SweepSummary α) :=
  List.zipWith (fun recovery (other, best) => ⟨recovery, other, best⟩)
    (summarizeBy SweepTrial.recovery trials)
    ((summarizeBy SweepTrial.memberRecovery trials).zip
      (summarizeBy SweepTrial.bestProbability trials))

/-- The trials with one number of examples. -/
def trialsOf (space : HypothesisSpace) (prior : Prior α) (rounds : Nat) (count : Int) :
    Draw σ (List (SweepTrial α)) := do
  let trials ← Draw.times (space.recover prior count) rounds
  return trials.mapIdx fun round trial => { trial with round }

/-- The trials that the settings ask for. -/
def run (space : HypothesisSpace) (settings : Settings α) : Draw σ (List (SweepTrial α)) := do
  let groups ← settings.study.exampleCounts.mapM
    (trialsOf space settings.prior settings.study.repeats)
  return groups.flatten

end RecoverySweep

end NumberConcepts
