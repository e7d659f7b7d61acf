import NumberConcepts.Belief.Information
import NumberConcepts.Belief.LogWeights
import NumberConcepts.Belief.Posterior
import NumberConcepts.Belief.Records
import NumberConcepts.Belief.Vector
import NumberConcepts.CommandLine.Command
import NumberConcepts.CommandLine.Lines
import NumberConcepts.CommandLine.Response
import NumberConcepts.CommandLine.Session
import NumberConcepts.CommandLine.Switch
import NumberConcepts.Concept.Construction
import NumberConcepts.Concept.Evaluator
import NumberConcepts.Concept.Extension
import NumberConcepts.Concept.Terminal
import NumberConcepts.Concept.Tree
import NumberConcepts.Datum
import NumberConcepts.Datum.Display
import NumberConcepts.Datum.Json
import NumberConcepts.Decimal.Binary64
import NumberConcepts.Decimal.Places
import NumberConcepts.Decimal.Reading
import NumberConcepts.Decimal.Shortest
import NumberConcepts.Domain
import NumberConcepts.Elimination
import NumberConcepts.Fault
import NumberConcepts.Hypothesis
import NumberConcepts.Hypothesis.Index
import NumberConcepts.Hypothesis.Space
import NumberConcepts.Location
import NumberConcepts.Main
import NumberConcepts.NatSet
import NumberConcepts.Number.Checked
import NumberConcepts.Number.Power
import NumberConcepts.Prediction
import NumberConcepts.Prior
import NumberConcepts.Proofs.Belief.Evidence
import NumberConcepts.Proofs.Belief.History
import NumberConcepts.Proofs.Belief.Likelihood
import NumberConcepts.Proofs.Belief.LogWeights
import NumberConcepts.Proofs.Belief.Posterior
import NumberConcepts.Proofs.Belief.Vector
import NumberConcepts.Proofs.Concept.Canonical
import NumberConcepts.Proofs.Concept.Extension
import NumberConcepts.Proofs.Concept.Key
import NumberConcepts.Proofs.Domain
import NumberConcepts.Proofs.Hypothesis.Composition
import NumberConcepts.Proofs.Hypothesis.Index
import NumberConcepts.Proofs.Hypothesis.Space
import NumberConcepts.Proofs.NatSet
import NumberConcepts.Proofs.Number.Division
import NumberConcepts.Proofs.Number.Powers
import NumberConcepts.Proofs.Prior
import NumberConcepts.Proofs.Scalar
import NumberConcepts.Proofs.Search.Derivation
import NumberConcepts.Proofs.Search.Discovery
import NumberConcepts.Proofs.Search.Exhaustive
import NumberConcepts.Proofs.Search.Fitting
import NumberConcepts.Proofs.Search.Indexed
import NumberConcepts.Proofs.Search.Levels
import NumberConcepts.Proofs.Search.Pool
import NumberConcepts.Proofs.Search.Refinement
import NumberConcepts.Proofs.Search.Remembering
import NumberConcepts.Proofs.Search.Repetition
import NumberConcepts.Proofs.Search.Visits
import NumberConcepts.Proofs.Sequence
import NumberConcepts.Random.MersenneTwister
import NumberConcepts.Random.Source
import NumberConcepts.Scalar
import NumberConcepts.Search.Covering
import NumberConcepts.Search.Discovery
import NumberConcepts.Search.Enumeration
import NumberConcepts.Search.Grammar
import NumberConcepts.Search.Roster
import NumberConcepts.Search.Synthesis
import NumberConcepts.Search.Terminals
import NumberConcepts.Settings.Basic
import NumberConcepts.Settings.Checked
import NumberConcepts.Settings.Lax
import NumberConcepts.Settings.Placeholder
import NumberConcepts.Settings.PriorReading
import NumberConcepts.Settings.Reading
import NumberConcepts.Settings.Writing
import NumberConcepts.Simulation
import NumberConcepts.Statistics.Correlation
import NumberConcepts.Statistics.Records
import NumberConcepts.Statistics.Samples
import NumberConcepts.Study.Document
import NumberConcepts.Study.RecoverySweep
import NumberConcepts.Study.SurveyReport
import NumberConcepts.Study.SweepReport
import NumberConcepts.Study.Table
import NumberConcepts.Study.TrajectorySurvey
import NumberConcepts.Text.Basic
import NumberConcepts.Text.Integer
import NumberConcepts.Text.Printable
import NumberConcepts.Text.Quoted
import NumberConcepts.Proofs.Hypothesis.Filtering
import NumberConcepts.Proofs.Belief.Ranking
import NumberConcepts.Proofs.Prediction
import NumberConcepts.Proofs.Search.Budget
import NumberConcepts.Proofs.Belief.Exchange
import NumberConcepts.Proofs.Search.Exchange
import NumberConcepts.Proofs.Simulation
import NumberConcepts.Proofs.Belief.Names
import NumberConcepts.Proofs.Belief.Updating
import NumberConcepts.Proofs.Settings
import NumberConcepts.Proofs.Sampling
import NumberConcepts.Proofs.CommandLine.Session
import NumberConcepts.Proofs.Study.Depth
import NumberConcepts.Proofs.Elimination
import NumberConcepts.Proofs.Study.Survey
import NumberConcepts.Proofs.Number.Primes
import NumberConcepts.Proofs.Concept.Evaluator
import NumberConcepts.Proofs.Belief.Reordering
import NumberConcepts.Proofs.Belief.Concentration
import NumberConcepts.Proofs.Elimination.Informing
import NumberConcepts.Proofs.Prediction.EffectiveSize
import NumberConcepts.Proofs.Belief.Proportion
import NumberConcepts.Proofs.Prior.Cost
import NumberConcepts.Proofs.Sampling.Counting
import NumberConcepts.Proofs.Study.Labels
import NumberConcepts.Proofs.Settings.Placeholder
import NumberConcepts.Proofs.Statistics.Groups
import NumberConcepts.Proofs.Statistics.Records
import NumberConcepts.Proofs.Study.RecoverySweep
import NumberConcepts.Proofs.Search.Promise
