import NumberConcepts.CommandLine.Command
import NumberConcepts.CommandLine.Lines
import NumberConcepts.CommandLine.Session
import NumberConcepts.Random.MersenneTwister
import NumberConcepts.Settings.Reading
/-!
# Responses

What the program does about a command line. The settings come in as a value, so
that a response depends on nothing but its arguments.
-/

namespace NumberConcepts.CommandLine

/-- What there is at the location of the settings. -/
inductive SettingsFile where
  | absent
  | unreadable
  | document (content : Datum)

/-- What the text of a file amounts to; a blank one is a document without a value. -/
def SettingsFile.ofText (text : String) : SettingsFile :=
  if text.toList.all Text.isWhite then .document .null
  else
    match Json.read? text with
    | some content => .document content
    | none => .unreadable

/-- The variables that the settings mention. -/
def SettingsFile.mentions : SettingsFile → List String
  | .document content => Placeholder.names content
  | _ => []

/-- The settings of a file. Where no file is at the usual location the standard ones apply. -/
def loadSettings (environment : Placeholder.Environment) (location : Location) :
    SettingsFile → Except Fault (Settings Float)
  | .document content => Settings.load environment content
  | .unreadable => .error (.unreadableFile location.text)
  | .absent =>
    if location = defaultSettings then .ok .standard else .error (.missingFile location.text)

/-- The examples of a text, of which there is at least one. -/
def examplesOf (domain : Domain) (text : String) : Except Fault (List Nat) := do
  let numbers ← readExamples text
  domain.validateSome (numbers.map .int)

/-- The strategy that is named, or else that of the settings. -/
def strategyOf (settings : Settings Float) : Option String → Except Fault Strategy
  | none => .ok settings.search.strategy
  | some name => if name = "" then .ok settings.search.strategy else Synthesis.checkStrategy name

/-- The depth that is given, or else that of the settings. -/
def depthOf (settings : Settings Float) : Option Int → Except Fault Nat
  | none => .ok settings.search.maxDepth
  | some depth => Synthesis.checkDepth depth

/-- The search that settings and switches ask for. -/
def searchOf (settings : Settings Float) (strategy : Option String) (depth : Option Int) :
    Except Fault Synthesis := do
  let strategy ← strategyOf settings strategy
  let depth ← depthOf settings depth
  return { settings.synthesis with strategy, depth }

/-- The concepts that settings and switches ask for. -/
def conceptsOf (space : HypothesisSpace) (settings : Settings Float) (strategy : Option String)
    (depth : Option Int) (examples : List Nat) :
    Except Fault (List (Hypothesis space.domain.size)) := do
  let search ← searchOf settings strategy depth
  space.synthesize search examples

/-- The settings with a prior that is named. -/
def withPrior (settings : Settings Float) : Option String → Except Fault (Settings Float)
  | none => .ok settings
  | some name => do
    let prior ← Prior.ofName name
    return { settings with prior }

/-- The settings with a seed that is given. -/
def withSeed (settings : Settings Float) : Option Int → Settings Float
  | none => settings
  | some seed => { settings with seed }

namespace Command

/-- Settings for a task about examples. -/
structure Ground where
  settings : Settings Float
  space : HypothesisSpace
  examples : List Nat

/-- The settings with a prior, the hypotheses and the examples. -/
def ground (settings : Except Fault (Settings Float)) (prior : Option String)
    (examples : String) : Session Ground := do
  let settings ← Session.require settings
  let settings ← Session.demand (withPrior settings prior)
  let examples ← Session.demand (examplesOf settings.domain examples)
  return { settings, space := .base settings.domain, examples }

/-- List the concepts that contain the examples. -/
def listConcepts (ground : Ground) (strategy : Option String) (depth : Option Int) (limit : Int) :
    Session Unit := do
  let constraints ← Session.require
    (Discovery.constraints ground.settings.searchGrammar (ground.examples.map Int.ofNat))
  Session.say (constraintsLine constraints)
  let found ← Session.require
    (conceptsOf ground.space ground.settings strategy depth ground.examples)
  Session.say ("Found " ++ toString found.length ++ " consistent programs")
  Session.sayAll ((Sequence.first limit found).map conceptLine)

/-- Rank the concepts that contain the examples. -/
def rankConcepts (ground : Ground) (strategy : Option String) (depth : Option Int) (top : Int) :
    Session Unit := do
  let found ← Session.require
    (conceptsOf ground.space ground.settings strategy depth ground.examples)
  let posterior ← Session.requireExplained
    (Posterior.rank ground.settings.prior found ground.examples)
  Session.say ("Prior: " ++ ground.settings.prior.name ++ "  Candidates: " ++
    toString posterior.entries.length)
  Session.sayAll ((posterior.top top).mapIdx fun index entry => rankLine (index + 1) entry)

/-- List the numbers that most probably belong with the examples. -/
def listNumbers (ground : Ground) (top : Int) : Session Unit := do
  let prior := ground.settings.prior
  let numbers ← Session.requireExplained (ground.space.mostLikely prior ground.examples top)
  let statistics ← Session.requireExplained (ground.space.curveStatistics prior ground.examples)
  Session.say ("Effective size: " ++ Decimal.fixed 1 statistics.effectiveSize ++
    "  Above 0.5: " ++ toString statistics.aboveHalf)
  Session.sayAll (numbers.map fun (number, probability) => numberLine number probability)

/-- Show how the examples eliminate hypotheses. -/
def showElimination (ground : Ground) : Session Unit := do
  let settings := ground.settings
  let trajectory ← Session.require
    (ground.space.trajectory settings.prior ground.examples settings.study.topCount)
  Session.sayAll (trajectory.steps.map stepLine)
  Session.say ""
  Session.say (trajectoryLine trajectory)
  let informative := ground.space.informativeNumbers ground.examples 5
  if !informative.isEmpty then
    Session.say "Most informative next examples:"
    Session.sayAll (informative.map fun (number, eliminated) => informativeLine number eliminated)

/-- The settings of a study, which are announced. -/
def prepare (location : Location) (settings : Except Fault (Settings Float)) (seed : Option Int) :
    Session (Settings Float) := do
  Session.say ("Loading configuration from " ++ location.text)
  let settings ← Session.require settings
  match seed with
  | none => return settings
  | some value =>
    Session.say ("Using seed: " ++ toString value)
    return withSeed settings seed

/-- Close a study with some lines that sum it up. -/
def conclude (lines : List String) : Session Unit :=
  Session.sayAll (["", "Results summary:"] ++ lines ++ ["", "Done!"])

/-- Survey the trajectories that the settings list. -/
def survey (settings : Settings Float) (stamp : String) : Session Unit := do
  Session.sayAll
    ["Example sets: " ++ toString settings.study.exampleSets.length, ""]
  let space := HypothesisSpace.base settings.domain
  Session.sayAll (TrajectorySurvey.announcement space settings)
  let entries ← Session.require
    (Draw.resultFrom (MersenneTwister.ofSeed settings.seed) (TrajectorySurvey.run space settings))
  Session.leave (TrajectorySurvey.documents settings entries stamp)
  conclude (entries.map entryLine)

/-- Sweep the numbers of examples that the settings list. -/
def sweep (settings : Settings Float) (stamp : String) : Session Unit := do
  Session.sayAll ["Prior: " ++ settings.prior.name, ""]
  let space := HypothesisSpace.base settings.domain
  Session.sayAll (RecoverySweep.announcement settings)
  let trials ← Session.require
    (Draw.resultFrom (MersenneTwister.ofSeed settings.seed) (RecoverySweep.run space settings))
  Session.leave (RecoverySweep.documents settings trials stamp)
  conclude ((RecoverySweep.summaries trials).map summaryLine)

/-- Carry out a task with the settings of a location. -/
def perform (location : Location) (settings : Except Fault (Settings Float)) (stamp : String) :
    Command → Session Unit
  | .synthesize examples strategy depth limit => do
    listConcepts (← ground settings none examples) strategy depth limit
  | .rank examples prior strategy depth top => do
    rankConcepts (← ground settings prior examples) strategy depth top
  | .generalize examples prior top => do
    listNumbers (← ground settings prior examples) top
  | .prune examples prior => do
    showElimination (← ground settings prior examples)
  | .surveyTrajectories seed => do
    survey (← prepare location settings seed) stamp
  | .sweepRecovery seed => do
    sweep (← prepare location settings seed) stamp

end Command

/-- The outcome of what a command line asks for, given the environment, what there is at each
location, and a stamp for the names of documents. -/
def respond (environment : Placeholder.Environment) (files : Location → SettingsFile)
    (stamp : String) : Option Invocation → Outcome
  | none => ⟨[], [], .misuse none⟩
  | some .help => ⟨[], [], .help⟩
  | some (.run location command) =>
    let settings := loadSettings environment location (files location)
    (command.perform location settings stamp).outcome

end NumberConcepts.CommandLine
