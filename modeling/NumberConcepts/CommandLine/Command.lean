import NumberConcepts.CommandLine.Switch
import NumberConcepts.Location
import NumberConcepts.Text.Integer
/-!
# Commands

What the program can be asked to do, and how that is written on the command
line: the name of the command, then its words and switches in any order.
-/

namespace NumberConcepts.CommandLine

/-- A task of the program. -/
inductive Command where
  | synthesize (examples : String) (strategy : Option String) (depth : Option Int) (limit : Int)
  | rank (examples : String) (prior strategy : Option String) (depth : Option Int) (top : Int)
  | generalize (examples : String) (prior : Option String) (top : Int)
  /-- Show how the examples eliminate hypotheses. -/
  | prune (examples : String) (prior : Option String)
  | surveyTrajectories (seed : Option Int)
  | sweepRecovery (seed : Option Int)
deriving DecidableEq, Repr

/-- What the command line asks for. -/
inductive Invocation where
  | help
  | run (settings : Location) (command : Command)
deriving DecidableEq, Repr

/-- The file with the settings where no other is named. -/
def defaultSettings : Location := .ofText "configs/default.yaml"

/-- The name of a command. -/
inductive CommandName where
  | synthesize
  | rank
  | generalize
  | prune
  | runTrajectory
  | runRecovery
deriving DecidableEq, Repr

namespace CommandName

/-- All names. -/
def all : List CommandName := [synthesize, rank, generalize, prune, runTrajectory, runRecovery]

/-- The written form. -/
def text : CommandName → String
  | synthesize => "synthesize"
  | rank => "rank"
  | generalize => "generalize"
  | prune => "prune"
  | runTrajectory => "run-trajectory"
  | runRecovery => "run-recovery"

/-- The switches that the command knows. -/
def switches : CommandName → List Switch
  | synthesize => [.config, .strategy, .depth, .limit, .help]
  | rank => [.config, .prior, .strategy, .depth, .top, .help]
  | generalize => [.config, .prior, .top, .help]
  | prune => [.config, .prior, .help]
  | runTrajectory | runRecovery => [.config, .seed, .noPlots, .help]

end CommandName

/-- The integer that a text denotes, with blanks around it allowed. -/
def readWhole? (text : String) : Option Int :=
  Text.readInteger? (Text.trim Text.isWhite text.toList)

namespace Arguments

variable (arguments : Arguments)

/-- The integer value of a switch, if the switch is given; nothing if the value is no integer. -/
def integer? (switch : Switch) : Option (Option Int) :=
  match arguments.value? switch with
  | none => some none
  | some text => (readWhole? text).map some

/-- The integer value of a switch, or another value if the switch is not given. -/
def integerOr? (switch : Switch) (otherwise : Int) : Option Int :=
  (arguments.integer? switch).map fun value => value.getD otherwise

/-- The only word. -/
def onlyWord? : Option String :=
  match arguments.words with
  | [word] => some word
  | _ => none

/-- The task of a command. -/
def command? : CommandName → Option Command
  | .synthesize => do
    let depth ← arguments.integer? .depth
    let limit ← arguments.integerOr? .limit 50
    return .synthesize (← arguments.onlyWord?) (arguments.value? .strategy) depth limit
  | .rank => do
    let depth ← arguments.integer? .depth
    let top ← arguments.integerOr? .top 10
    return .rank (← arguments.onlyWord?) (arguments.value? .prior) (arguments.value? .strategy)
      depth top
  | .generalize => do
    let top ← arguments.integerOr? .top 20
    return .generalize (← arguments.onlyWord?) (arguments.value? .prior) top
  | .prune => return .prune (← arguments.onlyWord?) (arguments.value? .prior)
  | .runTrajectory => do
    if !arguments.words.isEmpty then none
    return .surveyTrajectories (← arguments.integer? .seed)
  | .runRecovery => do
    if !arguments.words.isEmpty then none
    return .sweepRecovery (← arguments.integer? .seed)

/-- The file with the settings. -/
def settings : Location :=
  match arguments.value? .config with
  | some text => .ofText text
  | none => defaultSettings

end Arguments

/-- What a command with further arguments asks for. -/
def Invocation.ofCommand? (name : CommandName) (texts : List String) : Option Invocation := do
  let arguments ← Arguments.read? name.switches texts
  if arguments.has .help then return .help
  return .run arguments.settings (← arguments.command? name)

/-- What a command line asks for, or nothing if it makes no sense. -/
def Invocation.read? : List String → Option Invocation
  | [] => none
  | text :: rest =>
    match Argument.ofText [.help] text, rest with
    | .complete .help _, _ => some .help
    | .word word, rest => named word rest
    | .wordsOnly, word :: rest => named word rest
    | _, _ => none
where
  /-- What the command of a name asks for. -/
  named (word : String) (rest : List String) : Option Invocation := do
    let name ← CommandName.all.find? fun name => name.text == word
    Invocation.ofCommand? name rest

end NumberConcepts.CommandLine
