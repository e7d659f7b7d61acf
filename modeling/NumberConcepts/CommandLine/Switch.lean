/-!
# Switches

The switches of the command line. Each has a long name, most have a letter, and
all but two take a value: the rest of the argument after an equals sign or after
the letter, or else the next argument.
-/

namespace NumberConcepts.CommandLine

/-- A switch. -/
inductive Switch where
  | config
  | prior
  | strategy
  | depth
  | limit
  | top
  | seed
  | noPlots
  | help
deriving DecidableEq, Repr

namespace Switch

/-- The long name. -/
def name : Switch → String
  | config => "--config"
  | prior => "--prior"
  | strategy => "--strategy"
  | depth => "--depth"
  | limit => "--limit"
  | top => "--top-k"
  | seed => "--seed"
  | noPlots => "--no-plots"
  | help => "--help"

/-- The letter. -/
def letter? : Switch → Option Char
  | config => some 'c'
  | prior => some 'p'
  | depth => some 'd'
  | limit => some 'n'
  | top => some 'k'
  | seed => some 's'
  | strategy | noPlots | help => none

/-- The switch takes a value. -/
def takesValue : Switch → Bool
  | noPlots | help => false
  | _ => true

end Switch

/-- What arguments amount to: switches with their values and words, each in order. -/
structure Arguments where
  /-- The switches; one without a value has an empty one. -/
  switches : List (Switch × String)
  words : List String

namespace Arguments

/-- No arguments. -/
def empty : Arguments := ⟨[], []⟩

/-- The arguments with a switch in front. -/
def withSwitch (switch : Switch) (value : String) (arguments : Arguments) : Arguments :=
  { arguments with switches := (switch, value) :: arguments.switches }

/-- The arguments with a word in front. -/
def withWord (word : String) (arguments : Arguments) : Arguments :=
  { arguments with words := word :: arguments.words }

/-- The switch is given. -/
def has (arguments : Arguments) (switch : Switch) : Bool :=
  arguments.switches.any fun given => given.1 == switch

/-- The value of a switch; the last one counts. -/
def value? (arguments : Arguments) (switch : Switch) : Option String :=
  arguments.switches.reverse.lookup switch

end Arguments

/-- A single argument. -/
inductive Argument where
  | word (text : String)
  /-- The mark after which there are only words. -/
  | wordsOnly
  /-- A switch that is complete, with a value if it takes one. -/
  | complete (switch : Switch) (value : String)
  /-- A switch whose value is the next argument. -/
  | pending (switch : Switch)
  | unknown

namespace Argument

/-- An argument that starts with two dashes and may hold an equals sign. -/
def ofLong (known : List Switch) (text : String) : Argument :=
  let letters := text.toList
  let name := String.ofList (letters.takeWhile (· ≠ '='))
  match known.find? fun switch => switch.name == name, letters.dropWhile (· ≠ '=') with
  | none, _ => .unknown
  | some switch, [] => if switch.takesValue then .pending switch else .complete switch ""
  | some switch, _ :: value =>
    if switch.takesValue then .complete switch (String.ofList value) else .unknown

/-- An argument of a dash, a letter and perhaps more. -/
def ofShort (known : List Switch) (letter : Char) (rest : List Char) : Argument :=
  match known.find? fun switch => switch.letter? == some letter with
  | none => .unknown
  | some switch => if rest.isEmpty then .pending switch else .complete switch (String.ofList rest)

/-- What a written argument is. A single dash is a word. -/
def ofText (known : List Switch) (text : String) : Argument :=
  match text.toList with
  | ['-', '-'] => .wordsOnly
  | '-' :: '-' :: _ => ofLong known text
  | '-' :: letter :: rest => ofShort known letter rest
  | _ => .word text

end Argument

/-- The arguments that some texts amount to, or nothing if a switch is not known or lacks its
value. -/
def Arguments.read? (known : List Switch) : List String → Option Arguments
  | [] => some .empty
  | text :: rest =>
    match Argument.ofText known text, rest with
    | .word word, rest => (read? known rest).map (withWord word)
    | .wordsOnly, rest => some ⟨[], rest⟩
    | .complete switch value, rest => (read? known rest).map (withSwitch switch value)
    | .pending switch, value :: rest => (read? known rest).map (withSwitch switch value)
    | .pending _, [] => none
    | .unknown, _ => none

end NumberConcepts.CommandLine
