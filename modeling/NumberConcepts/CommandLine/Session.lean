import NumberConcepts.Belief.Posterior
import NumberConcepts.Study.Document
/-!
# Sessions

A session carries a task out: it says lines, leaves documents behind and comes to
an end. What was said before a fault has been said. Nothing here reads or writes
a file; the outcome is a value.
-/

namespace NumberConcepts.CommandLine

/-- How a session ends. -/
inductive Ending where
  | finished
  | help
  /-- The command line makes no sense, or it names something that is not there. -/
  | misuse (reason : Option Fault)
  /-- No concept explains the examples. -/
  | unexplained
  | failure (fault : Fault)

namespace Ending

/-- The exit code. -/
def exitCode : Ending → Nat
  | finished | help => 0
  | misuse _ => 2
  | unexplained | failure _ => 1

end Ending

/-- What has been said and left behind. -/
structure Transcript where
  /-- The lines, the latest first. -/
  spoken : List String
  documents : List Document

/-- What comes of a session. -/
structure Outcome where
  lines : List String
  documents : List Document
  ending : Ending

namespace Outcome

/-- What is printed; a misuse prints nothing. -/
def printed (outcome : Outcome) : String :=
  match outcome.ending with
  | .misuse _ => ""
  | _ => String.join (outcome.lines.map fun line => line ++ "\n")

end Outcome

/-- A part of a session. -/
abbrev Session := ExceptT Ending (StateM Transcript)

namespace Session

/-- Say a line. -/
def say (line : String) : Session Unit :=
  modify fun transcript => { transcript with spoken := line :: transcript.spoken }

/-- Say some lines. -/
def sayAll (lines : List String) : Session Unit := lines.forM say

/-- Leave documents behind and say so. -/
def leave (documents : List Document) : Session Unit := do
  modify fun transcript => { transcript with documents := transcript.documents ++ documents }
  sayAll (documents.filterMap Document.notice?)

/-- A result without which the session fails. -/
def require {β : Type} : Except Fault β → Session β
  | .ok value => return value
  | .error fault => throw (.failure fault)

/-- A result without which the command line makes no sense. -/
def demand {β : Type} : Except Fault β → Session β
  | .ok value => return value
  | .error fault => throw (.misuse (some fault))

/-- A result; where there is none because nothing explains the examples, that is said. -/
def requireExplained {β : Type} (result : Except Fault (Explained β)) : Session β := do
  match ← require result with
  | .ok value => return value
  | .error missing =>
    say missing.reason
    throw .unexplained

/-- The outcome of a session. -/
def outcome (session : Session Unit) : Outcome :=
  let (result, transcript) := session.run ⟨[], []⟩
  { lines := transcript.spoken.reverse
    documents := transcript.documents
    ending := match result with
      | .ok () => .finished
      | .error ending => ending }

end Session

end NumberConcepts.CommandLine
