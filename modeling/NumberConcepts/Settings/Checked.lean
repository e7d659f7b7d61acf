/-!
# Checks that list all flaws

Settings are read field by field. A value that fails has a flaw with its place,
and the flaws of all fields are collected in their order.
-/

namespace NumberConcepts

/-- A place in the settings and what is wrong there. -/
structure Flaw where
  /-- The names and positions that lead to the place. -/
  place : List String
  problem : String
deriving DecidableEq, Repr

/-- The flaw as reports show it. -/
def Flaw.text (flaw : Flaw) : String := ".".intercalate flaw.place ++ ": " ++ flaw.problem

/-- A value, or the flaws because of which there is none. -/
inductive Checked (β : Type) where
  | valid (value : β)
  | flawed (flaws : List Flaw)

namespace Checked

variable {β γ : Type}

/-- A flaw of the value itself. -/
def fail (problem : String) : Checked β := .flawed [⟨[], problem⟩]

/-- A rule of the settings themselves is broken. -/
def broken (explanation : String) : Checked β := fail ("value_error: Value error, " ++ explanation)

/-- A checked value under a function. -/
def map (f : β → γ) : Checked β → Checked γ
  | .valid value => .valid (f value)
  | .flawed flaws => .flawed flaws

/-- A further check of a value that has passed so far. -/
def andThen (checked : Checked β) (next : β → Checked γ) : Checked γ :=
  match checked with
  | .valid value => next value
  | .flawed flaws => .flawed flaws

/-- Two checked values; flaws of the first come before those of the second. -/
def both : Checked β → Checked γ → Checked (β × γ)
  | .valid first, .valid second => .valid (first, second)
  | .valid _, .flawed flaws => .flawed flaws
  | .flawed flaws, .valid _ => .flawed flaws
  | .flawed first, .flawed second => .flawed (first ++ second)

/-- Checked values in a list. -/
def all : List (Checked β) → Checked (List β)
  | [] => .valid []
  | first :: rest => (both first (all rest)).map fun (value, values) => value :: values

/-- The value lies at a place inside another. -/
def inside (name : String) : Checked β → Checked β
  | .valid value => .valid value
  | .flawed flaws => .flawed (flaws.map fun flaw => { flaw with place := name :: flaw.place })

instance : Functor Checked := ⟨map, fun value => map fun _ => value⟩

instance : Applicative Checked where
  pure := .valid
  seq functions values := (both functions (values ())).map fun (f, value) => f value

end Checked

end NumberConcepts
