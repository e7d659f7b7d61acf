import NumberConcepts.Fault
import NumberConcepts.Text.Integer
/-!
# Domains

A domain is the numbers from one to its size. Examples are read from a text and
checked against the domain before anything is inferred from them.
-/

namespace NumberConcepts

/-- The numbers `1, …, size`. -/
structure Domain where
  size : Nat
  admissible : 1 ≤ size ∧ size ≤ largestDomain
deriving DecidableEq

/-- The integers of a text in which commas and white space stand between them. -/
def readExamples (text : String) : Except Fault (List Int) :=
  match Text.readIntegers? text with
  | some numbers => .ok numbers
  | none => .error (.notIntegers text)

namespace Domain

/-- The largest domain. -/
def largest : Domain := ⟨largestDomain, by decide⟩

instance : Inhabited Domain := ⟨largest⟩

/-- The domain of a given size. -/
def ofSize (size : Int) : Except Fault Domain :=
  if inRange : 1 ≤ size.toNat ∧ size.toNat ≤ largestDomain then .ok ⟨size.toNat, inRange⟩
  else .error (.domainSize size)

/-- The numbers in increasing order. -/
def numbers (domain : Domain) : List Nat := (List.range domain.size).map (· + 1)

/-- The number that a value is, if it is an integer of the domain. Truth values and floats never
are. -/
def member? (domain : Domain) : Datum → Option Nat
  | .int n => if 1 ≤ n ∧ n ≤ domain.size then some n.toNat else none
  | _ => none

/-- How many intervals the domain has. -/
def intervalCount (domain : Domain) : Nat := domain.size * (domain.size + 1) / 2

/-- Examples as numbers of the domain. All those outside it are named in the fault. -/
def validate (domain : Domain) (examples : List Datum) : Except Fault (List Nat) :=
  let strays := examples.filter fun value => (domain.member? value).isNone
  if strays.isEmpty then .ok (examples.filterMap domain.member?)
  else .error (.outsideDomain domain.size strays)

/-- Examples as numbers of the domain, of which there is at least one. -/
def validateSome (domain : Domain) (examples : List Datum) : Except Fault (List Nat) :=
  if examples.isEmpty then .error .noExamples else domain.validate examples

end Domain

end NumberConcepts
