import NumberConcepts.Scalar
/-!
# Samples

The mean of a sample, its standard deviation, and the standard error of the
mean; and samples collected under keys.
-/

namespace NumberConcepts.Statistics

variable {α κ : Type} [Scalar α]

/-- The mean, zero of no values. -/
def mean (values : List α) : α :=
  if values.isEmpty then Scalar.zero else Scalar.sum values / Scalar.ofNat values.length

/-- The sum of the squared distances from the mean. -/
def squaredDistances (values : List α) : α :=
  let center := mean values
  Scalar.sum (values.map fun value => (value - center) * (value - center))

/-- The standard deviation that a sample suggests, zero of fewer than two values. -/
def deviation (values : List α) : α :=
  if values.length < 2 then Scalar.zero
  else Scalar.sqrt (squaredDistances values / Scalar.ofNat (values.length - 1))

/-- The standard error of the mean, zero of fewer than two values. -/
def standardError (values : List α) : α :=
  if values.length < 2 then Scalar.zero
  else deviation values / Scalar.sqrt (Scalar.ofNat values.length)

/-- What the values under a key say in short. -/
structure GroupSummary (κ α : Type) where
  key : κ
  mean : α
  deviation : α
  standardError : α
  count : Nat

/-- The groups with one more value, which joins the first group whose key is the same or opens a
group of its own at the end. -/
def addToGroups (same : κ → κ → Bool) (key : κ) (value : α) :
    List (κ × List α) → List (κ × List α)
  | [] => [(key, [value])]
  | (first, values) :: rest =>
    if same first key then (first, values ++ [value]) :: rest
    else (first, values) :: addToGroups same key value rest

/-- The values under each key, the keys in the order in which they first occur. -/
def groups (same : κ → κ → Bool) (entries : List (κ × α)) : List (κ × List α) :=
  entries.foldl (fun groups (key, value) => addToGroups same key value groups) []

/-- The summary of a group. -/
def GroupSummary.ofValues (key : κ) (values : List α) : GroupSummary κ α :=
  ⟨key, Statistics.mean values, Statistics.deviation values, Statistics.standardError values,
    values.length⟩

/-- The summaries of all groups, sorted by their keys. -/
def summarize (same precedes : κ → κ → Bool) (entries : List (κ × α)) : List (GroupSummary κ α) :=
  ((groups same entries).mergeSort fun a b => precedes a.1 b.1).map fun (key, values) =>
    GroupSummary.ofValues key values

/-- The summaries of groups with integers for keys. -/
def summarizeByNumber (entries : List (Int × α)) : List (GroupSummary Int α) :=
  summarize (· == ·) (· ≤ ·) entries

end NumberConcepts.Statistics
