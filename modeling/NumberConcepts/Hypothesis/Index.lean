import NumberConcepts.Hypothesis
/-!
# Consistency index

The index tells for every number which hypotheses contain it, by their
positions. Filtering by an example is then one intersection, and examples can be
taken one at a time.
-/

namespace NumberConcepts

/-- For each number the positions of the hypotheses that contain it. -/
structure Index where
  byNumber : List (Int × NatSet)
  all : NatSet
deriving Inhabited

namespace Index

variable {size : Nat}

/-- The index of hypotheses for the given numbers. -/
def build (hypotheses : List (Hypothesis size)) (numbers : List Int) : Index where
  byNumber := numbers.map fun n =>
    (n, NatSet.positions (fun hypothesis => hypothesis.members.containsInt n) hypotheses)
  all := NatSet.positions (fun _ => true) hypotheses

/-- The positions of the hypotheses that contain a number; none for a number that is not
indexed. -/
def containing (index : Index) (n : Int) : NatSet := (index.byNumber.lookup n).getD ∅

/-- What is left of a set of positions after one more example. -/
def retain (index : Index) (current : NatSet) (number : Int) : NatSet :=
  current ∩ index.containing number

/-- The set of positions and what is left of it after each further example. -/
def stagesFrom (index : Index) (current : NatSet) : List Int → List NatSet
  | [] => [current]
  | number :: rest => current :: index.stagesFrom (index.retain current number) rest

/-- The positions consistent with each initial part of the examples, the empty part first. -/
def stages (index : Index) (examples : List Int) : List NatSet :=
  index.stagesFrom index.all examples

/-- What is left of a set of positions after all examples; the rest of them does not matter once
nothing is left. -/
def narrow (index : Index) (current : NatSet) : List Int → NatSet
  | [] => current
  | number :: rest =>
    let next := index.retain current number
    if next.isEmpty then next else index.narrow next rest

/-- The positions of the hypotheses that contain all examples. -/
def consistent (index : Index) (examples : List Int) : NatSet := index.narrow index.all examples

end Index

end NumberConcepts
