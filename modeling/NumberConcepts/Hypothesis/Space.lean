import NumberConcepts.Domain
import NumberConcepts.Hypothesis.Index
/-!
# Hypothesis spaces

A hypothesis space is a domain with hypotheses in a fixed order and their index.
The base space holds the usual rules first and then all intervals of the domain,
by lower and then by upper bound.
-/

namespace NumberConcepts

/-- A domain with hypotheses and their index. -/
structure HypothesisSpace where
  domain : Domain
  /-- The hypotheses in order; a hypothesis is known by its position. -/
  hypotheses : Array (Hypothesis domain.size)
  index : Index

namespace HypothesisSpace

/-- The rules of the base space. -/
def rules : List Concept :=
  let multiples := (List.range 11).map fun offset => Terminal.multipleOf (offset + 2)
  let powers := [2, 3, 4].map Terminal.powerOf
  let properties := [Primitive.square, .prime, .odd, .even].map Terminal.primitive
  let endings := (List.range 10).map Terminal.endsIn
  (multiples ++ powers ++ properties ++ endings).map .terminal

/-- The intervals of the base space. -/
def intervals (domain : Domain) : List Concept :=
  domain.numbers.flatMap fun low =>
    (List.range (domain.size + 1 - low)).map fun width => .terminal (.interval low (low + width))

/-- The space of given concepts, without those that have no members, indexed by the given
numbers. -/
def ofConcepts (domain : Domain) (concepts : List Concept) (indexed : List Int) :
    HypothesisSpace :=
  let hypotheses := Hypothesis.inhabitedOf domain.size concepts
  { domain, hypotheses := hypotheses.toArray, index := Index.build hypotheses indexed }

/-- The numbers of a domain as integers. -/
def indexedNumbers (domain : Domain) : List Int := domain.numbers.map Int.ofNat

/-- The base space of a domain. -/
def base (domain : Domain) : HypothesisSpace :=
  ofConcepts domain (rules ++ intervals domain) (indexedNumbers domain)

instance : Inhabited HypothesisSpace := ⟨ofConcepts default [] []⟩

variable (space : HypothesisSpace)

/-- The size of the domain. -/
abbrev size : Nat := space.domain.size

/-- The number of hypotheses. -/
def count : Nat := space.hypotheses.size

/-- The hypothesis at a position; negative positions count from the end. -/
def hypothesis (position : Int) : Except Fault (Hypothesis space.domain.size) :=
  let fromStart := if position < 0 then position + space.hypotheses.size else position
  if fromStart < 0 then .error .noSuchHypothesis
  else
    match space.hypotheses[fromStart.toNat]? with
    | some found => .ok found
    | none => .error .noSuchHypothesis

/-- The hypotheses at the positions of a set, in increasing order. -/
def select (positions : NatSet) : List (Hypothesis space.domain.size) :=
  positions.toList.filterMap fun position => space.hypotheses[position]?

/-- The first hypothesis with a given written form. -/
def find? (key : String) : Option (Hypothesis space.domain.size) :=
  space.hypotheses.find? fun candidate => candidate.key == key

/-- The hypotheses that contain all numbers, found by looking at each hypothesis. -/
def containingAll (numbers : List Int) : List (Hypothesis space.domain.size) :=
  space.hypotheses.toList.filter fun candidate => candidate.containsAll numbers

/-- The positions of the hypotheses that contain all numbers, found through the index. -/
def consistent (numbers : List Nat) : NatSet := space.index.consistent (numbers.map Int.ofNat)

end HypothesisSpace

end NumberConcepts
