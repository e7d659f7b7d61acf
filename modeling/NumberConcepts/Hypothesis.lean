import NumberConcepts.Concept.Extension
/-!
# Hypotheses

A hypothesis is a concept together with its written form and its members in a
domain, computed once. `Hypothesis.compose` builds combinations in a canonical
form and drops those that say nothing new. `Sequence.first` cuts lists of them,
and of what is read off them, to their first entries.
-/

namespace NumberConcepts

/-- The first `count` entries; all but the last `-count` when the count is negative. -/
def Sequence.first {α : Type} (count : Int) (entries : List α) : List α :=
  if 0 ≤ count then entries.take count.toNat
  else entries.take (entries.length - count.natAbs)

/-- A concept with what is known of it in the domain `1, …, size`. -/
structure Hypothesis (size : Nat) where
  concept : Concept
  key : String
  members : NatSet
  count : Nat
  key_eq : key = concept.key
  members_eq : members = concept.extension size
  count_eq : count = members.size

namespace Hypothesis

variable {size : Nat}

/-- A concept with its members. -/
def ofConcept (size : Nat) (concept : Concept) : Hypothesis size :=
  let members := concept.extension size
  ⟨concept, concept.key, members, members.size, rfl, rfl, rfl⟩

/-- A terminal with its members. -/
def ofTerminal (size : Nat) (leaf : Terminal) : Hypothesis size := ofConcept size (.terminal leaf)

instance : Inhabited (Hypothesis size) := ⟨ofConcept size default⟩

/-- Every number of the list is a member. -/
def containsAll (hypothesis : Hypothesis size) (numbers : List Int) : Bool :=
  hypothesis.members.containsAll numbers

/-- Two hypotheses under an operation, the one with the lesser written form first. There is no
result when they are the same concept, when the result would be too deep, or when it would be
empty or have the members of either part. -/
def compose (operation : Operation) (a b : Hypothesis size) : Option (Hypothesis size) :=
  if a.concept = b.concept then none
  else
    let left := if b.key < a.key then b else a
    let right := if b.key < a.key then a else b
    let members := operation.apply left.members right.members
    if Concept.maxDepth < 1 + max left.concept.depth right.concept.depth then none
    else if members.isEmpty || members == left.members || members == right.members then none
    else
      some {
        concept := .combine operation left.concept right.concept
        key := operation.name ++ "(" ++ left.key ++ ", " ++ right.key ++ ")"
        members
        count := members.size
        key_eq := by simp [Concept.key, left.key_eq, right.key_eq]
        members_eq := by simp [members, Concept.extension, left.members_eq, right.members_eq]
        count_eq := rfl }

/-- Concepts with their members, without those that have none. -/
def inhabitedOf (size : Nat) (concepts : List Concept) : List (Hypothesis size) :=
  (concepts.map (ofConcept size)).filter fun hypothesis => !hypothesis.members.isEmpty

end Hypothesis

end NumberConcepts
