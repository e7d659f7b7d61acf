import NumberConcepts.Concept.Terminal
/-!
# Concepts

A concept is a terminal, or the union or the intersection of two concepts. Its
written form is its name everywhere: it orders the parts of a combination,
settles ties between concepts and stands in all reports.
-/

namespace NumberConcepts

/-- A way to combine two sets. -/
inductive Operation where
  | union
  | intersect
deriving DecidableEq, Hashable, Repr, Inhabited

namespace Operation

/-- Both operations, union first. -/
def all : List Operation := [union, intersect]

/-- The name of the operation. -/
def name : Operation → String
  | union => "union"
  | intersect => "intersect"

/-- The operation with a given name. -/
def ofName? (text : String) : Option Operation :=
  all.find? fun operation => operation.name == text

end Operation

/-- The kinds of nodes that a concept may have; a prior gives each kind a weight. -/
inductive Tag where
  /-- A property without a parameter; each property is a kind of its own. -/
  | primitive (property : Primitive)
  | powerOf
  | multipleOf
  | interval
  | endsIn
  /-- A union or an intersection; each operation is a kind of its own. -/
  | combination (operation : Operation)
deriving DecidableEq, Repr, Inhabited

namespace Tag

/-- All kinds in their fixed order, terminals first. -/
def all : List Tag :=
  Primitive.all.map primitive ++ [powerOf, multipleOf, interval, endsIn] ++
    Operation.all.map combination

/-- The name of the kind. -/
def name : Tag → String
  | primitive property => property.name
  | powerOf => "power-of"
  | multipleOf => "multiple-of"
  | interval => "interval"
  | endsIn => "ends-in"
  | combination operation => operation.name

/-- The kind with a given name. -/
def ofName? (text : String) : Option Tag := all.find? fun tag => tag.name == text

end Tag

/-- The kind of a terminal. -/
def Terminal.tag : Terminal → Tag
  | primitive property => .primitive property
  | powerOf _ => .powerOf
  | multipleOf _ => .multipleOf
  | interval _ _ => .interval
  | endsIn _ => .endsIn

/-- A set of numbers described by a tree. -/
inductive Concept where
  | terminal (leaf : Terminal)
  | combine (operation : Operation) (left right : Concept)
deriving DecidableEq, Hashable, Repr, Inhabited

namespace Concept

/-- The greatest depth of a concept. -/
def maxDepth : Nat := 3

/-- The kind of the root. -/
def tag : Concept → Tag
  | terminal leaf => leaf.tag
  | combine operation _ _ => .combination operation

/-- The number of operations above the deepest terminal. -/
def depth : Concept → Nat
  | terminal _ => 0
  | combine _ left right => 1 + max left.depth right.depth

/-- The written form. -/
def key : Concept → String
  | terminal leaf => leaf.key
  | combine operation left right =>
    operation.name ++ "(" ++ left.key ++ ", " ++ right.key ++ ")"

/-- The concept and all its parts, a node before its parts and left before right. -/
def subconcepts : Concept → List Concept
  | terminal leaf => [terminal leaf]
  | combine operation left right =>
    combine operation left right :: (left.subconcepts ++ right.subconcepts)

/-- The kinds of all nodes, a node before its parts and left before right. -/
def tags : Concept → List Tag
  | terminal leaf => [leaf.tag]
  | combine operation left right => .combination operation :: (left.tags ++ right.tags)

/-- The terminals from left to right. -/
def leaves : Concept → List Terminal
  | terminal leaf => [leaf]
  | combine _ left right => left.leaves ++ right.leaves

/-- The concept has no parts. -/
def isTerminal : Concept → Bool
  | terminal _ => true
  | combine _ _ _ => false

/-- The concept is an interval. -/
def isInterval : Concept → Bool
  | terminal leaf => leaf.isInterval
  | combine _ _ _ => false

/-- Every terminal is legal and the tree is not too deep. -/
def Legal (concept : Concept) : Prop :=
  (∀ leaf ∈ concept.leaves, leaf.Legal) ∧ concept.depth ≤ maxDepth

instance : DecidablePred Legal := fun _ => inferInstanceAs (Decidable (_ ∧ _))

end Concept

end NumberConcepts
