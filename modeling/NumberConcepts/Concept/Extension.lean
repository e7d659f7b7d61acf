import NumberConcepts.Concept.Tree
import NumberConcepts.NatSet
import NumberConcepts.Number.Checked
import NumberConcepts.Number.Power
/-!
# Extensions

The extension of a concept is the set of numbers of a domain `1, …, size` that
belong to it. `Concept.Holds` says for one number what it is to belong;
`Concept.extension` generates the whole set, each family in its own way.
-/

namespace NumberConcepts

/-- A number has the property. -/
def Primitive.accepts (property : Primitive) (n : Nat) : Bool :=
  match property with
  | .prime => Number.isPrime n
  | .square => Number.isSquare n
  | .even => n % 2 == 0
  | .odd => n % 2 == 1

namespace Terminal

/-- A number belongs to the terminal. -/
def Holds (n : Nat) : Terminal → Prop
  | primitive .prime => 2 ≤ n ∧ ∀ divisor, divisor ∣ n → divisor = 1 ∨ divisor = n
  | primitive .square => ∃ side, side * side = n
  | primitive .even => 2 ∣ n
  | primitive .odd => ¬ 2 ∣ n
  | powerOf base => ∃ exponent, Nat.pow base exponent = n
  | multipleOf step => step ∣ n
  | interval low high => low ≤ n ∧ n ≤ high
  | endsIn digit => n % 10 = digit

/-- The numbers from 1 to `size` that belong to the terminal. -/
def extension (size : Nat) : Terminal → NatSet
  | primitive property => NatSet.filterUpTo size property.accepts
  | powerOf base => NatSet.ofList ((Number.powersUpTo base size).map Int.toNat)
  | multipleOf step => NatSet.ofList ((Number.multiplesUpTo step size).map Int.toNat)
  | interval low high => NatSet.interval low (min high size)
  | endsIn digit => NatSet.filterUpTo size fun n => Number.endsWith n digit

end Terminal

/-- The operation on two sets. -/
def Operation.apply : Operation → NatSet → NatSet → NatSet
  | union, a, b => a ∪ b
  | intersect, a, b => a ∩ b

namespace Concept

/-- A number belongs to the concept. -/
def Holds (n : Nat) : Concept → Prop
  | terminal leaf => leaf.Holds n
  | combine .union left right => left.Holds n ∨ right.Holds n
  | combine .intersect left right => left.Holds n ∧ right.Holds n

/-- The numbers from 1 to `size` that belong to the concept. -/
def extension (size : Nat) : Concept → NatSet
  | terminal leaf => leaf.extension size
  | combine operation left right => operation.apply (left.extension size) (right.extension size)

end Concept

end NumberConcepts
