/-!
# Finite sets of natural numbers

A `NatSet` packs a finite set into the bits of one natural number: `n` is a
member when bit `n` is set. Two sets with the same members are the same value,
and union, intersection and difference are single operations on the bits.
-/

namespace NumberConcepts

/-- A finite set of natural numbers. -/
structure NatSet where
  /-- The sum of `2 ^ n` over the members `n`. -/
  bits : Nat
deriving DecidableEq, Hashable, Repr

namespace NatSet

instance : Membership Nat NatSet where
  mem set n := set.bits.testBit n = true

instance (n : Nat) (set : NatSet) : Decidable (n ∈ set) :=
  inferInstanceAs (Decidable (set.bits.testBit n = true))

instance : EmptyCollection NatSet := ⟨⟨0⟩⟩

instance : Inhabited NatSet := ⟨∅⟩

/-- The set has no member. -/
def isEmpty (set : NatSet) : Bool := set.bits == 0

instance : Union NatSet := ⟨fun a b => ⟨a.bits ||| b.bits⟩⟩

instance : Inter NatSet := ⟨fun a b => ⟨a.bits &&& b.bits⟩⟩

instance : SDiff NatSet := ⟨fun a b => ⟨a.bits ^^^ (a.bits &&& b.bits)⟩⟩

instance : HasSubset NatSet := ⟨fun a b => a ∩ b = a⟩

instance (a b : NatSet) : Decidable (a ⊆ b) := inferInstanceAs (Decidable (a ∩ b = a))

/-- The set with `n` as a member. -/
def insert (set : NatSet) (n : Nat) : NatSet := ⟨set.bits ||| 1 <<< n⟩

/-- The members of a list as a set. -/
def ofList (numbers : List Nat) : NatSet := numbers.foldl insert ∅

/-- The numbers from `lo` to `hi`, both included. -/
def interval (lo hi : Nat) : NatSet := ⟨(Nat.pow 2 (hi + 1 - lo) - 1) <<< lo⟩

/-- The numbers below `bound` that satisfy `accepts`, as bits. -/
def bitsBelow (accepts : Nat → Bool) : Nat → Nat
  | 0 => 0
  | bound + 1 => bitsBelow accepts bound ||| (if accepts bound then 1 <<< bound else 0)

/-- The numbers from 1 to `size` that satisfy `accepts`. -/
def filterUpTo (size : Nat) (accepts : Nat → Bool) : NatSet :=
  ⟨bitsBelow (fun n => 1 ≤ n && accepts n) (size + 1)⟩

/-- Bits given from the lowest upward, as a number. -/
def packBits : List Bool → Nat
  | [] => 0
  | bit :: rest => 2 * packBits rest + bit.toNat

/-- The positions in a list at which `accepts` holds. -/
def positions {α : Type} (accepts : α → Bool) (items : List α) : NatSet :=
  ⟨packBits (items.map accepts)⟩

/-- The members in increasing order. -/
def toList (set : NatSet) : List Nat :=
  (List.range (set.bits.log2 + 1)).filter fun n => set.bits.testBit n

/-- The number of members. -/
def size (set : NatSet) : Nat := set.toList.length

/-- The integer `n` is a member; negative integers never are. -/
def containsInt (set : NatSet) (n : Int) : Bool :=
  decide (0 ≤ n) && set.bits.testBit n.toNat

/-- Every integer of the list is a member. -/
def containsAll (set : NatSet) (numbers : List Int) : Bool :=
  numbers.all set.containsInt

end NatSet

end NumberConcepts
