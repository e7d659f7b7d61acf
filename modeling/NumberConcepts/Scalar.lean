/-!
# Scalars

Priors, likelihoods and statistics are written once over a `Scalar`: a type of
numbers with logarithm, exponential and square root, and with the infinities
and the undefined value that these can produce. `Float` is the instance that
runs.
-/

namespace NumberConcepts

/-- Numbers for weights and probabilities. Comparisons are Boolean, and all of them fail on an
undefined value. -/
class Scalar (α : Type) extends Add α, Sub α, Mul α, Div α, Neg α where
  ofNat : Nat → α
  negInf : α
  log : α → α
  exp : α → α
  sqrt : α → α
  /-- Neither infinite nor undefined. -/
  isFinite : α → Bool
  lt : α → α → Bool
  le : α → α → Bool

namespace Scalar

variable {α : Type} [Scalar α]

/-- The scalar of an integer. -/
def ofInt (n : Int) : α :=
  match n with
  | .ofNat m => ofNat m
  | .negSucc m => -ofNat (m + 1)

/-- Zero. -/
def zero : α := ofNat 0

/-- One. -/
def one : α := ofNat 1

/-- Equality as a comparison: both at most each other. -/
def beq (x y : α) : Bool := le x y && le y x

/-- The sum from left to right, starting at zero. -/
def sum (values : List α) : α := values.foldl (· + ·) zero

/-- The greater of two scalars; the first one unless the second is greater. -/
def max (x y : α) : α := if lt x y then y else x

/-- The lesser of two scalars; the first one unless the second is lesser. -/
def min (x y : α) : α := if lt y x then y else x

end Scalar

instance : Scalar Float where
  ofNat := Float.ofNat
  negInf := -1.0 / 0.0
  log := Float.log
  exp := Float.exp
  sqrt := Float.sqrt
  isFinite := Float.isFinite
  lt x y := x < y
  le x y := x ≤ y

end NumberConcepts
