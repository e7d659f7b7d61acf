import NumberConcepts.Fault
import NumberConcepts.Number.Power
/-!
# Facts about any integers

Primality, multiples, last decimal digits and common divisors are told of all
integers. Primality is decided by trial division: small and even numbers are
settled first, and what is left is divided by the odd numbers whose square does
not exceed it, which suffices because the smaller of two factors has such a
square. Asked of any integers, facts about squares, powers and multiples may be
faults instead.
-/

namespace NumberConcepts.Number

/-- None of `divisor, divisor + 2, divisor + 4, …` whose square is at most `n` divides `n`. -/
def hasNoDivisorFrom (n divisor : Nat) : Bool :=
  if divisor * divisor ≤ n then
    n % divisor != 0 && hasNoDivisorFrom n (divisor + 2)
  else
    true
termination_by n + 1 - divisor
decreasing_by
  rename_i withinRoot
  have : divisor ≤ n := by
    cases divisor with
    | zero => omega
    | succ smaller => exact Nat.le_trans (Nat.le_mul_of_pos_left _ (by omega)) withinRoot
  omega

/-- Primality of an integer; zero, one and negative numbers are not prime. -/
def isPrime (n : Int) : Bool :=
  decide (2 ≤ n) && (decide (n < 4) || (n % 2 != 0 && hasNoDivisorFrom n.toNat 3))

/-- The multiples `step, 2 * step, 3 * step, …` up to `limit`. With a negative step they run
downward and stay above `limit + 1`. A step of zero has none. -/
def multiplesUpTo (step limit : Int) : List Int :=
  let count := if 0 < step then limit / step else if step < 0 then (-limit - 2) / -step else 0
  (List.range count.toNat).map fun index => step * (index + 1 : Nat)

/-- The last decimal digit of `n` is `digit`. The digit of a negative number counts upward from
the multiple of ten below it. -/
def endsWith (n digit : Int) : Bool :=
  n % 10 == digit

/-- The greatest common divisor of all numbers, zero when there are none. -/
def commonDivisor (numbers : List Int) : Nat :=
  numbers.foldl (fun divisor n => Nat.gcd divisor n.natAbs) 0

/-- The integer is a square; a negative one has no root at all. -/
def checkSquare (n : Int) : Except Fault Bool :=
  if n < 0 then .error .negativeRoot else .ok (isSquare n.toNat)

/-- The integer is a power of a base; a number above one has no remainder by zero. -/
def checkPowerOf (n base : Int) : Except Fault Bool :=
  if 1 < n ∧ base = 0 then .error .zeroModulus else .ok (isPowerOf n base)

/-- The multiples of a step up to a limit. -/
def checkMultiples (step limit : Int) : Except Fault (List Int) :=
  if step = 0 then .error .zeroStep else .ok (multiplesUpTo step limit)

end NumberConcepts.Number
