/-!
# Powers and integer roots

`powersUpTo` lists powers by multiplying upward and `isPowerOf` recognises one
by dividing downward. `root` is the integer root of any degree, found digit by
digit in binary.
-/

namespace NumberConcepts.Number

/-- At most `steps` successive multiples of `value` by `base`, up to the first that exceeds
`limit`. -/
def powersFrom (base limit : Int) : Nat → Int → List Int
  | 0, _ => []
  | steps + 1, value =>
    if value ≤ limit then value :: powersFrom base limit steps (value * base) else []

/-- The powers `1, base, base², …` up to the first that exceeds `limit`. A base of absolute
value at least two exceeds the limit within the steps allowed here; the other bases have no
power beyond the first two. -/
def powersUpTo (base limit : Int) : List Int :=
  powersFrom base limit (2 * limit.toNat.log2 + 3) 1

/-- `n` is one after all factors `base` are divided out of it. -/
def isNatPowerOf (n base : Nat) : Bool :=
  if _divisible : 1 < n ∧ 1 < base ∧ n % base = 0 then
    isNatPowerOf (n / base) base
  else
    n == 1
termination_by n
decreasing_by exact Nat.div_lt_self (by omega) _divisible.2.1

/-- `n` is a power of `base`. Only bases above one have powers other than one. -/
def isPowerOf (n base : Int) : Bool :=
  if 1 < n then isNatPowerOf n.toNat base.toNat else n == 1

/-- The greatest number whose `degree`-th power is at most `n`, for a positive degree. The root
of `n / 2 ^ degree` is half of it, rounded down. -/
def root (degree n : Nat) : Nat :=
  if shrinks : 0 < degree ∧ 0 < n then
    let half := 2 * root degree (n / Nat.pow 2 degree)
    if Nat.pow (half + 1) degree ≤ n then half + 1 else half
  else
    0
termination_by n
decreasing_by
  exact Nat.div_lt_self shrinks.2 (Nat.one_lt_two_pow (by omega))

/-- `n` is the square of an integer. -/
def isSquare (n : Nat) : Bool :=
  let side := root 2 n
  side * side == n

end NumberConcepts.Number
