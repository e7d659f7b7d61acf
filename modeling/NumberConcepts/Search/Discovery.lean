import NumberConcepts.Decimal.Binary64
import NumberConcepts.Fault
import NumberConcepts.Number.Checked
import NumberConcepts.Number.Power
import NumberConcepts.Search.Grammar
/-!
# Parameters read off the examples

A base can only fit if each example is one of its powers, and a step only if it
divides each example. So bases are sought among the roots of one example, and
steps among the divisors of the greatest common divisor.
-/

namespace NumberConcepts.Discovery

/-- An estimate of an integer root. It is exact below `2 ^ 53`; above, it is computed with
doubles. -/
def rootEstimate (degree n : Nat) : Nat :=
  if n < Nat.pow 2 53 then Number.root degree n
  else
    let estimate := (Float.ofNat n).pow (1.0 / Float.ofNat degree)
    (Decimal.Binary64.ofFloat estimate).roundScaled 0

/-- The candidates for a root of a given degree that are one: the estimate and its neighbours. -/
def rootsOfDegree (n degree : Nat) : List Nat :=
  let estimate := rootEstimate degree n
  [estimate - 1, estimate, estimate + 1].filter fun base => 2 ≤ base && Nat.pow base degree == n

/-- The numbers above one with `n` as a power, found degree by degree. -/
def integerRoots (n : Nat) : List Nat :=
  (List.range (n.log2 + 1)).flatMap fun degree => rootsOfDegree n (degree + 1)

/-- The integers without repetition, in increasing order. -/
def sortedDistinct (numbers : List Int) : List Int := numbers.eraseDups.mergeSort (· ≤ ·)

/-- The integer is so large that no double is near it. -/
def exceedsFloats (n : Int) : Bool := decide (Nat.pow 2 1024 - Nat.pow 2 970 ≤ n.toNat)

/-- The bases of the grammar of which every number is a power. Where no number exceeds one, all
bases count. -/
def fittingBases (grammar : Grammar) (target : List Int) : Except Fault (List Int) :=
  match (sortedDistinct target).find? (1 < ·) with
  | none => .ok grammar.powerBases
  | some pivot =>
    if exceedsFloats pivot then .error .overflow
    else
      .ok ((sortedDistinct ((integerRoots pivot.toNat).map Int.ofNat)).filter fun base =>
        grammar.powerBases.contains base && target.all fun n => Number.isPowerOf n base)

/-- The steps of a list that divide a number; a step of zero leaves no remainder to look at. -/
def divisorsAmong (n : Nat) : List Int → Except Fault (List Int)
  | [] => .ok []
  | step :: rest =>
    if step = 0 then .error .zeroModulus
    else (divisorsAmong n rest).map fun found =>
      if (n : Int) % step = 0 then step :: found else found

/-- The steps of the grammar that divide every number. Where all numbers are zero, all steps
count. -/
def fittingSteps (grammar : Grammar) (target : List Int) : Except Fault (List Int) :=
  let divisor := Number.commonDivisor target
  if divisor = 0 then .ok grammar.multiples else divisorsAmong divisor grammar.multiples

/-- Facts read off the examples. -/
structure Constraints where
  least : Int
  greatest : Int
  allEven : Bool
  allOdd : Bool
  divisor : Nat
  bases : List Int
  multiples : List Int

/-- The distance between the least and the greatest example. -/
def Constraints.span (constraints : Constraints) : Int := constraints.greatest - constraints.least

/-- The least and the greatest of some numbers. -/
def bounds : List Int → Except Fault (Int × Int)
  | [] => .error .leastOfNone
  | first :: rest => .ok (rest.foldl min first, rest.foldl max first)

/-- The facts that the examples show. -/
def constraints (grammar : Grammar) (examples : List Int) : Except Fault Constraints := do
  let (least, greatest) ← bounds examples
  let bases ← fittingBases grammar examples
  let multiples ← fittingSteps grammar examples
  return {
    least
    greatest
    allEven := examples.all fun n => n % 2 == 0
    allOdd := examples.all fun n => n % 2 == 1
    divisor := Number.commonDivisor examples
    bases
    multiples }

end NumberConcepts.Discovery
