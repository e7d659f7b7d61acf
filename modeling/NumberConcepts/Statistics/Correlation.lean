import NumberConcepts.Fault
import NumberConcepts.Statistics.Samples
/-!
# Correlation

The linear correlation of two samples and that of their ranks, each with the
probability of a correlation at least as strong between unrelated samples. For
samples of a size `n` that probability comes from the distribution of Student
with `n - 2` degrees of freedom, which has a closed form.
-/

namespace NumberConcepts.Statistics

/-- A correlation with its probability between unrelated samples. -/
structure Correlation where
  coefficient : Float
  chance : Float

/-- The correlation of values and that of their ranks. -/
structure Correlations where
  linear : Correlation
  ranked : Correlation

/-- The correlations where none are defined. -/
def Correlations.none : Correlations := ⟨⟨0.0, 1.0⟩, ⟨0.0, 1.0⟩⟩

/-- The value that is not a number. -/
def undefinedValue : Float := 0.0 / 0.0

/-- The greater and the lesser of a bound and a value: at least `-1` and at most `1`. -/
def clampUnit (x : Float) : Float := if 1.0 < x then 1.0 else if x < -1.0 then -1.0 else x

/-- The linear correlation coefficient of two samples of one size. -/
def coefficient (x y : List Float) : Float :=
  let centerX := mean x
  let centerY := mean y
  let products := List.zipWith (fun a b => (a - centerX) * (b - centerY)) x y
  clampUnit (Scalar.sum products / (squaredDistances x).sqrt / (squaredDistances y).sqrt)

/-- The sum of a series whose first term is one and each further term the last one times
`numerator / (numerator + 1) * factor`, where the numerator grows by two. -/
def series (factor : Float) : Nat → Float → Float → Float
  | 0, _, _ => 0.0
  | terms + 1, term, numerator =>
    term + series factor terms (term * (numerator / (numerator + 1.0)) * factor) (numerator + 2.0)

/-- The probability that the distribution of Student with some degrees of freedom gives to a
correlation at least as strong as `r`, in either direction. -/
def chanceOf (r : Float) (freedom : Nat) : Float :=
  let sine := r.abs
  let cosine := (1.0 - r * r).sqrt
  let inside :=
    if freedom % 2 = 1 then
      let tail := if freedom = 1 then 0.0
        else sine * cosine * series (cosine * cosine) ((freedom - 1) / 2) 1.0 2.0
      2.0 / Float.acos (-1.0) * (Float.asin sine + tail)
    else
      sine * series (cosine * cosine) (freedom / 2) 1.0 1.0
  let chance := 1.0 - inside
  if chance < 0.0 then 0.0 else chance

/-- The linear correlation of two samples with its probability. -/
def correlation (x y : List Float) : Correlation :=
  let r := coefficient x y
  ⟨r, if r.isNaN then undefinedValue else chanceOf r (x.length - 2)⟩

/-- The rank of a value in a sample; equal values share the mean of their ranks. -/
def rankIn (sample : List Float) (value : Float) : Float :=
  let less := (sample.filter (· < value)).length
  let equal := (sample.filter (· == value)).length
  Float.ofNat less + (Float.ofNat equal + 1.0) / 2.0

/-- The ranks of a sample. -/
def ranks (sample : List Float) : List Float := sample.map (rankIn sample)

/-- All values of a sample are equal. -/
def isConstant (sample : List Float) : Bool :=
  match sample with
  | [] => true
  | first :: rest => rest.all (· == first)

/-- The standard deviation of a sample is zero. -/
def hasNoSpread (sample : List Float) : Bool :=
  (squaredDistances sample / Float.ofNat sample.length).sqrt == 0.0

/-- The correlations of two samples. There are none between fewer than three values or where a
sample has no spread. -/
def correlations (x y : List Float) : Except Fault Correlations :=
  if x.length < 3 || y.length < 3 || hasNoSpread x || hasNoSpread y then .ok .none
  else if x.length ≠ y.length then .error .lengthsDiffer
  else if isConstant x || isConstant y || (x ++ y).any Float.isNaN then
    .ok ⟨⟨undefinedValue, undefinedValue⟩, ⟨undefinedValue, undefinedValue⟩⟩
  else
    .ok ⟨correlation x y, correlation (ranks x) (ranks y)⟩

end NumberConcepts.Statistics
