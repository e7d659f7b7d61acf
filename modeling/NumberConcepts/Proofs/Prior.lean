import Mathlib.Tactic.NormNum
import NumberConcepts.Hypothesis
import NumberConcepts.Proofs.Belief.LogWeights
import NumberConcepts.Proofs.Prior.Walk
/-!
# Priors without rounding

A prior that passes the checks of the settings and has finite weights gives
every concept a logarithmic weight without a fault: `logPrior_eq_ok`. The weight
itself is the product of the shares of all nodes and of the factor for the size.
-/

namespace NumberConcepts

/-- What an exact prior is like that passes the checks of the settings and has finite weights. -/
structure Prior.FinitelyWeighted (prior : Prior Exact) : Prop where
  weights : ∀ entry ∈ prior.weights, ∃ weight : ℝ, 0 ≤ weight ∧ entry.2 = .real weight
  defaultWeight : ∃ weight : ℝ, 0 ≤ weight ∧ prior.defaultWeight = .real weight
  divisor : ∀ value, prior.divisor = .fixed value → Scalar.le value Scalar.zero = false
  preferredSize : ∀ preference, prior.sizePreference = some preference →
    Scalar.le preference.preferredSize Scalar.zero = false
  spread : ∀ preference, prior.sizePreference = some preference →
    Scalar.le preference.spread Scalar.zero = false

/-- Every kind of node is listed. -/
theorem Tag.mem_all (tag : Tag) : tag ∈ all := by
  cases tag with
  | primitive property => cases property <;> decide
  | combination operation => cases operation <;> decide
  | powerOf | multipleOf | interval | endsIn => decide

namespace Exact

/-- The number that a scalar is; zero for a scalar that is not finite. -/
def value : Exact → ℝ
  | real x => x
  | negInf | posInf | undefined => 0

/-- The scalar is a number that is not negative, or undefined. -/
def IsWeight : Exact → Prop
  | real x => 0 ≤ x
  | undefined => True
  | negInf | posInf => False

theorem IsWeight.add {a b : Exact} (first : a.IsWeight) (second : b.IsWeight) :
    (a + b).IsWeight := by
  cases a with
  | real x =>
      cases b with
      | real y => exact add_nonneg first second
      | undefined => trivial
      | negInf | posInf => cases second
  | undefined => cases b <;> trivial
  | negInf | posInf => cases first

theorem isWeight_sum {values : List Exact} (weights : ∀ value ∈ values, value.IsWeight) :
    (Scalar.sum values).IsWeight := by
  have start : (Scalar.zero : Exact).IsWeight := by rw [zero_eq]; exact le_refl (0 : ℝ)
  exact List.foldlRecOn values (· + ·) start fun _ isWeight value listed =>
    isWeight.add (weights value listed)

/-- A weight stays one after a division by what is not below zero. -/
theorem isWeight_real_div {x : ℝ} (nonnegative : 0 ≤ x) {divisor : Exact}
    (notBelow : divisor.NotBelow) : (real x / divisor).IsWeight := by
  cases divisor with
  | real y =>
      by_cases zero : y = 0
      · rw [zero, real_div_zero]
        trivial
      · rw [real_div_real zero]
        exact div_nonneg nonnegative notBelow
  | posInf => exact le_refl (0 : ℝ)
  | undefined => trivial
  | negInf => cases notBelow

theorem IsWeight.notBelow {a : Exact} (isWeight : a.IsWeight) : a.NotBelow := by
  cases a with
  | real x => exact isWeight
  | undefined => trivial
  | negInf | posInf => cases isWeight

/-- A weight that is zero or less is zero. -/
theorem IsWeight.eq_zero {a : Exact} (isWeight : a.IsWeight)
    (weightless : Scalar.le a Scalar.zero = true) : a = real 0 :=
  isWeight.notBelow.le_zero_iff.1 weightless

/-- A weight is its number, or it is undefined. -/
theorem IsWeight.eq_real {a : Exact} (isWeight : a.IsWeight) (known : a ≠ undefined) :
    a = real a.value := by
  cases a with
  | real x => rfl
  | undefined => exact absurd rfl known
  | negInf | posInf => cases isWeight

theorem IsWeight.value_nonneg {a : Exact} (isWeight : a.IsWeight) : 0 ≤ a.value := by
  cases a with
  | real x => exact isWeight
  | negInf | posInf | undefined => exact le_refl _

/-- The quotient of two weights is that of their numbers; without a quotient it counts as zero. -/
theorem value_div {a b : Exact} (first : a.IsWeight) (second : b.IsWeight) :
    (a / b).value = a.value / b.value := by
  cases a with
  | negInf | posInf => cases first
  | undefined =>
      have noQuotient : undefined / b = undefined := by cases b <;> rfl
      rw [noQuotient, value, zero_div]
  | real x =>
      cases b with
      | negInf | posInf => cases second
      | undefined => exact (div_zero x).symm
      | real y =>
          by_cases zero : y = 0
          · rw [zero, real_div_zero, value, value, value, div_zero]
          · rw [real_div_real zero, value, value, value]

/-- The share of a positive number in a positive total has a logarithm. -/
theorem checkedLog_real_div_real {x y : ℝ} (positive : 0 < x) (positive' : 0 < y) :
    Scalar.checkedLog (real x / real y) = .ok (real (Real.log (x / y))) := by
  have share : 0 < x / y := div_pos positive positive'
  rw [real_div_real positive'.ne', Scalar.checkedLog, zero_eq, le_real,
    decide_eq_false share.not_ge, log_real share]
  rfl

/-- The quotient of two weights that are not zero has a logarithm, and that has the quotient as its
weight. -/
theorem checkedLog_div {a b : Exact} (first : a.IsWeight) (second : b.IsWeight)
    (positive : Scalar.le a Scalar.zero = false) (positive' : Scalar.le b Scalar.zero = false) :
    Scalar.checkedLog (a / b) = .ok (Scalar.log (a / b)) ∧
      (Scalar.log (a / b)).weight = (a / b).value := by
  have unknown : a / b = undefined → Scalar.checkedLog (a / b) = .ok (Scalar.log (a / b)) ∧
      (Scalar.log (a / b)).weight = (a / b).value := by
    intro same
    rw [same]
    exact ⟨rfl, rfl⟩
  cases a with
  | negInf | posInf => cases first
  | undefined => exact unknown (by cases b <;> rfl)
  | real x =>
      cases b with
      | negInf | posInf => cases second
      | undefined => exact unknown rfl
      | real y =>
          simp only [zero_eq, le_real, decide_eq_false_iff_not, not_le] at positive positive'
          have quotient : 0 < x / y := div_pos positive positive'
          rw [checkedLog_real_div_real positive positive', real_div_real positive'.ne',
            log_real quotient, weight_real, Real.exp_log quotient]
          exact ⟨rfl, rfl⟩

end Exact

/-- The divisor of intervals is not below zero when a fixed one is not. -/
theorem IntervalDivisor.notBelow_value (divisor : IntervalDivisor Exact)
    (positive : ∀ value, divisor = .fixed value → Scalar.le value Scalar.zero = false)
    (size : Nat) : (divisor.value size).NotBelow := by
  cases divisor with
  | fixed value => exact Exact.notBelow_of_not_le (positive value rfl)
  | exact => exact Nat.cast_nonneg (size * (size + 1) / 2)

namespace SizePreference

/-- The factor for the number of members. -/
noncomputable def factor (preference : SizePreference Exact) (count : Nat) : ℝ :=
  match preference.logWeight count with
  | .ok logarithm => logarithm.weight
  | .error _ => 0

/-- Without rounding the square of a spread that is not zero or less is not zero. -/
theorem doubledSquare_ne_zero {preference : SizePreference Exact}
    (spread : Scalar.le preference.spread Scalar.zero = false) :
    Scalar.beq preference.doubledSquare Scalar.zero = false := by
  rw [doubledSquare, Scalar.beq, Bool.and_eq_false_iff, Exact.zero_eq]
  rw [Exact.zero_eq] at spread
  left
  cases isSpread : preference.spread with
  | real x =>
      rw [isSpread, Exact.le_real, decide_eq_false_iff_not, not_le] at spread
      have square : 0 < 2 * x * x := by positivity
      simpa using square
  | posInf =>
      change Exact.le (Exact.mul (Exact.mul (.real (2 : Nat)) .posInf) .posInf) (.real 0) = false
      simp [Exact.mul, Exact.infinity, Exact.direction, Exact.le]
  | undefined =>
      change Exact.le (Exact.mul (Exact.mul (.real (2 : Nat)) .undefined) .undefined) (.real 0) = false
      simp [Exact.mul, Exact.infinity, Exact.direction, Exact.le]
  | negInf =>
      rw [isSpread] at spread
      cases spread

/-- With a spread that is not zero or less the factor has a logarithm. -/
theorem logWeight_eq_ok {preference : SizePreference Exact}
    (spread : Scalar.le preference.spread Scalar.zero = false) (count : Nat) :
    ∃ logarithm, preference.logWeight count = .ok logarithm ∧
      logarithm.weight = preference.factor count := by
  rw [factor, logWeight_eq, doubledSquare_ne_zero spread]
  exact ⟨_, rfl, rfl⟩

end SizePreference

namespace Prior

/-- The share of a kind of node in the total weight. -/
noncomputable def share (prior : Prior Exact) (size : Nat) (tag : Tag) : ℝ :=
  (prior.tagWeight size tag / prior.totalWeight size).value

/-- The factor for the number of members; one for a prior that prefers no size. -/
noncomputable def sizeFactor (prior : Prior Exact) (count : Nat) : ℝ :=
  match prior.sizePreference with
  | some preference => preference.factor count
  | none => 1

/-- The weight of a hypothesis: the shares of all nodes of its concept and the factor for the
number of its members, multiplied. -/
noncomputable def weightOf {size : Nat} (prior : Prior Exact) (hypothesis : Hypothesis size) : ℝ :=
  (hypothesis.concept.tags.map (prior.share size)).prod * prior.sizeFactor hypothesis.count

variable {prior : Prior Exact} {size : Nat}

/-- What all weights are like that are given, and the one of all other kinds, each weight is. -/
theorem lookup_satisfies {α : Type} (prior : Prior α) (holds : α → Prop)
    (weights : ∀ entry ∈ prior.weights, holds entry.2) (defaultWeight : holds prior.defaultWeight)
    (tag : Tag) : holds ((prior.weights.lookup tag).getD prior.defaultWeight) := by
  cases found : prior.weights.lookup tag with
  | none => exact defaultWeight
  | some weight =>
      obtain ⟨before, after, split⟩ := List.lookup_eq_some_iff.1 found
      exact weights (tag, weight) (by simp [split])

/-- Where all kinds of nodes have numbers as weights, the total is the sum of the numbers. -/
theorem totalWeight_eq_real (numbers : ∀ tag,
    prior.tagWeight size tag = .real (prior.tagWeight size tag).value) :
    prior.totalWeight size =
      .real (Tag.all.map fun tag => (prior.tagWeight size tag).value).sum := by
  rw [totalWeight, ← Exact.sum_map_real, List.map_map]
  exact congrArg Scalar.sum (List.map_congr_left fun tag _ => numbers tag)

namespace FinitelyWeighted

/-- Before any division every kind of node has a number as weight. -/
theorem exists_weight (finite : prior.FinitelyWeighted) (tag : Tag) :
    ∃ x : ℝ, 0 ≤ x ∧ (prior.weights.lookup tag).getD prior.defaultWeight = .real x :=
  prior.lookup_satisfies (fun weight => ∃ x : ℝ, 0 ≤ x ∧ weight = .real x) finite.weights
    finite.defaultWeight tag

/-- Kinds of nodes have weights. -/
theorem isWeight_tagWeight (finite : prior.FinitelyWeighted) (tag : Tag) :
    (prior.tagWeight size tag).IsWeight := by
  obtain ⟨x, nonnegative, isReal⟩ := finite.exists_weight tag
  simp only [tagWeight, isReal]
  split
  · exact Exact.isWeight_real_div nonnegative (prior.divisor.notBelow_value finite.divisor size)
  · exact nonnegative

/-- Only the weight of intervals, which is divided, may be no number. -/
theorem tagWeight_ne_undefined (finite : prior.FinitelyWeighted) {tag : Tag}
    (different : tag ≠ .interval) : prior.tagWeight size tag ≠ .undefined := by
  obtain ⟨x, _, isReal⟩ := finite.exists_weight tag
  rw [tagWeight, if_neg different, isReal]
  exact nofun

theorem isWeight_totalWeight (finite : prior.FinitelyWeighted) :
    (prior.totalWeight size).IsWeight := by
  apply Exact.isWeight_sum
  rw [List.forall_mem_map]
  exact fun tag _ => finite.isWeight_tagWeight tag

/-- The share is the quotient of the two numbers, and zero without a total. -/
theorem share_eq (finite : prior.FinitelyWeighted) (size : Nat) (tag : Tag) :
    prior.share size tag = (prior.tagWeight size tag).value / (prior.totalWeight size).value :=
  Exact.value_div (finite.isWeight_tagWeight tag) finite.isWeight_totalWeight

/-- Logarithms of shares are added without a fault; a kind without weight leaves none. -/
theorem logShares_eq_ok (finite : prior.FinitelyWeighted)
    (some : Scalar.le (prior.totalWeight size) Scalar.zero = false) (logarithm : Exact)
    (tags : List Tag) :
    ∃ result, prior.logShares size (prior.totalWeight size) logarithm tags = .ok result ∧
      (result.getD Scalar.negInf).weight =
        logarithm.weight * (tags.map (prior.share size)).prod := by
  induction tags generalizing logarithm with
  | nil => exact ⟨_, rfl, by simp⟩
  | cons tag rest inductionHypothesis =>
      rw [List.map_cons, List.prod_cons, logShares]
      cases weightless : Scalar.le (prior.tagWeight size tag) Scalar.zero with
      | true =>
          have noWeight := (finite.isWeight_tagWeight tag).eq_zero weightless
          have noShare : prior.share size tag = 0 := by
            rw [finite.share_eq, noWeight, Exact.value, zero_div]
          refine ⟨none, rfl, ?_⟩
          rw [noShare, zero_mul, mul_zero]
          rfl
      | false =>
          obtain ⟨hasLog, weight⟩ := Exact.checkedLog_div (finite.isWeight_tagWeight tag)
            finite.isWeight_totalWeight weightless some
          obtain ⟨result, succeeds, product⟩ := inductionHypothesis
            (logarithm + Scalar.log (prior.tagWeight size tag / prior.totalWeight size))
          refine ⟨result, ?_, ?_⟩
          · simp only [hasLog]
            exact succeeds
          · rw [product, Exact.weight_add, weight, mul_assoc]
            rfl

/-- The logarithm of the product of all shares is found without a fault. -/
theorem logStructure_eq_ok (finite : prior.FinitelyWeighted) (size : Nat) (concept : Concept) :
    ∃ result, prior.logStructure size concept = .ok result ∧
      (result.getD Scalar.negInf).weight = (concept.tags.map (prior.share size)).prod := by
  rw [logStructure]
  cases weightless : Scalar.le (prior.totalWeight size) Scalar.zero with
  | true =>
      have noTotal := finite.isWeight_totalWeight.eq_zero weightless
      have noShare : ∀ tag, prior.share size tag = 0 := by
        intro tag
        rw [finite.share_eq, noTotal, Exact.value, div_zero]
      refine ⟨none, rfl, ?_⟩
      rw [Option.getD_none, Exact.weight_negInf]
      cases concept <;> simp [Concept.tags, noShare]
  | false =>
      obtain ⟨result, succeeds, product⟩ :=
        finite.logShares_eq_ok weightless Scalar.zero concept.tags
      refine ⟨result, succeeds, ?_⟩
      rw [product, Exact.zero_eq, Exact.weight_real, Real.exp_zero, one_mul]

/-- The logarithm of the weight of a hypothesis is found without a fault. -/
theorem logPrior_eq_ok (finite : prior.FinitelyWeighted) (hypothesis : Hypothesis size) :
    ∃ logarithm, prior.logPrior size hypothesis.concept (some hypothesis.count) = .ok logarithm ∧
      logarithm.weight = prior.weightOf hypothesis := by
  obtain ⟨result, structured, shares⟩ := finite.logStructure_eq_ok size hypothesis.concept
  simp only [logPrior, structured, weightOf, ← shares]
  cases result with
  | none => exact ⟨_, rfl, (zero_mul _).symm⟩
  | some logarithm =>
      rw [sizeFactor]
      cases prefers : prior.sizePreference with
      | none => exact ⟨logarithm, rfl, (mul_one _).symm⟩
      | some preference =>
          obtain ⟨factor, found, weight⟩ :=
            SizePreference.logWeight_eq_ok (finite.spread preference prefers) hypothesis.count
          refine ⟨logarithm + factor, ?_, ?_⟩
          · simp only [bind, Except.bind, found]
            rfl
          · rw [Exact.weight_add, weight]
            rfl

/-- No hypothesis has a negative weight. -/
theorem weightOf_nonneg (finite : prior.FinitelyWeighted) (hypothesis : Hypothesis size) :
    0 ≤ prior.weightOf hypothesis := by
  obtain ⟨logarithm, _, weight⟩ := finite.logPrior_eq_ok hypothesis
  rw [← weight]
  exact Exact.weight_nonneg logarithm

/-- A hypothesis has some weight when its weight has a logarithm. -/
theorem weightOf_pos (finite : prior.FinitelyWeighted) {hypothesis : Hypothesis size}
    {logarithm : ℝ} (hasWeight : prior.logPrior size hypothesis.concept (some hypothesis.count) =
      .ok (.real logarithm)) :
    0 < prior.weightOf hypothesis := by
  obtain ⟨_, succeeds, weight⟩ := finite.logPrior_eq_ok hypothesis
  obtain rfl := Except.ok.inj (hasWeight.symm.trans succeeds)
  rw [← weight, Exact.weight_real]
  exact Real.exp_pos logarithm

/-- Every prior with a name passes the checks. -/
theorem of_named {name : String} (named : Prior.named? name = some prior) :
    prior.FinitelyWeighted := by
  have listed := List.mem_of_find?_eq_some named
  have real : ∀ n : Nat, ∃ weight : ℝ, 0 ≤ weight ∧ (Scalar.ofNat n : Exact) = .real weight :=
    fun n => ⟨n, Nat.cast_nonneg n, rfl⟩
  have positive : ∀ n : Nat, 0 < n → Scalar.le (Scalar.ofNat n : Exact) Scalar.zero = false := by
    intro n some
    simpa using some.ne'
  have fixed : ∀ n : Nat, 0 < n → ∀ value,
      IntervalDivisor.fixed (Scalar.ofNat n : Exact) = .fixed value →
        Scalar.le value Scalar.zero = false := by
    rintro n some _ ⟨⟩
    exact positive n some
  simp only [List.mem_cons, List.not_mem_nil, or_false] at listed
  rcases listed with rfl | rfl | rfl | rfl
  case inl =>
    exact ⟨by simp [uniform, custom], real 1, fixed 1 (by decide), nofun, nofun⟩
  case inr.inl =>
    refine ⟨?_, real 10, fixed 5000 (by decide), nofun, nofun⟩
    simp only [ruleBiased, List.forall_mem_map]
    exact fun _ _ => real 1
  case inr.inr.inl =>
    refine ⟨?_, real 1, fixed 5000 (by decide), nofun, nofun⟩
    simp only [typeWeighted, List.forall_mem_cons]
    exact ⟨real 10, real 10, real 10, real 10, real 5, real 5, real 10, real 1, real 1, real 1, nofun⟩
  case inr.inr.inr =>
    refine ⟨by simp [sizeBiased, uniform, custom], real 1, fixed 1 (by decide), ?_, ?_⟩
    · rintro _ ⟨⟩
      exact positive 20 (by decide)
    · rintro _ ⟨⟩
      exact positive 1 (by decide)

end FinitelyWeighted

/-- Under the uniform prior all kinds of nodes have the weight one. -/
theorem tagWeight_uniform (size : Nat) (tag : Tag) :
    (uniform : Prior Exact).tagWeight size tag = .real 1 := by
  by_cases isInterval : tag = .interval
  · simp [tagWeight, uniform, custom, IntervalDivisor.value, isInterval, Exact.real_div_real]
  · simp [tagWeight, uniform, custom, isInterval]

/-- Under the uniform prior every terminal has a share of one tenth, whatever its size. -/
theorem logPrior_uniform_terminal (size : Nat) (leaf : Terminal) (count : Option Int) :
    (uniform : Prior Exact).logPrior size (.terminal leaf) count =
      .ok (.real (Real.log (1 / 10))) := by
  have total : (uniform : Prior Exact).totalWeight size = .real 10 := by
    have ones : Tag.all.map ((uniform : Prior Exact).tagWeight size) =
        (List.replicate 10 1).map Exact.real := by
      simp [funext (tagWeight_uniform size), Tag.all, Primitive.all, Operation.all]
    rw [totalWeight, ones, Exact.sum_map_real]
    norm_num
  have someOne : Scalar.le (Exact.real 1) Scalar.zero = false := by simp
  have someTen : Scalar.le (Exact.real 10) Scalar.zero = false := by simp
  have tenth : Scalar.checkedLog (Exact.real 1 / Exact.real 10) =
      .ok (.real (Real.log (1 / 10))) := Exact.checkedLog_real_div_real one_pos (by norm_num)
  have noPreference : (uniform : Prior Exact).sizePreference = none := rfl
  simp only [logPrior, logStructure, Concept.tags, logShares, total, tagWeight_uniform, someOne,
    someTen, tenth, noPreference, bind, Except.bind, Bool.false_eq_true, if_false]
  rw [Exact.zero_eq, Exact.real_add_real, zero_add]
  rfl

end Prior

end NumberConcepts
