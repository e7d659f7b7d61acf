import NumberConcepts.Proofs.Scalar
import NumberConcepts.Random.MersenneTwister
/-!
# Draws that cannot go wrong

`Draw.Yields` says of a computation that from every state it has a result, and what
holds of the result; it is carried through each way to compose draws. `Draw.Ensures`
says what holds of a result if there is one, and `Draw.Fails` that from no state there
is one. What drawing members and positions needs of a source is `RandomSource.Choosing`;
for members alone `RandomSource.Bounded` is enough. The Mersenne twister has the latter,
and the former when its weights are added without rounding.
-/

namespace NumberConcepts

open Exact

/-! ### Computations with a result -/

namespace Draw

variable {σ β γ : Type}

/-- From every state the computation has a result, and the property holds of it. -/
def Yields (draw : Draw σ β) (property : β → Prop) : Prop :=
  ∀ state, ∃ result after, draw.run state = (.ok result, after) ∧ property result

/-- What follows a result starts from the state after it. -/
theorem run_bind {draw : Draw σ β} {next : β → Draw σ γ} {state between : σ} {result : β}
    (succeeds : draw.run state = (.ok result, between)) :
    (draw >>= next).run state = (next result).run between := by
  change ExceptT.bindCont next (draw.run state).1 (draw.run state).2 = _
  rw [succeeds]
  rfl

/-- A fault is not followed by anything. -/
theorem run_bind_error {draw : Draw σ β} {next : β → Draw σ γ} {state after : σ} {fault : Fault}
    (fails : draw.run state = (.error fault, after)) :
    (draw >>= next).run state = (.error fault, after) := by
  change ExceptT.bindCont next (draw.run state).1 (draw.run state).2 = _
  rw [fails]
  rfl

/-- A result that needs no draw is followed by what depends on it. -/
theorem ofExcept_bind {found : Except Fault β} {result : β} (succeeds : found = .ok result)
    (next : β → Draw σ γ) : (ofExcept found >>= next) = next result := by
  rw [succeeds]
  exact pure_bind result next

/-- From every state the computation has a fault, and the property holds of it. -/
def Fails (draw : Draw σ β) (property : Fault → Prop) : Prop :=
  ∀ state, ∃ fault after, draw.run state = (.error fault, after) ∧ property fault

namespace Yields

variable {draw : Draw σ β} {property weaker : β → Prop}

theorem imp (yields : draw.Yields property) (weakens : ∀ result, property result → weaker result) :
    draw.Yields weaker := by
  intro state
  obtain ⟨result, after, succeeds, holds⟩ := yields state
  exact ⟨result, after, succeeds, weakens result holds⟩

/-- What two arguments say of the result of one computation holds of it together. -/
theorem and {other : β → Prop} (yields : draw.Yields property) (yields' : draw.Yields other) :
    draw.Yields fun result => property result ∧ other result := by
  intro state
  obtain ⟨result, after, succeeds, holds⟩ := yields state
  obtain ⟨result', after', succeeds', holds'⟩ := yields' state
  cases succeeds.symm.trans succeeds'
  exact ⟨result, after, succeeds, holds, holds'⟩

theorem pure {result : β} (holds : property result) :
    Yields (Pure.pure result : Draw σ β) property :=
  fun state => ⟨result, state, rfl, holds⟩

theorem ofExcept {found : Except Fault β} {result : β} (succeeds : found = .ok result)
    (holds : property result) : Yields (Draw.ofExcept found : Draw σ β) property := by
  rw [succeeds]
  exact pure holds

/-- A draw from a source is one step of its state. -/
theorem lift {step : σ → β × σ} (holds : ∀ state, property (step state).1) :
    Yields (ExceptT.lift step : Draw σ β) property :=
  fun state => ⟨(step state).1, (step state).2, rfl, holds state⟩

/-- A draw is followed by one that depends on its result. -/
theorem bind {next : β → Draw σ γ} {following : γ → Prop} (yields : draw.Yields property)
    (continues : ∀ result, property result → (next result).Yields following) :
    (draw >>= next).Yields following := by
  intro state
  obtain ⟨result, between, succeeds, holds⟩ := yields state
  obtain ⟨last, after, ends, follows⟩ := continues result holds between
  exact ⟨last, after, (run_bind succeeds).trans ends, follows⟩

/-- A draw is followed by one that fails. -/
theorem bind_fails {next : β → Draw σ γ} {faulty : Fault → Prop} (yields : draw.Yields property)
    (fails : ∀ result, property result → (next result).Fails faulty) :
    (draw >>= next).Fails faulty := by
  intro state
  obtain ⟨result, between, succeeds, holds⟩ := yields state
  obtain ⟨fault, after, ends, isFaulty⟩ := fails result holds between
  exact ⟨fault, after, (run_bind succeeds).trans ends, isFaulty⟩

end Yields

/-- Wherever the computation has a result, the property holds of it. -/
def Ensures (draw : Draw σ β) (property : β → Prop) : Prop :=
  ∀ ⦃state result after⦄, draw.run state = (.ok result, after) → property result

namespace Ensures

variable {draw : Draw σ β} {property : β → Prop}

theorem trivial (draw : Draw σ β) : draw.Ensures fun _ => True := fun _ _ _ _ => True.intro

theorem pure {result : β} (holds : property result) :
    Ensures (Pure.pure result : Draw σ β) property := by
  intro state found after succeeds
  cases succeeds
  exact holds

/-- A computation has a result only if the draw that it begins with has one. -/
theorem bind {next : β → Draw σ γ} {following : γ → Prop} (ensures : draw.Ensures property)
    (continues : ∀ result, property result → (next result).Ensures following) :
    (draw >>= next).Ensures following := by
  intro state last after succeeds
  rcases begins : draw.run state with ⟨fault | result, between⟩
  · rw [run_bind_error begins] at succeeds
    cases succeeds
  · rw [run_bind begins] at succeeds
    exact continues result (ensures begins) succeeds

end Ensures

/-- A way to say that a property holds of the results of computations, which is kept when they are
put together. -/
structure Judgement (σ : Type) where
  holds : ∀ {β : Type}, Draw σ β → (β → Prop) → Prop
  pure : ∀ {β : Type} {result : β} {property : β → Prop}, property result →
    holds (Pure.pure result) property
  bind : ∀ {β γ : Type} {draw : Draw σ β} {next : β → Draw σ γ} {property : β → Prop}
    {following : γ → Prop}, holds draw property →
    (∀ result, property result → holds (next result) following) → holds (draw >>= next) following

namespace Judgement

variable (judgement : Judgement σ)

/-- A step that keeps each entry of a list to a relation keeps the list to it. -/
theorem mapM {step : γ → Draw σ β} {related : γ → β → Prop} {entries : List γ}
    (each : ∀ entry ∈ entries, judgement.holds (step entry) (related entry)) :
    judgement.holds (entries.mapM step) (List.Forall₂ related entries) := by
  induction entries with
  | nil => exact judgement.pure .nil
  | cons first rest inductionHypothesis =>
      obtain ⟨now, later⟩ := List.forall_mem_cons.1 each
      rw [List.mapM_cons]
      refine judgement.bind now fun result isRelated => ?_
      refine judgement.bind (inductionHypothesis later) fun results areRelated => ?_
      exact judgement.pure (.cons isRelated areRelated)

variable {draw : Draw σ β} {property : β → Prop}

/-- Repetitions add as many results to those at hand. -/
theorem timesFrom (holds : judgement.holds draw property) {results : List β}
    (hold : ∀ result ∈ results, property result) (count : Nat) :
    judgement.holds (Draw.timesFrom draw results count) fun all =>
      all.length = results.length + count ∧ ∀ result ∈ all, property result := by
  induction count generalizing results with
  | zero =>
      exact judgement.pure
        ⟨List.length_reverse, fun result listed => hold result (by simpa using listed)⟩
  | succ count inductionHypothesis =>
      refine judgement.bind holds fun result isResult => ?_
      have more := inductionHypothesis (List.forall_mem_cons.2 ⟨isResult, hold⟩)
      rwa [List.length_cons, Nat.add_right_comm, Nat.add_assoc] at more

/-- A number of repetitions has as many results. -/
theorem times (holds : judgement.holds draw property) (count : Nat) :
    judgement.holds (Draw.times draw count) fun results =>
      results.length = count ∧ ∀ result ∈ results, property result := by
  have none : ∀ result ∈ ([] : List β), property result := nofun
  have all := judgement.timesFrom holds none count
  rwa [List.length_nil, Nat.zero_add] at all

end Judgement

section Judgements

variable {step : γ → Draw σ β} {related : γ → β → Prop} {entries : List γ} {draw : Draw σ β}
  {property : β → Prop}

/-- Computations with a result from every state. -/
def yielding (σ : Type) : Judgement σ := ⟨Yields, Yields.pure, Yields.bind⟩

theorem Yields.mapM (each : ∀ entry ∈ entries, (step entry).Yields (related entry)) :
    (entries.mapM step).Yields (List.Forall₂ related entries) := (yielding σ).mapM each

theorem Yields.times (yields : draw.Yields property) (count : Nat) :
    (Draw.times draw count).Yields fun results =>
      results.length = count ∧ ∀ result ∈ results, property result :=
  (yielding σ).times yields count

/-- Computations that keep their results, if any, to a property. -/
def ensuring (σ : Type) : Judgement σ := ⟨Ensures, Ensures.pure, Ensures.bind⟩

theorem Ensures.mapM (each : ∀ entry ∈ entries, (step entry).Ensures (related entry)) :
    (entries.mapM step).Ensures (List.Forall₂ related entries) := (ensuring σ).mapM each

theorem Ensures.times (ensures : draw.Ensures property) (count : Nat) :
    (Draw.times draw count).Ensures fun results =>
      results.length = count ∧ ∀ result ∈ results, property result :=
  (ensuring σ).times ensures count

end Judgements

namespace Fails

variable {draw : Draw σ β} {property : Fault → Prop}

theorem ofExcept {found : Except Fault β} {fault : Fault} (fails : found = .error fault)
    (holds : property fault) : Fails (Draw.ofExcept found : Draw σ β) property := by
  rw [fails]
  exact fun state => ⟨fault, state, rfl, holds⟩

/-- Nothing follows a draw that fails. -/
theorem bind {next : β → Draw σ γ} (fails : draw.Fails property) :
    (draw >>= next).Fails property := by
  intro state
  obtain ⟨fault, after, ends, holds⟩ := fails state
  exact ⟨fault, after, run_bind_error ends, holds⟩

/-- Where each step has a result or fails, one that fails makes all steps together fail. -/
theorem mapM {step : γ → Draw σ β} {related : γ → β → Prop} {entries : List γ}
    (each : ∀ entry ∈ entries, (step entry).Yields (related entry) ∨ (step entry).Fails property)
    {failing : γ} (listed : failing ∈ entries) (fails : (step failing).Fails property) :
    (entries.mapM step).Fails property := by
  induction entries with
  | nil => cases listed
  | cons first rest inductionHypothesis =>
      obtain ⟨now, later⟩ := List.forall_mem_cons.1 each
      rw [List.mapM_cons]
      rcases List.mem_cons.1 listed with rfl | isLater
      · exact fails.bind
      · rcases now with yields | failsNow
        · exact yields.bind_fails fun result _ => (inductionHypothesis later isLater).bind
        · exact failsNow.bind

end Fails

end Draw

/-! ### Choices -/

/-- What choices among equals need of a source: a number is below its bound. -/
structure RandomSource.Bounded (α σ : Type) [RandomSource α σ] : Prop where
  below_lt : ∀ bound (state : σ), 0 < bound → (below α bound state).1 < bound

namespace RandomSource.Bounded

variable {α σ : Type} [RandomSource α σ] (bounded : Bounded α σ)

include bounded

/-- A number is drawn below its bound. -/
theorem below {bound : Nat} (positive : 0 < bound) :
    (Draw.below α bound : Draw σ Nat).Yields (· < bound) :=
  .lift fun state => bounded.below_lt bound state positive

/-- A number is drawn between its bounds. -/
theorem between {low high : Nat} (ordered : low ≤ high) :
    (Draw.between α low high : Draw σ Nat).Yields fun n => low ≤ n ∧ n ≤ high := by
  refine (bounded.below (by omega)).bind fun offset below => ?_
  exact .pure (by omega)

/-- What is chosen from a list is listed. -/
theorem choice {β : Type} {items : List β} (given : items ≠ []) :
    (Draw.choice α items : Draw σ β).Yields (· ∈ items) := by
  have notEmpty : items.isEmpty = false := by simpa using given
  rw [Draw.choice, notEmpty]
  refine (bounded.below (List.length_pos_of_ne_nil given)).bind fun position below => ?_
  rw [List.getElem?_eq_getElem below]
  exact .pure (List.getElem_mem below)

end RandomSource.Bounded

/-- What choices need of a source: a number is below its bound, and a position without weight is
never drawn as long as weights are numbers, none negative and some not zero. -/
structure RandomSource.Choosing (σ : Type) [RandomSource Exact σ] : Prop where
  below_lt : ∀ bound (state : σ), 0 < bound → (below Exact bound state).1 < bound
  weighted_pos : ∀ (weights : List ℝ) (state : σ), (∀ weight ∈ weights, 0 ≤ weight) →
    (∃ weight ∈ weights, 0 < weight) →
    ∃ weight, weights[(weighted (weights.map real) state).1]? = some weight ∧ 0 < weight

/-- A source that keeps all its promises keeps these. -/
theorem RandomSource.Lawful.choosing {σ : Type} [RandomSource Exact σ]
    (lawful : RandomSource.Lawful Exact σ) : RandomSource.Choosing σ where
  below_lt := lawful.below_lt
  weighted_pos := by
    rintro weights state nonnegative ⟨weight, listed, positive⟩
    have allowed : ∀ entry ∈ weights.map real, Scalar.le Scalar.zero entry = true := by
      simpa using nonnegative
    have positive' : Scalar.lt Scalar.zero (real weight) = true := by simpa using positive
    obtain ⟨entry, isAt, hasWeight⟩ := lawful.weighted_pos (weights.map real) state allowed
      ⟨_, List.mem_map_of_mem listed, positive'⟩
    rw [List.getElem?_map, Option.map_eq_some_iff] at isAt
    obtain ⟨value, isAt, rfl⟩ := isAt
    exact ⟨value, isAt, by simpa using hasWeight⟩

namespace RandomSource.Choosing

variable {σ : Type} [RandomSource Exact σ] (choosing : Choosing σ)

include choosing

theorem bounded : Bounded Exact σ where
  below_lt := choosing.below_lt

/-- What is drawn by weights has a weight. -/
theorem weighted {weights : List ℝ} (nonnegative : ∀ weight ∈ weights, 0 ≤ weight)
    (positive : ∃ weight ∈ weights, 0 < weight) :
    (Draw.weighted (weights.map real) : Draw σ Nat).Yields fun position =>
      ∃ weight, weights[position]? = some weight ∧ 0 < weight :=
  .lift fun state => choosing.weighted_pos weights state nonnegative positive

end RandomSource.Choosing

/-! ### The Mersenne twister -/

namespace MersenneTwister

/-- A number of the unit interval has fewer than `2 ^ 53` units. -/
theorem nextUnits_lt (generator : MersenneTwister) : generator.nextUnits.1 < 2 ^ 53 := by
  have upper : ∀ word : UInt32, (word >>> 5).toNat < 2 ^ 27 := by
    intro word
    have bound := word.toNat_lt
    have kept : (word >>> 5).toNat = word.toNat >>> 5 := UInt32.toNat_shiftRight word 5
    rw [kept, Nat.shiftRight_eq_div_pow]
    omega
  have lower : ∀ word : UInt32, (word >>> 6).toNat < 2 ^ 26 := by
    intro word
    have bound := word.toNat_lt
    have kept : (word >>> 6).toNat = word.toNat >>> 6 := UInt32.toNat_shiftRight word 6
    rw [kept, Nat.shiftRight_eq_div_pow]
    omega
  have first := upper generator.next.1
  have second := lower generator.next.2.next.1
  change (generator.next.1 >>> 5).toNat * Nat.pow 2 26 +
    (generator.next.2.next.1 >>> 6).toNat < 2 ^ 53
  rw [Nat.pow_eq]
  omega

/-- The number found among candidates is below the bound. -/
theorem firstBelow_lt {bound : Nat} (positive : 0 < bound) (tries : Nat)
    (generator : MersenneTwister) : (firstBelow bound tries generator).1 < bound := by
  induction tries generalizing generator with
  | zero => exact positive
  | succ tries inductionHypothesis =>
      rw [firstBelow]
      obtain ⟨candidate, after⟩ := nextBits (bound.log2 + 1) generator
      dsimp only
      split
      next below => exact below
      next => exact inductionHypothesis after

/-- Where partial sums first exceed a number that they have reached, a weight was added. -/
theorem positionOf_pos {target partialSum : ℝ} {weights : List ℝ} (reached : partialSum ≤ target)
    (exceeded : target < partialSum + weights.sum) :
    ∃ weight, weights[positionOf (real target) (real partialSum) (weights.map real)]? =
      some weight ∧ 0 < weight := by
  induction weights generalizing partialSum with
  | nil =>
      rw [List.sum_nil, add_zero] at exceeded
      exact absurd exceeded reached.not_gt
  | cons weight rest inductionHypothesis =>
      rw [List.sum_cons, ← add_assoc] at exceeded
      cases rest with
      | nil =>
          refine ⟨weight, rfl, ?_⟩
          rw [List.sum_nil, add_zero] at exceeded
          linarith
      | cons second others =>
          simp only [List.map_cons, positionOf, real_add_real, lt_real, decide_eq_true_iff]
          split
          next found => exact ⟨weight, rfl, by linarith⟩
          next notYet => exact inductionHypothesis (not_lt.1 notYet) exceeded

/-- The generator keeps to its bounds. -/
theorem bounded (α : Type) [Scalar α] : RandomSource.Bounded α MersenneTwister where
  below_lt _ generator positive := firstBelow_lt positive 1000 generator

/-- Without rounding the generator chooses as it should. -/
theorem choosing : RandomSource.Choosing MersenneTwister where
  below_lt := (bounded Exact).below_lt
  weighted_pos := by
    rintro weights generator nonnegative ⟨weight, listed, positive⟩
    have total : 0 < weights.sum :=
      positive.trans_le (List.single_le_sum nonnegative _ listed)
    have units : (generator.nextUnits.1 : ℝ) < 2 ^ 53 := by exact_mod_cast generator.nextUnits_lt
    have share : (generator.nextUnits.1 : ℝ) / 2 ^ 53 < 1 := by
      rw [div_lt_one (by positivity)]
      exact units
    have target : (Scalar.ofNat generator.nextUnits.1 / Scalar.ofNat (Nat.pow 2 53) : Exact) *
        Scalar.sum (weights.map real) =
          real (generator.nextUnits.1 / 2 ^ 53 * weights.sum) := by
      have scale : ((Nat.pow 2 53 : Nat) : ℝ) = 2 ^ 53 := by norm_num
      rw [sum_map_real, ofNat_eq, ofNat_eq, scale, real_div_real (by positivity), real_mul_real]
    have reached : (0 : ℝ) ≤ generator.nextUnits.1 / 2 ^ 53 * weights.sum := by positivity
    have exceeded : generator.nextUnits.1 / 2 ^ 53 * weights.sum < 0 + weights.sum := by
      rw [zero_add]
      exact mul_lt_of_lt_one_left total share
    have found := positionOf_pos reached exceeded
    rw [← target, ← zero_eq] at found
    exact found

end MersenneTwister

end NumberConcepts
