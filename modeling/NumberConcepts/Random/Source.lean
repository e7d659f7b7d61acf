import NumberConcepts.Fault
import NumberConcepts.Scalar
/-!
# Random sources

A random source draws numbers of the unit interval, naturals below a bound, and
positions with given weights. Everything random is written over such a source.
`RandomSource.Lawful` says what a source promises: draws lie where they should,
and a position without weight is never drawn.
-/

namespace NumberConcepts

/-- Draws from a state, each with the state afterwards. -/
class RandomSource (α σ : Type) where
  unit : σ → α × σ
  below : Nat → σ → Nat × σ
  /-- A position of a list of weights, each as probable as its weight. -/
  weighted : List α → σ → Nat × σ

/-- What a random source promises. -/
class RandomSource.Lawful (α σ : Type) [Scalar α] [RandomSource α σ] : Prop where
  unit_nonneg : ∀ state : σ, Scalar.le Scalar.zero (unit state : α × σ).1 = true
  unit_lt_one : ∀ state : σ, Scalar.lt (unit state : α × σ).1 Scalar.one = true
  below_lt : ∀ bound (state : σ), 0 < bound → (below α bound state).1 < bound
  weighted_pos : ∀ (weights : List α) (state : σ),
    (∀ weight ∈ weights, Scalar.le Scalar.zero weight = true) →
    (∃ weight ∈ weights, Scalar.lt Scalar.zero weight = true) →
    ∃ weight, weights[(weighted weights state).1]? = some weight ∧
      Scalar.lt Scalar.zero weight = true

/-- A computation that draws from a source and may have a fault. Draws made before a fault have
been made. -/
abbrev Draw (σ : Type) := ExceptT Fault (StateM σ)

namespace Draw

variable {α σ : Type} [RandomSource α σ]

/-- A number of the unit interval. -/
def unit (α : Type) [RandomSource α σ] : Draw σ α :=
  ExceptT.lift fun state => RandomSource.unit state

/-- A natural number below a bound. -/
def below (α : Type) [RandomSource α σ] (bound : Nat) : Draw σ Nat :=
  ExceptT.lift fun state => RandomSource.below α bound state

/-- A position of a list of weights. -/
def weighted (weights : List α) : Draw σ Nat :=
  ExceptT.lift fun state => RandomSource.weighted weights state

/-- A member of a list, each as probable. -/
def choice (α : Type) [RandomSource α σ] {β : Type} (items : List β) : Draw σ β := do
  if items.isEmpty then throw .emptyChoice
  let position ← below α items.length
  match items[position]? with
  | some item => return item
  | none => throw .emptyChoice

/-- An integer from one bound to the other, each as probable. -/
def between (α : Type) [RandomSource α σ] (low high : Nat) : Draw σ Nat := do
  return low + (← below α (high + 1 - low))

/-- The results at hand, the latest first, and those of a number of further repetitions. -/
def timesFrom {β : Type} (draw : Draw σ β) (results : List β) : Nat → Draw σ (List β)
  | 0 => return results.reverse
  | count + 1 => do
    let result ← draw
    timesFrom draw (result :: results) count

/-- The results of a number of repetitions. -/
def times {β : Type} (draw : Draw σ β) (count : Nat) : Draw σ (List β) := timesFrom draw [] count

/-- A result that needs no draw. -/
def ofExcept {β : Type} (result : Except Fault β) : Draw σ β :=
  match result with
  | .ok value => pure value
  | .error fault => throw fault

/-- The result of a computation that starts at a state. -/
def resultFrom {β : Type} (state : σ) (draw : Draw σ β) : Except Fault β := (draw.run state).1

end Draw

end NumberConcepts
