import NumberConcepts.Scalar
/-!
# Logarithmic weights

Weights are kept as logarithms, because the likelihood of a few examples is
already too small to be written as a number. An entry that is not finite counts
as a weight of zero. The greatest entry is subtracted before exponentials are
taken.
-/

namespace NumberConcepts.LogWeights

variable {α : Type} [Scalar α]

/-- The greatest of some scalars. -/
def greatest? : List α → Option α
  | [] => none
  | first :: rest => some (rest.foldl Scalar.max first)

/-- The logarithm of the sum of the weights, if some entry is finite. -/
def logTotal? (entries : List α) : Option α :=
  let finite := entries.filter Scalar.isFinite
  (greatest? finite).map fun top =>
    Scalar.log (Scalar.sum (finite.map fun entry => Scalar.exp (entry - top))) + top

/-- The logarithm of the sum of the weights; minus infinity when there is none. -/
def logTotal (entries : List α) : α := (logTotal? entries).getD Scalar.negInf

/-- The weights as probabilities that sum to one, if there is any weight. -/
def normalize? (entries : List α) : Option (List α) :=
  (logTotal? entries).map fun total =>
    entries.map fun entry =>
      if Scalar.isFinite entry then Scalar.exp (entry - total) else Scalar.zero

/-- The logarithm of the likelihood of `examples` numbers drawn from a set of the given size; minus
infinity for an empty set or one that lacks an example. -/
def logLikelihood (size examples : Int) (consistent : Bool) : α :=
  if !consistent || decide (size ≤ 0) then Scalar.negInf
  else Scalar.ofInt (-examples) * Scalar.log (Scalar.ofNat size.toNat)

end NumberConcepts.LogWeights
