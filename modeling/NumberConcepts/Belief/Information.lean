import NumberConcepts.Fault
import NumberConcepts.Scalar
/-!
# Entropy and divergence

Both are measured in natural units, and both bring their arguments to a sum of
one first.
-/

namespace NumberConcepts.Information

variable {α : Type} [Scalar α]

/-- The entries divided by their sum. -/
def shares (entries : List α) : List α :=
  let total := Scalar.sum entries
  entries.map (· / total)

/-- What an outcome of a given probability adds to the entropy. -/
def surprise (p : α) : α :=
  if Scalar.lt p Scalar.zero then Scalar.negInf
  else if Scalar.beq p Scalar.zero then Scalar.zero
  else -(p * Scalar.log p)

/-- The entropy of a distribution; zero when its sum is not positive. -/
def entropy (entries : List α) : α :=
  if entries.isEmpty || Scalar.le (Scalar.sum entries) Scalar.zero then Scalar.zero
  else Scalar.sum ((shares entries).map surprise)

/-- What an outcome adds to the divergence from `q` to `p`. It is infinite when `p` gives the
outcome weight and `q` does not. -/
def excess (p q : α) : α :=
  if Scalar.lt Scalar.zero p && Scalar.lt Scalar.zero q then p * Scalar.log (p / q)
  else if Scalar.beq p Scalar.zero && Scalar.le Scalar.zero q then Scalar.zero
  else if Scalar.beq p p && Scalar.beq q q then -Scalar.negInf
  else p + q

/-- The divergence between two distributions over the same outcomes. -/
def divergence (p q : List α) : Except Fault α :=
  if p.length = q.length then
    .ok (Scalar.sum (List.zipWith excess (shares p) (shares q)))
  else
    .error (.shapesDiffer p.length q.length)

end NumberConcepts.Information
