import NumberConcepts.Belief.Posterior
/-!
# Belief vectors

A belief vector gives every hypothesis of a space its probability, in the order
of the space. It is computed for all examples at once, or updated by one example
at a time; `beliefHistory` carries the logarithmic weights from example
to example, so that a long run never rounds a consistent hypothesis to zero.
-/

namespace NumberConcepts.HypothesisSpace

variable {α : Type} [Scalar α] (space : HypothesisSpace)

/-- The logarithms of the prior weights. -/
def logPriors (prior : Prior α) : Except Fault (List α) :=
  space.hypotheses.toList.mapM fun hypothesis =>
    prior.logPrior space.domain.size hypothesis.concept (some hypothesis.count)

/-- The prior probabilities, if some hypothesis has any weight. -/
def priorBeliefs (prior : Prior α) : Except Fault (Option (List α)) := do
  return LogWeights.normalize? (← space.logPriors prior)

/-- Each entry of a vector with its hypothesis and whether that is in a set of positions. -/
def withMembership (positions : NatSet) (entries : List α) :
    List (α × Hypothesis space.domain.size × Bool) :=
  entries.zip (space.hypotheses.toList.mapIdx fun position hypothesis =>
    (hypothesis, decide (position ∈ positions)))

/-- The logarithms of the weights after the examples, when the prior is brought to a sum of one;
minus infinity for every hypothesis that lacks an example. -/
def logBeliefs (prior : Prior α) (examples : List Nat) : Except Fault (List α) := do
  let logPriors ← space.logPriors prior
  match LogWeights.logTotal? logPriors with
  | none => return logPriors.map fun _ => Scalar.negInf
  | some total =>
    return (space.withMembership (space.consistent examples) logPriors).map
      fun (logPrior, hypothesis, consistent) =>
        let weight := logPrior - total +
          LogWeights.logLikelihood hypothesis.count examples.length consistent
        if Scalar.isFinite weight then weight else Scalar.negInf

/-- The probabilities after the examples; zero for every hypothesis that lacks an example. -/
def posteriorBeliefs (prior : Prior α) (examples : List Nat) :
    Except Fault (Explained (List α)) := do
  match LogWeights.normalize? (← space.logBeliefs prior examples) with
  | some probabilities => return .ok probabilities
  | none => return .error { examples, samples := none }

/-- The logarithm of the probability of the examples before any is seen. -/
def logMarginal (prior : Prior α) (examples : List Nat) : Except Fault α := do
  return LogWeights.logTotal (← space.logBeliefs prior examples)

/-- Logarithmic weights after one more example. -/
def observe (logWeights : List α) (number : Nat) : List α :=
  (space.withMembership (space.index.containing number) logWeights).map
    fun (logWeight, hypothesis, contains) =>
      if contains && Scalar.isFinite logWeight then
        logWeight - Scalar.log (Scalar.ofNat hypothesis.count)
      else
        Scalar.negInf

/-- The logarithm of a positive entry, minus infinity for any other. -/
def logEntry (entry : α) : α :=
  if Scalar.lt Scalar.zero entry then Scalar.log entry else Scalar.negInf

/-- A belief vector after one more example. -/
def update (beliefs : List α) (number : Nat) : Explained (List α) :=
  match LogWeights.normalize? (space.observe (beliefs.map logEntry) number) with
  | some probabilities => .ok probabilities
  | none => .error { examples := [number], samples := none }

/-- The belief vectors after the examples seen and after each further one, from logarithmic
weights for the examples seen. -/
def historyFrom (logWeights : List α) (seen : List Nat) :
    List Nat → List (Explained (List α))
  | [] => [current]
  | number :: rest =>
    current :: historyFrom (space.observe logWeights number) (seen ++ [number]) rest
where
  current : Explained (List α) :=
    match LogWeights.normalize? logWeights with
    | some probabilities => .ok probabilities
    | none => .error { examples := seen, samples := none }

/-- The belief vector after each initial part of the examples, the empty part first. -/
def beliefHistory (prior : Prior α) (examples : List Nat) :
    Except Fault (List (Explained (List α))) := do
  return space.historyFrom (← space.logPriors prior) [] examples

/-- A hypothesis with its probability. -/
abbrev Weighted (α : Type) (size : Nat) := Hypothesis size × α

/-- The first hypothesis stands before the second, or they are alike. -/
def weightedPrecedes {size : Nat} (a b : Weighted α size) : Bool :=
  if Scalar.lt b.2 a.2 then true
  else if Scalar.lt a.2 b.2 then false
  else if a.1.count < b.1.count then true
  else if b.1.count < a.1.count then false
  else !decide (b.1.key < a.1.key)

/-- All hypotheses with their entries of a belief vector, by decreasing probability, then by
increasing size, then by written form. -/
def byProbability (beliefs : List α) : List (Weighted α space.domain.size) :=
  (space.hypotheses.toList.zip beliefs).mergeSort weightedPrecedes

/-- The most probable hypotheses of the belief vector, by a count that may be negative. -/
def topBeliefs (prior : Prior α) (examples : List Nat) (count : Int) :
    Except Fault (Explained (List (Weighted α space.domain.size))) := do
  let beliefs ← space.posteriorBeliefs prior examples
  return beliefs.map fun entries => Sequence.first count (space.byProbability entries)

/-- What a belief vector says in short. -/
structure Summary (α : Type) (size : Nat) where
  consistent : Nat
  /-- The entropy and the five most probable hypotheses, or that nothing explains the examples. -/
  belief : Explained (α × List (Weighted α size))

/-- The summary of the belief vector. -/
def summary (prior : Prior α) (examples : List Nat) :
    Except Fault (Summary α space.domain.size) := do
  let beliefs ← space.posteriorBeliefs prior examples
  return {
    consistent := (space.consistent examples).size
    belief := beliefs.map fun entries =>
      (Information.entropy entries, Sequence.first 5 (space.byProbability entries)) }

/-- The probability that each number belongs with the examples behind a belief vector, at least
zero and at most one. -/
def predict (beliefs : List α) (numbers : List Int) : List α :=
  numbers.map fun number =>
    let mass := Scalar.sum
      ((space.withMembership (space.index.containing number) beliefs).map
        fun (belief, _, contains) => Scalar.ofNat contains.toNat * belief)
    Scalar.min (Scalar.max mass Scalar.zero) Scalar.one

end NumberConcepts.HypothesisSpace
