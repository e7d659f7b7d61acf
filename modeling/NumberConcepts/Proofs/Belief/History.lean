import Mathlib.Data.List.Infix
import NumberConcepts.Proofs.Belief.Vector
/-!
# Beliefs from example to example

The vectors of a history are those that each initial part of the examples gives
at once. The entries carried along stay the logarithms of the weights after the
examples seen: `map_weight_observe_joint` is the step and `historyFrom_eq` the run.
-/

namespace NumberConcepts.HypothesisSpace

open LogWeights Exact

variable {space : HypothesisSpace} {prior : Prior Exact}

/-- Examples that nothing explains stay unexplained, whatever is seen later. -/
theorem bayes_append_of_error (finite : prior.FinitelyWeighted) {seen : List Nat}
    {missing : NoExplanation} (unexplained : space.bayes prior seen = .error missing)
    (more : List Nat) :
    space.bayes prior (seen ++ more) = .error { examples := seen ++ more, samples := none } := by
  have weightless : (space.jointWeights prior seen).sum = 0 := by
    by_contra some
    rw [bayes, shares?, if_neg some] at unexplained
    cases unexplained
  rw [bayes, jointWeights_append_eq_zero finite weightless, shares?, if_pos (by simp)]

namespace Sound

variable (sound : space.Sound)

include sound

/-- One more example keeps the entries the logarithms of the weights after all examples. -/
theorem map_weight_observe_joint {entries : List Exact} {seen : List Nat}
    (carried : entries.map weight = space.jointWeights prior seen) (n : Nat) :
    (space.observe entries n).map weight = space.jointWeights prior (seen ++ [n]) := by
  rw [sound.map_weight_observe, carried, jointWeights, List.zipWith_map_left, List.zipWith_self]
  refine List.map_congr_left fun hypothesis _ => ?_
  rw [Prior.weightAfter_append, Hypothesis.likelihood_singleton]

/-- From entries that are the logarithms of the weights after the examples seen, every further
vector follows the rule of Bayes. -/
theorem historyFrom_eq {entries : List Exact} {seen : List Nat}
    (carried : entries.map weight = space.jointWeights prior seen) (rest : List Nat) :
    space.historyFrom entries seen rest =
      rest.inits.map fun more => space.bayes prior (seen ++ more) := by
  have current : ∀ {entries : List Exact} {seen : List Nat},
      entries.map weight = space.jointWeights prior seen →
        historyFrom.current entries seen = space.bayes prior seen := by
    intro entries seen carried
    rw [historyFrom.current, normalize?_eq, carried, bayes]
    cases shares? (space.jointWeights prior seen) <;> rfl
  induction rest generalizing entries seen with
  | nil =>
      rw [historyFrom, current carried]
      simp
  | cons n rest inductionHypothesis =>
      rw [historyFrom, current carried,
        inductionHypothesis (sound.map_weight_observe_joint carried n)]
      simp

/-- The history follows the rule of Bayes for each initial part of the examples. -/
theorem beliefHistory_eq_ok (finite : prior.FinitelyWeighted) (examples : List Nat) :
    space.beliefHistory prior examples = .ok (examples.inits.map (space.bayes prior)) := by
  obtain ⟨logPriors, succeeds, weights⟩ := logPriors_eq_ok finite space
  simp only [beliefHistory, succeeds, bind, Except.bind, sound.historyFrom_eq weights]
  rfl

end Sound

/-- Over the base space of a domain, adding one example after the other gives the vector of each
initial part of the examples, or that nothing explains this part. Once nothing does, nothing
explains any later part. -/
theorem history_agrees_with_each_prefix {domain : Domain} (finite : prior.FinitelyWeighted)
    (examples : List Nat) :
    ∃ history, (base domain).beliefHistory prior examples = .ok history ∧
      history.length = examples.length + 1 ∧
      (∀ seen, seen ≤ examples.length → ∃ belief, history[seen]? = some belief ∧
        (base domain).posteriorBeliefs prior (examples.take seen) = .ok belief) ∧
      ∀ seen missing, history[seen]? = some (.error missing) →
        missing = { examples := examples.take seen, samples := none } ∧
        ∀ later, seen ≤ later → later ≤ examples.length →
          history[later]? =
            some (.error { examples := examples.take later, samples := none }) := by
  have sound := sound_base domain
  have entry : ∀ seen, seen ≤ examples.length →
      (examples.inits.map ((base domain).bayes prior))[seen]? =
        some ((base domain).bayes prior (examples.take seen)) := by
    intro seen bound
    have inRange : seen < examples.inits.length := by
      rw [List.length_inits]
      omega
    rw [List.getElem?_map, List.getElem?_eq_getElem inRange, List.getElem_inits, Option.map_some]
  refine ⟨_, sound.beliefHistory_eq_ok finite examples, by simp, ?_, ?_⟩
  · intro seen bound
    exact ⟨_, entry seen bound, sound.posteriorBeliefs_eq_ok finite _⟩
  · intro seen missing found
    obtain ⟨inRange, _⟩ := List.getElem?_eq_some_iff.1 found
    have bound : seen ≤ examples.length := by
      rw [List.length_map, List.length_inits] at inRange
      omega
    have unexplained := Option.some.inj ((entry seen bound).symm.trans found)
    constructor
    · have again := bayes_append_of_error finite unexplained []
      rw [List.append_nil, unexplained] at again
      exact Except.error.inj again
    · intro later after upper
      have split : examples.take later =
          examples.take seen ++ (examples.drop seen).take (later - seen) := by
        rw [← List.take_add, Nat.add_sub_cancel' after]
      rw [entry later upper, split, bayes_append_of_error finite unexplained]

/-- Over twenty numbers the history of 4, 16 and again 4 agrees with each prefix. -/
theorem history_agrees_over_twenty :
    ∃ history : List (Explained (List Exact)),
      (base ⟨20, by decide⟩).beliefHistory .sizeBiased [4, 16, 4] = .ok history ∧
      history.length = 4 ∧
      (∀ seen, seen ≤ 3 → ∃ belief, history[seen]? = some belief ∧
        (base ⟨20, by decide⟩).posteriorBeliefs .sizeBiased ([4, 16, 4].take seen) = .ok belief) ∧
      ∀ seen missing, history[seen]? = some (.error missing) →
        missing = { examples := [4, 16, 4].take seen, samples := none } ∧
        ∀ later, seen ≤ later → later ≤ 3 →
          history[later]? =
            some (.error { examples := [4, 16, 4].take later, samples := none }) := by
  have named : Prior.named? "size-biased" = some (Prior.sizeBiased : Prior Exact) := rfl
  exact history_agrees_with_each_prefix (.of_named named) [4, 16, 4]

end NumberConcepts.HypothesisSpace
