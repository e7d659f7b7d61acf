import NumberConcepts.Prediction
import NumberConcepts.Proofs.Hypothesis.Space
/-!
# Examples by value and number

Inference sees of the examples only which values they have and how many they are.
Hypotheses are checked against the values, and the likelihood counts the examples.
An answer still names the examples it was given, so that two answers are compared
after one is renamed to the examples of the other. Nothing here depends on the
scalars: what holds of rounded ones holds of exact ones.
-/

namespace NumberConcepts

/-- Two lists of examples have the same values and are equally long. -/
structure Exchangeable (first second : List Nat) : Prop where
  values : ∀ n, n ∈ first ↔ n ∈ second
  count : first.length = second.length

/-! ### Answers renamed -/

/-- The answer named after other examples. -/
def NoExplanation.renamed (examples : List Nat) (missing : NoExplanation) : NoExplanation :=
  { missing with examples }

/-- The posterior named after other examples. -/
def Posterior.renamed {α : Type} {size : Nat} (examples : List Nat) (posterior : Posterior α size) :
    Posterior α size :=
  { posterior with examples }

/-- The answer after a change, and named after other examples where nothing explains them. -/
def Explained.renamed {β γ : Type} (examples : List Nat) (change : β → γ) :
    Explained β → Explained γ
  | .ok answer => .ok (change answer)
  | .error missing => .error (missing.renamed examples)

variable {α : Type} [Scalar α] {size : Nat} {prior : Prior α} {first second : List Nat}

/-! ### Candidates -/

/-- A candidate is assessed alike, or fails alike. -/
theorem Assessment.ofHypothesis_congr (exchangeable : Exchangeable first second) (prior : Prior α)
    (position : Option Int) (hypothesis : Hypothesis size) :
    ofHypothesis prior first position hypothesis = ofHypothesis prior second position hypothesis := by
  simp only [ofHypothesis, exchangeable.count,
    hypothesis.containsAll_congr exchangeable.values]

namespace Posterior

/-- Assessed candidates are ranked whatever the examples are called. -/
theorem ofAssessments_renamed (first second : List Nat) (assessments : List (Assessment α size)) :
    ofAssessments second assessments =
      (ofAssessments first assessments).renamed second (renamed second) := by
  simp only [ofAssessments, ofAssessments?]
  cases LogWeights.normalize? (assessments.map Assessment.logWeight) <;> rfl

/-- A posterior is named after the examples given. -/
theorem examples_ofAssessments {examples : List Nat} {assessments : List (Assessment α size)}
    {posterior : Posterior α size} (succeeds : ofAssessments examples assessments = .ok posterior) :
    posterior.examples = examples := by
  simp only [ofAssessments, ofAssessments?] at succeeds
  cases normalized : LogWeights.normalize? (assessments.map Assessment.logWeight) with
  | none =>
      rw [normalized] at succeeds
      cases succeeds
  | some probabilities =>
      rw [normalized] at succeeds
      cases succeeds
      rfl

/-- Ranked candidates differ by the examples they are named after only. -/
theorem rank_exchanged (exchangeable : Exchangeable first second) (prior : Prior α)
    (candidates : List (Hypothesis size)) :
    rank prior candidates second =
      (rank prior candidates first).map (Explained.renamed second (renamed second)) := by
  have assessed : (Assessment.ofHypothesis prior first none : Hypothesis size → _) =
      Assessment.ofHypothesis prior second none :=
    funext (Assessment.ofHypothesis_congr exchangeable prior none)
  simp only [rank, assessed]
  cases candidates.mapM (Assessment.ofHypothesis prior second none) with
  | error fault => rfl
  | ok assessments => exact congrArg Except.ok (ofAssessments_renamed first second _)

/-- A number is predicted alike by the ranking renamed. -/
theorem predict_renamed {posterior : Posterior α size}
    (values : ∀ n, n ∈ posterior.examples ↔ n ∈ second) (number : Int) :
    (posterior.renamed second).predict number = posterior.predict number := by
  have named : (second.map Int.ofNat).contains number =
      (posterior.examples.map Int.ofNat).contains number := by
    rw [Bool.eq_iff_iff, List.contains_iff_mem, List.contains_iff_mem]
    simp only [List.mem_map, values]
  simp only [predict, renamed, named]

end Posterior

/-! ### Inference over a space -/

namespace HypothesisSpace

variable {space : HypothesisSpace}

/-- The last stage of the filter holds the consistent positions. -/
theorem getLast?_stages (space : HypothesisSpace) (examples : List Nat) :
    (space.index.stages (examples.map Int.ofNat)).getLast? = some (space.consistent examples) := by
  have isLast : (examples.map Int.ofNat).inits.getLast? = some (examples.map Int.ofNat) := by
    rw [List.getLast?_eq_getElem?, List.length_inits, Nat.add_sub_cancel,
      List.getElem?_eq_getElem (by simp), List.getElem_inits, List.take_length]
  rw [Index.stages_eq, List.getLast?_map, isLast, Option.map_some, consistent]

theorem rankPositions_exchanged (exchangeable : Exchangeable first second) (prior : Prior α)
    (positions : List Int) :
    space.rankPositions prior positions second =
      (space.rankPositions prior positions first).map
        (Explained.renamed second (Posterior.renamed second)) := by
  simp only [rankPositions, Assessment.ofHypothesis_congr exchangeable]
  cases (positions.mergeSort (· ≤ ·)).mapM fun position => do
      let hypothesis ← space.hypothesis position
      Assessment.ofHypothesis prior second (some position) hypothesis with
  | error fault => rfl
  | ok assessments => exact congrArg Except.ok (Posterior.ofAssessments_renamed first second _)

theorem posterior_exchanged (exchangeable : Exchangeable first second) (prior : Prior α) :
    space.posterior prior second =
      (space.posterior prior first).map (Explained.renamed second (Posterior.renamed second)) := by
  rw [posterior, posterior, consistent_congr exchangeable.values]
  cases (space.consistent second).isEmpty with
  | true => rfl
  | false => exact rankPositions_exchanged exchangeable prior _

theorem posteriorBeliefs_exchanged (exchangeable : Exchangeable first second) (prior : Prior α) :
    space.posteriorBeliefs prior second =
      (space.posteriorBeliefs prior first).map (Explained.renamed second id) := by
  have entries : space.logBeliefs prior first = space.logBeliefs prior second := by
    simp only [logBeliefs, exchangeable.count, consistent_congr exchangeable.values]
  simp only [posteriorBeliefs, entries]
  cases space.logBeliefs prior second with
  | error fault => rfl
  | ok logWeights =>
      simp only [bind, Except.bind]
      cases LogWeights.normalize? logWeights <;> rfl

/-- A ranking of the consistent hypotheses is named after the examples given. -/
theorem examples_posterior {examples : List Nat} {ranking : Posterior α space.domain.size}
    (succeeds : space.posterior prior examples = .ok (.ok ranking)) :
    ranking.examples = examples := by
  rw [posterior] at succeeds
  split at succeeds
  next => cases succeeds
  next =>
    rw [rankPositions] at succeeds
    obtain ⟨assessments, _, succeeds⟩ := Sequence.exists_of_bind_ok succeeds
    exact Posterior.examples_ofAssessments (Except.ok.inj succeeds)

theorem fullCurve_exchanged (exchangeable : Exchangeable first second) (prior : Prior α) :
    space.fullCurve prior second =
      (space.fullCurve prior first).map (Explained.renamed second id) := by
  simp only [fullCurve, curve, posterior_exchanged exchangeable prior]
  cases ranked : space.posterior prior first with
  | error fault => rfl
  | ok answer =>
      cases answer with
      | error missing => rfl
      | ok ranking =>
          have values : ∀ n, n ∈ ranking.examples ↔ n ∈ second := by
            rw [examples_posterior ranked]
            exact exchangeable.values
          have points := funext fun number : Int =>
            congrArg (Prod.mk number) (Posterior.predict_renamed values number)
          simp only [Except.map, Explained.renamed, bind, Except.bind, points]
          rfl

theorem predictions_exchanged (exchangeable : Exchangeable first second) (prior : Prior α) :
    space.predictions prior second =
      (space.predictions prior first).map (Explained.renamed second id) := by
  rw [predictions, predictions, fullCurve_exchanged exchangeable prior]
  rcases space.fullCurve prior first with fault | missing | curve <;> rfl

theorem mostLikely_exchanged (exchangeable : Exchangeable first second) (prior : Prior α)
    (count : Int) :
    space.mostLikely prior second count =
      (space.mostLikely prior first count).map (Explained.renamed second id) := by
  rw [mostLikely, mostLikely, fullCurve_exchanged exchangeable prior]
  rcases space.fullCurve prior first with fault | missing | curve <;> rfl

/-- Over any space and for any prior, exchangeable examples leave the same positions at the last
stage of the filter and give the same answers: rankings of the consistent hypotheses, of the
hypotheses at any positions and of any candidates, the belief vector, the predictions of all numbers
and those most likely to belong. Where nothing explains the one, nothing explains the other. -/
theorem inference_exchanged (space : HypothesisSpace) (prior : Prior α)
    (exchangeable : Exchangeable first second) :
    (space.index.stages (second.map Int.ofNat)).getLast? =
      (space.index.stages (first.map Int.ofNat)).getLast? ∧
    space.posterior prior second =
      (space.posterior prior first).map (Explained.renamed second (.renamed second)) ∧
    (∀ positions, space.rankPositions prior positions second =
      (space.rankPositions prior positions first).map
        (Explained.renamed second (.renamed second))) ∧
    (∀ candidates : List (Hypothesis space.domain.size), Posterior.rank prior candidates second =
      (Posterior.rank prior candidates first).map (Explained.renamed second (.renamed second))) ∧
    space.posteriorBeliefs prior second =
      (space.posteriorBeliefs prior first).map (Explained.renamed second id) ∧
    space.predictions prior second =
      (space.predictions prior first).map (Explained.renamed second id) ∧
    ∀ count, space.mostLikely prior second count =
      (space.mostLikely prior first count).map (Explained.renamed second id) := by
  refine ⟨?_, posterior_exchanged exchangeable prior, rankPositions_exchanged exchangeable prior,
    Posterior.rank_exchanged exchangeable prior, posteriorBeliefs_exchanged exchangeable prior,
    predictions_exchanged exchangeable prior, mostLikely_exchanged exchangeable prior⟩
  rw [getLast?_stages, getLast?_stages, consistent_congr exchangeable.values]

/-- Over twenty numbers and with rounded scalars, 4, 16 and again 4 give the answers of 16, 4 and
again 16, though neither list is the other in another order. -/
theorem inference_exchanged_four_and_sixteen :
    Exchangeable [4, 16, 4] [16, 4, 16] ∧ ¬ [4, 16, 4].Perm [16, 4, 16] ∧
    (base ⟨20, by decide⟩).posterior (.typeWeighted : Prior Float) [16, 4, 16] =
      ((base ⟨20, by decide⟩).posterior .typeWeighted [4, 16, 4]).map
        (Explained.renamed [16, 4, 16] (.renamed [16, 4, 16])) ∧
    (base ⟨20, by decide⟩).posteriorBeliefs (.typeWeighted : Prior Float) [16, 4, 16] =
      ((base ⟨20, by decide⟩).posteriorBeliefs .typeWeighted [4, 16, 4]).map
        (Explained.renamed [16, 4, 16] id) ∧
    (base ⟨20, by decide⟩).mostLikely (.typeWeighted : Prior Float) [16, 4, 16] 5 =
      ((base ⟨20, by decide⟩).mostLikely .typeWeighted [4, 16, 4] 5).map
        (Explained.renamed [16, 4, 16] id) := by
  have exchangeable : Exchangeable [4, 16, 4] [16, 4, 16] := by
    refine ⟨fun n => ?_, rfl⟩
    simp only [List.mem_cons, List.not_mem_nil, or_false]
    omega
  obtain ⟨_, ranked, _, _, believed, _, likely⟩ :=
    inference_exchanged (base ⟨20, by decide⟩) (.typeWeighted : Prior Float) exchangeable
  exact ⟨exchangeable, by decide, ranked, believed, likely 5⟩

end HypothesisSpace

end NumberConcepts
