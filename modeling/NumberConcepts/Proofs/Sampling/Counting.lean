import NumberConcepts.Proofs.Belief.Ranking
import NumberConcepts.Proofs.Belief.Reordering
import NumberConcepts.Proofs.Sampling
/-!
# Random concepts counted

What the posterior over random concepts says of the concepts drawn. Those that fit the
examples are its candidates, each of them once, and the probability is shared out in
proportion to how often a concept was drawn times one chance in its size for each
example. A tally and a roster forget the order of the draws except for that of the
candidates, and these are sorted: `ofDrawn_perm_eq`.
-/

namespace NumberConcepts

open Exact

variable {size : Nat} {examples : List Nat}

/-- A concept fits examples if it has members and all examples are among them. -/
def Concept.Fits (size : Nat) (examples : List Nat) (concept : Concept) : Prop :=
  concept.extension size ≠ ∅ ∧ ∀ n ∈ examples, n ∈ concept.extension size

instance (size : Nat) (examples : List Nat) : DecidablePred (Concept.Fits size examples) :=
  fun _ => inferInstanceAs (Decidable (_ ∧ _))

namespace SampledPosterior

/-- The weight that a concept gets by being drawn: how often it was, times one chance in its size
for each example. A concept that does not fit has none. -/
noncomputable def drawnWeight (size : Nat) (examples : List Nat) (drawn : List Concept)
    (concept : Concept) : ℝ :=
  if concept.Fits size examples then
    drawn.count concept * ((concept.extension size).size : ℝ)⁻¹ ^ examples.length
  else 0

/-- The different concepts among those drawn that fit. -/
def candidates (size : Nat) (examples : List Nat) (drawn : List Concept) : List Concept :=
  (drawn.filter (Concept.Fits size examples)).dedup

theorem mem_candidates {drawn : List Concept} {concept : Concept} :
    concept ∈ candidates size examples drawn ↔ concept ∈ drawn ∧ concept.Fits size examples := by
  rw [candidates, List.mem_dedup, List.mem_filter, decide_eq_true_iff]

/-- The posterior over drawn concepts counts them. -/
structure Counts (sampled : SampledPosterior Exact size) (examples : List Nat)
    (drawn : List Concept) : Prop where
  accepted : sampled.accepted = drawn.countP (Concept.Fits size examples)
  /-- Either none is and there is no posterior, or some are and the posterior shares the probability
  out over the different concepts among them, the candidates in order. -/
  answered : (sampled.accepted = 0 ∧
      sampled.posterior = .error { examples, samples := some (drawn.length : Int) }) ∨
    (0 < sampled.accepted ∧ ∃ posterior, sampled.posterior = .ok posterior ∧
      posterior.Apportions (drawnWeight size examples drawn) (candidates size examples drawn) ∧
      posterior.entries.Pairwise Ranked.StandsBefore)

/-! ### Assessments -/

/-- The draws that are accepted. -/
def acceptedOf (examples : List Nat) (drawn : List (Hypothesis size)) : List (Hypothesis size) :=
  drawn.filter fun hypothesis =>
    !hypothesis.members.isEmpty && hypothesis.containsAll (examples.map Int.ofNat)

/-- The assessments of the different concepts among the accepted draws. -/
noncomputable def assessments (samples : Int) (examples : List Nat)
    (drawn : List (Hypothesis size)) : List (Assessment Exact size) :=
  (Roster.empty.insertAll (acceptedOf examples drawn)).toList.map fun hypothesis =>
    assess samples examples ((tally (acceptedOf examples drawn)).getD hypothesis.concept 0)
      hypothesis

/-- The draws are accepted, assessed and ranked. -/
theorem ofDrawn_eq (samples : Int) (examples : List Nat) (drawn : List (Hypothesis size)) :
    ofDrawn samples examples drawn = {
      samples
      accepted := (acceptedOf examples drawn).length
      posterior := (Posterior.ofAssessments examples (assessments samples examples drawn)).mapError
        fun _ => NoExplanation.mk examples (some samples) } := by
  rw [ofDrawn, Posterior.ofAssessments, assessments, acceptedOf]
  cases (Posterior.ofAssessments? examples _ : Option (Posterior Exact size)) with
  | some posterior => rfl
  | none => rfl

/-- Draws in another order are assessed alike. -/
theorem assessments_perm {first second : List (Hypothesis size)} (reordered : first.Perm second)
    (samples : Int) (examples : List Nat) :
    (assessments samples examples first).Perm (assessments samples examples second) := by
  have accepted : (acceptedOf examples first).Perm (acceptedOf examples second) :=
    reordered.filter _
  have counts : ∀ concept, (tally (acceptedOf examples first)).getD concept 0 =
      (tally (acceptedOf examples second)).getD concept 0 := by
    intro concept
    rw [getD_tally, getD_tally, accepted.countP_eq]
  have none : (Roster.empty : Roster size).toList.Nodup := List.nodup_nil
  have different : (Roster.empty.insertAll (acceptedOf examples first)).toList.Perm
      (Roster.empty.insertAll (acceptedOf examples second)).toList := by
    refine Roster.insertAll_empty_perm (Roster.nodup_insertAll none _) fun hypothesis => ?_
    have notListed : hypothesis ∉ (Roster.empty : Roster size).toList := List.not_mem_nil
    rw [Roster.mem_insertAll, or_iff_right notListed, accepted.mem_iff]
  simp only [assessments, counts]
  exact different.map _

/-- The order of the draws does not show. -/
theorem ofDrawn_perm_eq {first second : List (Hypothesis size)} (reordered : first.Perm second)
    (samples : Int) (examples : List Nat) :
    (ofDrawn samples examples first : SampledPosterior Exact size) =
      ofDrawn samples examples second := by
  have same : Posterior.ofAssessments examples (assessments samples examples first) =
      Posterior.ofAssessments examples (assessments samples examples second) := by
    apply Posterior.ofAssessments_perm_eq (assessments_perm reordered samples examples)
    -- The count in an assessment is that of its concept.
    simp only [assessments, List.forall_mem_map]
    rintro a _ b _ rfl
    rfl
  have accepted : (acceptedOf examples first).Perm (acceptedOf examples second) :=
    reordered.filter _
  rw [ofDrawn_eq, ofDrawn_eq, same, accepted.length_eq]

/-! ### Drawn concepts -/

section Concepts

variable {drawn : List Concept} {concept : Concept}

theorem acceptedOf_map (examples : List Nat) (drawn : List Concept) :
    acceptedOf examples (drawn.map (.ofConcept size)) =
      (drawn.filter (Concept.Fits size examples)).map (.ofConcept size) := by
  rw [acceptedOf, List.filter_map]
  refine congrArg (List.map _) (List.filter_congr fun concept _ => ?_)
  rw [Function.comp_apply, Bool.eq_iff_iff, Bool.and_eq_true, NatSet.not_isEmpty_iff,
    Hypothesis.containsAll, NatSet.containsAll_map_ofNat, decide_eq_true_iff]
  rfl

/-- A concept that fits is accepted as often as it was drawn. -/
theorem getD_tally_acceptedOf (fits : concept.Fits size examples) :
    (tally (acceptedOf examples (drawn.map (.ofConcept size)))).getD concept 0 =
      drawn.count concept := by
  rw [getD_tally, acceptedOf_map, List.countP_map, List.countP_filter, List.count]
  refine List.countP_congr fun other _ => ?_
  rw [Function.comp_apply, Hypothesis.concept_ofConcept, Bool.and_eq_true, beq_iff_eq,
    decide_eq_true_iff, and_iff_left_iff_imp]
  rintro rfl
  exact fits

/-- The candidates are assessed, each by how often it was drawn. -/
theorem assessments_map_perm (samples : Int) (examples : List Nat) (drawn : List Concept) :
    (assessments samples examples (drawn.map (.ofConcept size))).Perm
      ((candidates size examples drawn).map fun concept =>
        assess samples examples (drawn.count concept) (.ofConcept size concept)) := by
  have distinct : ((candidates size examples drawn).map (Hypothesis.ofConcept size)).Nodup :=
    (List.nodup_dedup _).map fun a b same => congrArg Hypothesis.concept same
  have listed :
      (Roster.empty.insertAll (acceptedOf examples (drawn.map (.ofConcept size)))).toList.Perm
        ((candidates size examples drawn).map (.ofConcept size)) := by
    refine Roster.insertAll_empty_perm distinct fun hypothesis => ?_
    rw [acceptedOf_map, candidates, List.mem_map, List.mem_map]
    simp only [List.mem_dedup]
  refine (listed.map _).trans ?_
  rw [List.map_map]
  apply List.Perm.of_eq
  refine List.map_congr_left fun concept isCandidate => ?_
  rw [Function.comp_apply, Hypothesis.concept_ofConcept,
    getD_tally_acceptedOf (mem_candidates.1 isCandidate).2]

/-- A candidate is assessed with its weight, divided by the number of draws. -/
theorem weight_assess (isCandidate : concept ∈ candidates size examples drawn) :
    (assess drawn.length examples (drawn.count concept)
      (.ofConcept size concept) : Assessment Exact size).logWeight.weight =
        drawnWeight size examples drawn concept * (drawn.length : ℝ)⁻¹ := by
  obtain ⟨isDrawn, inhabited, contains⟩ := mem_candidates.1 isCandidate
  have counted : (0 : ℝ) < drawn.count concept := by exact_mod_cast List.count_pos_iff.2 isDrawn
  have some : (0 : ℝ) < drawn.length := by exact_mod_cast List.length_pos_of_mem isDrawn
  have size_pos : 0 < (Hypothesis.ofConcept size concept).count := Hypothesis.count_pos inhabited
  rw [Assessment.logWeight, weight_add, assess, LogWeights.weight_logLikelihood size_pos,
    if_pos rfl, ofNat_eq, ofInt_eq, Int.cast_natCast, real_div_real some.ne',
    log_real (div_pos counted some), weight_real, Real.exp_log (div_pos counted some), drawnWeight,
    if_pos ⟨inhabited, contains⟩, div_mul_eq_mul_div, div_eq_mul_inv, Hypothesis.count_eq]
  rfl

/-- Without draws that fit there is nothing to assess. -/
theorem candidates_eq_nil_iff : candidates size examples drawn = [] ↔
    drawn.countP (Concept.Fits size examples) = 0 := by
  rw [List.eq_nil_iff_forall_not_mem, List.countP_eq_zero]
  simp only [mem_candidates, not_and, decide_eq_true_iff]

/-- The candidates have all the weight there is, divided by the number of draws. -/
theorem sum_weight_assessments (size : Nat) (examples : List Nat) (drawn : List Concept) :
    ((assessments drawn.length examples (drawn.map (.ofConcept size))).map fun assessment =>
      assessment.logWeight.weight).sum =
        ((candidates size examples drawn).map (drawnWeight size examples drawn)).sum *
          (drawn.length : ℝ)⁻¹ := by
  rw [((assessments_map_perm drawn.length examples drawn).map _).sum_eq, List.map_map,
    ← List.sum_map_mul_right]
  exact congrArg List.sum (List.map_congr_left fun concept => weight_assess)

theorem drawnWeight_nonneg (concept : Concept) : 0 ≤ drawnWeight size examples drawn concept := by
  rw [drawnWeight]
  positivity

theorem drawnWeight_pos (isCandidate : concept ∈ candidates size examples drawn) :
    0 < drawnWeight size examples drawn concept := by
  obtain ⟨isDrawn, fits⟩ := mem_candidates.1 isCandidate
  have counted : (0 : ℝ) < drawn.count concept := by exact_mod_cast List.count_pos_iff.2 isDrawn
  obtain ⟨n, member⟩ := NatSet.exists_mem_of_ne_empty fits.1
  have size_pos : (0 : ℝ) < (concept.extension size).size := by
    exact_mod_cast NatSet.size_pos_of_mem member
  rw [drawnWeight, if_pos fits]
  positivity

/-- Each candidate is ranked with the share of its weight, whatever the weight of all is. -/
theorem shares_assessments (total : ℝ) (some : drawn ≠ []) :
    (((assessments drawn.length examples (drawn.map (.ofConcept size))).map
      (Ranked.ofTotal (total * (drawn.length : ℝ)⁻¹))).map fun entry =>
        (entry.hypothesis.concept, entry.probability)).Perm
    ((candidates size examples drawn).map fun concept =>
      (concept, real (drawnWeight size examples drawn concept / total))) := by
  have scale : ((drawn.length : ℝ)⁻¹) ≠ 0 := by simpa using some
  refine (((assessments_map_perm drawn.length examples drawn).map _).map _).trans ?_
  rw [List.map_map, List.map_map]
  apply List.Perm.of_eq
  refine List.map_congr_left fun concept isCandidate => ?_
  simp only [Function.comp_apply, Ranked.ofTotal, weight_assess isCandidate,
    mul_div_mul_right _ _ scale]
  rfl

/-- Whatever was drawn, the posterior counts it. -/
theorem counts_ofDrawn (size : Nat) (examples : List Nat) (drawn : List Concept) :
    (ofDrawn drawn.length examples (drawn.map (.ofConcept size)) :
      SampledPosterior Exact size).Counts examples drawn := by
  let weight := drawnWeight size examples drawn
  let concepts := candidates size examples drawn
  let total := (concepts.map weight).sum
  have accepted : (acceptedOf examples (drawn.map (Hypothesis.ofConcept size))).length =
      drawn.countP (Concept.Fits size examples) := by
    rw [acceptedOf_map, List.length_map, List.countP_eq_length_filter]
  have isTotal := sum_weight_assessments size examples drawn
  rw [ofDrawn_eq]
  refine ⟨accepted, ?_⟩
  dsimp only
  rw [accepted]
  by_cases none : concepts = []
  · left
    have weightless : total * (drawn.length : ℝ)⁻¹ = 0 := by simp [total, none]
    rw [Posterior.ofAssessments_eq_error examples (isTotal.trans weightless)]
    exact ⟨candidates_eq_nil_iff.1 none, rfl⟩
  · right
    obtain ⟨concept, isCandidate⟩ := List.exists_mem_of_ne_nil concepts none
    have isDrawn := (mem_candidates.1 isCandidate).1
    have some : drawn ≠ [] := List.ne_nil_of_mem isDrawn
    have nonnegative : ∀ value ∈ concepts.map weight, 0 ≤ value :=
      List.forall_mem_map.2 fun concept _ => drawnWeight_nonneg concept
    have positive : 0 < total := (drawnWeight_pos isCandidate).trans_le
      (List.single_le_sum nonnegative _ (List.mem_map_of_mem isCandidate))
    have scaled : total * (drawn.length : ℝ)⁻¹ ≠ 0 :=
      mul_ne_zero positive.ne' (by simpa using some)
    have inhabited : concepts.filter (fun concept => concept.extension size ≠ ∅) = concepts :=
      List.filter_eq_self.2 fun concept isCandidate =>
        decide_eq_true (mem_candidates.1 isCandidate).2.1
    have empties : ∀ concept : Concept, concept.extension size = ∅ → weight concept = 0 :=
      fun concept empty => if_neg fun fits => fits.1 empty
    have numbers := Posterior.exists_probability_ofTotal (total * (drawn.length : ℝ)⁻¹)
      (assessments drawn.length examples (drawn.map (.ofConcept size)))
    rw [Posterior.ofAssessments_eq_ok examples isTotal scaled]
    refine ⟨List.countP_pos_iff.2 ⟨concept, isDrawn, ?_⟩, _, rfl, ?_, ?_⟩
    · exact decide_eq_true (mem_candidates.1 isCandidate).2
    · refine Posterior.apportions_of_shares ?_ drawnWeight_nonneg empties positive.ne'
        (Ranked.pairwise_place numbers)
      rw [inhabited]
      exact ((List.mergeSort_perm _ _).map _).trans (shares_assessments total some)
    · exact Ranked.pairwise_standsBefore numbers

end Concepts

end SampledPosterior

namespace HypothesisSpace

/-- Where concepts are drawn, they are as many as asked for, and the answer is the posterior over
them; from a grammar whose choices are never empty they are drawn from every state. Over whatever
concepts it is, the posterior counts them: it exists exactly where some fit, its candidates are the
different ones among these, each once and in order, and the probability is in proportion to how
often a concept was drawn times one chance in its size for each example. The order of the draws
does not show. -/
theorem sampledPosterior_counts {σ : Type} [RandomSource Exact σ] (grammar : Grammar)
    (space : HypothesisSpace) (samples : Nat) (examples : List Nat) :
    (∀ (state : σ) (drawn : List Concept),
      Draw.resultFrom state (Draw.times
        (Simulation.drawConcept Exact grammar space.domain.size 0) samples) = .ok drawn →
      drawn.length = samples ∧
      Draw.resultFrom state (space.sampledPosterior Exact grammar samples examples) =
        .ok (.ofDrawn samples examples (drawn.map (.ofConcept space.domain.size)))) ∧
    (RandomSource.Bounded Exact σ → grammar.Drawable → ∀ state : σ, ∃ drawn : List Concept,
      Draw.resultFrom state (Draw.times
        (Simulation.drawConcept Exact grammar space.domain.size 0) samples) = .ok drawn) ∧
    ∀ drawn : List Concept, drawn.length = samples →
      (SampledPosterior.ofDrawn samples examples (drawn.map (.ofConcept space.domain.size)) :
        SampledPosterior Exact space.domain.size).Counts examples drawn ∧
      ∀ reordered : List Concept, reordered.Perm drawn →
        (SampledPosterior.ofDrawn samples examples
          (reordered.map (.ofConcept space.domain.size)) :
            SampledPosterior Exact space.domain.size) =
          .ofDrawn samples examples (drawn.map (.ofConcept space.domain.size)) := by
  refine ⟨fun state drawn succeeds => ?_, fun bounded drawable state => ?_, ?_⟩
  · obtain ⟨after, ran⟩ : ∃ after, (Draw.times
        (Simulation.drawConcept Exact grammar space.domain.size 0) samples).run state =
          (.ok drawn, after) := ⟨_, Prod.ext succeeds rfl⟩
    obtain ⟨length, _⟩ := (Draw.Ensures.trivial _).times samples ran
    refine ⟨length, ?_⟩
    rw [Draw.resultFrom, sampledPosterior, Int.toNat_natCast, Draw.run_bind ran]
    rfl
  · have one := Simulation.drawConcept_yields bounded drawable space.domain (le_refl 0)
    obtain ⟨drawn, _, succeeds, _⟩ := one.times samples state
    exact ⟨drawn, congrArg Prod.fst succeeds⟩
  · rintro drawn rfl
    exact ⟨SampledPosterior.counts_ofDrawn _ examples drawn, fun _ isReordered =>
      SampledPosterior.ofDrawn_perm_eq (isReordered.map _) _ examples⟩

/-- Over twelve numbers the Mersenne twister of seed 7 draws four concepts, which are counted for 4
and again 4. Of four other ones, in either order, one is drawn twice, one once, and one lacks the
examples. -/
theorem sampledPosterior_counts_over_twelve :
    let even : Concept := .terminal (.primitive .even)
    let squares : Concept := .terminal (.primitive .square)
    let odd : Concept := .terminal (.primitive .odd)
    let either : Concept := .combine .union even squares
    let both : Concept := .combine .intersect even squares
    let drawn : List Concept := [either, both, either, .combine .intersect odd squares]
    (∃ draws : List Concept, draws.length = 4 ∧
      Draw.resultFrom (MersenneTwister.ofSeed 7)
        ((base ⟨12, by decide⟩).sampledPosterior Exact .standard (4 : Nat) [4, 4]) =
          .ok (.ofDrawn (4 : Nat) [4, 4] (draws.map (.ofConcept 12)))) ∧
    ∃ posterior : Posterior Exact 12,
      (SampledPosterior.ofDrawn (4 : Nat) [4, 4] (drawn.map (.ofConcept 12))).posterior =
        .ok posterior ∧
      posterior.Apportions (SampledPosterior.drawnWeight 12 [4, 4] drawn) [both, either] ∧
      posterior.entries.Pairwise Ranked.StandsBefore ∧
      (SampledPosterior.ofDrawn (4 : Nat) [4, 4] (drawn.reverse.map (.ofConcept 12))).posterior =
        .ok posterior := by
  intro even squares odd either both drawn
  have drawable : Grammar.standard.Drawable := ⟨⟨by decide, by decide⟩, by decide, by decide⟩
  obtain ⟨answers, draws, counts⟩ := sampledPosterior_counts (σ := MersenneTwister) .standard
    (base ⟨12, by decide⟩) 4 [4, 4]
  obtain ⟨first, isDrawn⟩ := draws (MersenneTwister.bounded Exact) drawable (.ofSeed 7)
  obtain ⟨length, answer⟩ := answers _ first isDrawn
  obtain ⟨counted, reorders⟩ := counts drawn rfl
  refine ⟨⟨first, length, answer⟩, ?_⟩
  have fits : drawn.countP (Concept.Fits 12 [4, 4]) = 3 := by decide +kernel
  have different : SampledPosterior.candidates 12 [4, 4] drawn = [both, either] := by
    decide +kernel
  have accepted := counted.accepted.trans fits
  obtain ⟨none, _⟩ | ⟨_, posterior, answered, apportions, sorted⟩ := counted.answered
  · rw [accepted] at none
    cases none
  · have turned := reorders drawn.reverse (List.reverse_perm drawn)
    exact ⟨posterior, answered, different ▸ apportions, sorted, turned ▸ answered⟩

end HypothesisSpace

end NumberConcepts
