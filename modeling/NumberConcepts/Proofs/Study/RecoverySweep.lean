import NumberConcepts.Proofs.Simulation
import NumberConcepts.Proofs.Statistics.Records
import NumberConcepts.Study.RecoverySweep
/-!
# What the summaries of a sweep account for

A hypothesis that is recovered has its members recovered, in each trial of a sweep and so
in each summary of trials. The three measures of a trial are grouped under the same key, so
that their rows stand side by side, and a row has as many trials as the sweep asked for.
-/

namespace NumberConcepts

open Exact Statistics

/-! ### Trials -/

/-- Whoever recovers the hypothesis recovers its members. -/
def RecoveryTrial.Consistent (trial : RecoveryTrial Exact) : Prop :=
  ∀ outcome ∈ trial.outcome, outcome.recovered = true → outcome.recoveredMembers = true

/-- One concept has one set of members. -/
theorem HypothesisSpace.recoveredMembers_of_compareTruth {size : Nat} {truth : Hypothesis size}
    {ranking : Posterior Exact size} {outcome : RecoveryOutcome Exact}
    (compared : compareTruth truth ranking = some outcome) (recovered : outcome.recovered = true) :
    outcome.recoveredMembers = true := by
  obtain ⟨best, _, rfl⟩ := Option.map_eq_some_iff.1 compared
  rw [beq_iff_eq] at recovered ⊢
  rw [Hypothesis.concept_injective recovered]

section Trials

variable {σ : Type} [RandomSource Exact σ]

/-- Whatever a trial draws, it is consistent and has the number of examples asked for. -/
theorem HypothesisSpace.recover_ensures (space : HypothesisSpace) (prior : Prior Exact)
    (count : Int) :
    (space.recover prior count : Draw σ (RecoveryTrial Exact)).Ensures fun trial =>
      trial.asked = count ∧ trial.Consistent := by
  refine (Draw.Ensures.trivial _).bind fun drawn _ => ?_
  refine (Draw.Ensures.trivial _).bind fun posterior _ => ?_
  refine .pure ⟨rfl, fun outcome isOutcome => ?_⟩
  cases posterior with
  | ok ranking => exact recoveredMembers_of_compareTruth isOutcome
  | error _ => cases isOutcome

namespace RecoverySweep

/-- The trials with one number of examples. -/
theorem trialsOf_ensures (space : HypothesisSpace) (prior : Prior Exact) (rounds : Nat)
    (count : Int) :
    (trialsOf space prior rounds count : Draw σ (List (SweepTrial Exact))).Ensures fun trials =>
      (trials.map fun trial => trial.asked) = List.replicate rounds count ∧
        ∀ trial ∈ trials, trial.Consistent := by
  refine ((space.recover_ensures prior count).times rounds).bind fun trials ⟨length, hold⟩ => ?_
  refine .pure ⟨?_, fun trial listed => ?_⟩
  · rw [List.eq_replicate_iff, List.length_map, List.length_mapIdx]
    refine ⟨length, fun asked isAsked => ?_⟩
    obtain ⟨trial, listed, rfl⟩ := List.mem_map.1 isAsked
    obtain ⟨position, inRange, rfl⟩ := List.mem_mapIdx.1 listed
    exact (hold _ (List.getElem_mem inRange)).1
  · obtain ⟨position, inRange, rfl⟩ := List.mem_mapIdx.1 listed
    exact (hold _ (List.getElem_mem inRange)).2

/-- A sweep has as many trials with each number of examples as it was asked for. -/
theorem run_ensures (space : HypothesisSpace) (settings : Settings Exact) :
    (run space settings : Draw σ (List (SweepTrial Exact))).Ensures fun trials =>
      (trials.map fun trial => trial.asked) =
        settings.study.exampleCounts.flatMap (List.replicate settings.study.repeats) ∧
      ∀ trial ∈ trials, trial.Consistent := by
  have each := Draw.Ensures.mapM fun count (_ : count ∈ settings.study.exampleCounts) =>
    trialsOf_ensures (σ := σ) space settings.prior settings.study.repeats count
  refine each.bind fun groups areGroups => .pure ?_
  generalize settings.study.exampleCounts = counts at areGroups ⊢
  induction areGroups with
  | nil => exact ⟨rfl, List.forall_mem_nil _⟩
  | cons isGroup _ inductionHypothesis =>
      obtain ⟨asked, consistent⟩ := inductionHypothesis
      rw [List.flatten_cons, List.map_append, isGroup.1, asked, List.flatMap_cons]
      exact ⟨rfl, List.forall_mem_append.2 ⟨isGroup.2, consistent⟩⟩

end RecoverySweep

end Trials

/-! ### Summaries -/

/-- The measures of a summary are about the same trials, as many as were asked for, and the members
are recovered in no lesser share of them than the hypothesis. -/
structure SweepSummary.Fair (summary : SweepSummary Exact) (rounds : Nat) (counts : List Int) :
    Prop where
  keys : summary.memberRecovery.key = summary.recovery.key ∧
    summary.bestProbability.key = summary.recovery.key
  sizes : summary.recovery.count = rounds * counts.count summary.recovery.key ∧
    summary.memberRecovery.count = summary.recovery.count ∧
    summary.bestProbability.count = summary.recovery.count
  shares : ∃ recovered recoveredMembers : ℝ, summary.recovery.mean = real recovered ∧
    summary.memberRecovery.mean = real recoveredMembers ∧
    0 ≤ recovered ∧ recovered ≤ recoveredMembers ∧ recoveredMembers ≤ 1

namespace RecoverySweep

variable {trials : List (SweepTrial Exact)}

/-- The trials under their numbers of examples. -/
def byAsked (trials : List (SweepTrial Exact)) : List (Int × SweepTrial Exact) :=
  trials.map fun trial => (trial.asked, trial)

theorem map_fst_byAsked (trials : List (SweepTrial Exact)) :
    (byAsked trials).map Prod.fst = trials.map fun trial => trial.asked := List.map_map

theorem summarizeBy_eq (measure : SweepTrial Exact → Exact) (trials : List (SweepTrial Exact)) :
    summarizeBy measure trials = (ranksOf (byAsked trials)).map fun count =>
      .ofValues count ((valuesAt (byAsked trials) count).map measure) := by
  rw [summarizeBy, summarizeByNumber_eq_rows, ← rows_map, byAsked, List.map_map]
  rfl

/-- The summaries of the three measures stand side by side. -/
theorem summaries_eq (trials : List (SweepTrial Exact)) :
    summaries trials = (ranksOf (byAsked trials)).map fun count =>
      let chosen := valuesAt (byAsked trials) count
      { recovery := .ofValues count (chosen.map SweepTrial.recovery)
        memberRecovery := .ofValues count (chosen.map SweepTrial.memberRecovery)
        bestProbability := .ofValues count (chosen.map SweepTrial.bestProbability) } := by
  rw [summaries, summarizeBy_eq, summarizeBy_eq, summarizeBy_eq, List.zip_map', List.zipWith_map,
    List.zipWith_self]

/-- Consistent trials recover the members in no lesser share than the hypothesis. -/
theorem exists_shares {chosen : List (SweepTrial Exact)} (given : chosen ≠ [])
    (consistent : ∀ trial ∈ chosen, trial.Consistent) :
    ∃ recovered recoveredMembers : ℝ,
      mean (chosen.map SweepTrial.recovery) = real recovered ∧
      mean (chosen.map SweepTrial.memberRecovery) = real recoveredMembers ∧
      0 ≤ recovered ∧ recovered ≤ recoveredMembers ∧ recoveredMembers ≤ 1 := by
  let recovered := fun trial : SweepTrial Exact => trial.outcome.any RecoveryOutcome.recovered
  let recoveredMembers := fun trial : SweepTrial Exact =>
    trial.outcome.any RecoveryOutcome.recoveredMembers
  have positive : (0 : ℝ) < chosen.length := by exact_mod_cast List.length_pos_iff.2 given
  have fewer : chosen.countP recovered ≤ chosen.countP recoveredMembers := by
    refine List.countP_mono_left fun trial listed isRecovered => ?_
    obtain ⟨outcome, isOutcome, holds⟩ := (Option.any_eq_true _ _).1 isRecovered
    exact (Option.any_eq_true _ _).2
      ⟨outcome, isOutcome, consistent trial listed outcome isOutcome holds⟩
  refine ⟨_, _, mean_map_ite recovered given, mean_map_ite recoveredMembers given, ?_, ?_, ?_⟩
  · positivity
  · gcongr
  · rw [div_le_one positive]
    exact_mod_cast List.countP_le_length

/-- As often as a number stands in a list, a round of its repetitions does. -/
theorem count_flatMap_replicate (rounds : Nat) (counts : List Int) (count : Int) :
    (counts.flatMap (List.replicate rounds)).count count = rounds * counts.count count := by
  induction counts with
  | nil => rfl
  | cons first rest inductionHypothesis =>
      rw [List.flatMap_cons, List.count_append, inductionHypothesis, List.count_cons,
        List.count_replicate, Nat.mul_add, Nat.add_comm]
      split <;> simp

/-- Whatever a sweep draws, there is one summary for each number of examples that it asks for, and
it is fair. -/
theorem summaries_fair {σ : Type} [RandomSource Exact σ] {space : HypothesisSpace}
    {settings : Settings Exact} {state : σ}
    (succeeds : Draw.resultFrom state (run space settings) = .ok trials) :
    ((summaries trials).map fun summary => summary.recovery.key).Pairwise (· < ·) ∧
    (∀ count, count ∈ (summaries trials).map (fun summary => summary.recovery.key) ↔
      count ∈ settings.study.exampleCounts ∧ settings.study.repeats ≠ 0) ∧
    ∀ summary ∈ summaries trials,
      summary.Fair settings.study.repeats settings.study.exampleCounts := by
  obtain ⟨asked, consistent⟩ := run_ensures space settings (Prod.ext succeeds rfl)
  have keys : (summaries trials).map (fun summary => summary.recovery.key) =
      ranksOf (byAsked trials) := by
    rw [summaries_eq, List.map_map]
    exact List.map_id _
  rw [keys]
  refine ⟨(sortedLT_ranksOf _).pairwise, fun count => ?_, ?_⟩
  · rw [mem_ranksOf, map_fst_byAsked, asked, List.mem_flatMap]
    constructor
    · rintro ⟨_, listed, repeated⟩
      obtain ⟨some, rfl⟩ := List.mem_replicate.1 repeated
      exact ⟨listed, some⟩
    · rintro ⟨listed, some⟩
      exact ⟨count, listed, List.mem_replicate.2 ⟨some, rfl⟩⟩
  · rw [summaries_eq, List.forall_mem_map]
    intro count isAsked
    let chosen := valuesAt (byAsked trials) count
    have length : chosen.length =
        settings.study.repeats * settings.study.exampleCounts.count count := by
      rw [length_valuesAt, map_fst_byAsked, asked, count_flatMap_replicate]
    have given : chosen ≠ [] := by
      rw [mem_ranksOf, ← List.count_pos_iff, ← length_valuesAt] at isAsked
      exact List.length_pos_iff.1 isAsked
    have consistent : ∀ trial ∈ chosen, trial.Consistent := by
      intro trial isChosen
      obtain ⟨_, listed, same⟩ := List.mem_map.1 (mem_valuesAt.1 isChosen)
      obtain ⟨_, rfl⟩ := Prod.mk.inj same
      exact consistent _ listed
    refine ⟨⟨rfl, rfl⟩, ⟨(List.length_map _).trans length, ?_, ?_⟩,
      exists_shares given consistent⟩
    · exact (List.length_map _).trans (List.length_map _).symm
    · exact (List.length_map _).trans (List.length_map _).symm

/-- Where some hypothesis has a weight, a sweep has trials. -/
theorem run_yields {σ : Type} [RandomSource Exact σ] {domain : Domain}
    (choosing : RandomSource.Choosing σ) {settings : Settings Exact}
    (finite : settings.prior.FinitelyWeighted)
    (weighty : ∃ hypothesis ∈ (HypothesisSpace.base domain).hypotheses, ∃ logarithm : ℝ,
      settings.prior.logPrior domain.size hypothesis.concept (some hypothesis.count) =
        .ok (.real logarithm)) (state : σ) :
    ∃ trials, Draw.resultFrom state (run (.base domain) settings) = .ok trials := by
  have recovers : ∀ count, ((HypothesisSpace.base domain).recover settings.prior count :
      Draw σ (RecoveryTrial Exact)).Yields fun _ => True := by
    intro count state
    obtain ⟨_, trial, _, succeeds, _⟩ :=
      HypothesisSpace.recover_explains choosing finite weighty count state
    exact ⟨trial, _, Prod.ext succeeds rfl, trivial⟩
  have each : ∀ count ∈ settings.study.exampleCounts,
      (trialsOf (.base domain) settings.prior settings.study.repeats count :
        Draw σ (List (SweepTrial Exact))).Yields fun _ => True := fun count _ =>
    ((recovers count).times settings.study.repeats).bind fun _ _ => .pure trivial
  obtain ⟨groups, after, succeeds, _⟩ := Draw.Yields.mapM each state
  refine ⟨groups.flatten, ?_⟩
  rw [Draw.resultFrom, run, Draw.run_bind succeeds]
  rfl

end RecoverySweep

/-- Records with numbers for keys and values are summarized by their keys without a loss: there is
one summary for each number, increasing, each record counts once, and the number of values times
their mean is their sum. The order of records shows at most in the kind of a key, and not among
integers. In a sweep there is one summary for each number of examples, of as many trials as asked
for, and it recovers the members in no lesser share of them than the hypothesis. -/
theorem summaries_account :
    (∀ (keyName valueName : String) (records : List Datum),
      (∀ record ∈ records, Carries keyName valueName record) →
      ∃ summaries, summarizeRead readExact keyName valueName records = .ok summaries ∧
        Accounts (records.map (saying keyName valueName))
          (summaries.map (GroupSummary.ranked number)) ∧
        ∀ reordered : List Datum, reordered.Perm records →
          ∃ summaries', summarizeRead readExact keyName valueName reordered = .ok summaries' ∧
            summaries'.map (GroupSummary.ranked number) =
              summaries.map (GroupSummary.ranked number) ∧
            ((∀ record ∈ records, ∃ n, keyOf keyName record = .int n) →
              summaries' = summaries)) ∧
    ∀ (σ : Type) [RandomSource Exact σ] (space : HypothesisSpace) (settings : Settings Exact)
      (state : σ) (trials : List (SweepTrial Exact)),
      Draw.resultFrom state (RecoverySweep.run space settings) = .ok trials →
      ((RecoverySweep.summaries trials).map fun summary => summary.recovery.key).Pairwise (· < ·) ∧
      (∀ count,
        count ∈ (RecoverySweep.summaries trials).map (fun summary => summary.recovery.key) ↔
          count ∈ settings.study.exampleCounts ∧ settings.study.repeats ≠ 0) ∧
      ∀ summary ∈ RecoverySweep.summaries trials,
        summary.Fair settings.study.repeats settings.study.exampleCounts := by
  refine ⟨fun keyName valueName records carry => ?_, fun σ _ space settings state trials =>
    RecoverySweep.summaries_fair⟩
  obtain ⟨summaries, succeeds, areRows, keys⟩ := summarizeRead_eq_ok carry
  refine ⟨summaries, succeeds, areRows ▸ accounts_rows _, fun reordered isReordered => ?_⟩
  obtain ⟨summaries', succeeds', areRows', keys'⟩ :=
    summarizeRead_eq_ok fun record listed => carry record (isReordered.subset listed)
  have same : summaries'.map (GroupSummary.ranked number) =
      summaries.map (GroupSummary.ranked number) := by
    rw [areRows, areRows', rows_perm (isReordered.map _)]
  refine ⟨summaries', succeeds', same, fun integers => eq_of_map_ranked_eq same ?_⟩
  intro summary listed
  have isKey : summary.key ∈ records.map (keyOf keyName) := by
    rcases List.mem_append.1 listed with here | there
    · exact (isReordered.map _).subset (keys' summary here)
    · exact keys summary there
  obtain ⟨record, isRecord, same⟩ := List.mem_map.1 isKey
  obtain ⟨n, isInteger⟩ := integers record isRecord
  exact ⟨n, same ▸ isInteger⟩

/-- Three records, and over twenty numbers a sweep that asks twice for two examples: the Mersenne
twister of seed 7 has six trials with these. -/
theorem summaries_account_for_seed_seven :
    let record := fun count value => Datum.record [("n", .int count), ("value", value)]
    let settings : Settings Exact := { (Settings.standard : Settings Exact) with
      prior := .uniform
      study := { Settings.defaultStudy with exampleCounts := [2, 1, 2], repeats := 3 } }
    (∃ summaries, summarizeRead readExact "n" "value"
        [record 2 (.bool true), record 1 (.int 3), record 2 (.int 0)] = .ok summaries ∧
      summarizeRead readExact "n" "value"
        [record 2 (.int 0), record 2 (.bool true), record 1 (.int 3)] = .ok summaries ∧
      (summaries.map fun summary => summary.count).sum = 3) ∧
    ∃ trials, Draw.resultFrom (MersenneTwister.ofSeed 7)
        (RecoverySweep.run (.base ⟨20, by decide⟩) settings) = .ok trials ∧
      ∃ summary ∈ RecoverySweep.summaries trials,
        summary.recovery.key = 2 ∧ summary.recovery.count = 6 := by
  intro record settings
  obtain ⟨account, fair⟩ := summaries_account
  constructor
  · have carry : ∀ count value x, readExact value = .ok x →
        Carries "n" "value" (record count value) := fun count value x read =>
      ⟨⟨.int count, rfl, rfl⟩, value, x, rfl, read⟩
    have all : ∀ {property : Datum → Prop}, property (record 2 (.bool true)) →
        property (record 1 (.int 3)) → property (record 2 (.int 0)) →
        ∀ other ∈ [record 2 (.bool true), record 1 (.int 3), record 2 (.int 0)], property other :=
      fun first second third => List.forall_mem_cons.2
        ⟨first, List.forall_mem_cons.2 ⟨second, List.forall_mem_singleton.2 third⟩⟩
    obtain ⟨summaries, succeeds, accounts, reorders⟩ := account "n" "value" _
      (all (carry 2 _ _ rfl) (carry 1 _ _ rfl) (carry 2 _ _ rfl))
    obtain ⟨summaries', succeeds', _, same⟩ := reorders _ (List.perm_append_singleton _ [_, _]).symm
    rw [same (all ⟨2, rfl⟩ ⟨1, rfl⟩ ⟨2, rfl⟩)] at succeeds'
    refine ⟨summaries, succeeds, succeeds', ?_⟩
    have total := accounts.total
    rwa [List.map_map] at total
  · let domain : Domain := ⟨20, by decide⟩
    let even : Hypothesis 20 := .ofTerminal 20 (.primitive .even)
    have named : Prior.named? "uniform" = some (Prior.uniform : Prior Exact) := rfl
    have listed : even ∈ (HypothesisSpace.base domain).hypotheses :=
      HypothesisSpace.mem_ofConcepts.2 ⟨by decide, NatSet.ne_empty_of_mem (n := 2) (by decide)⟩
    have weighty : ∃ hypothesis ∈ (HypothesisSpace.base domain).hypotheses, ∃ logarithm : ℝ,
        settings.prior.logPrior 20 hypothesis.concept (some hypothesis.count) =
          .ok (.real logarithm) :=
      ⟨even, listed, _, Prior.logPrior_uniform_terminal 20 _ _⟩
    have finite : settings.prior.FinitelyWeighted := .of_named named
    obtain ⟨trials, succeeds⟩ :=
      RecoverySweep.run_yields MersenneTwister.choosing finite weighty (.ofSeed 7)
    obtain ⟨_, keys, areFair⟩ := fair MersenneTwister _ settings (.ofSeed 7) trials succeeds
    obtain ⟨summary, isSummary, isTwo⟩ := List.mem_map.1 ((keys 2).2 ⟨by decide, by decide⟩)
    refine ⟨trials, succeeds, summary, isSummary, isTwo, ?_⟩
    rw [(areFair summary isSummary).sizes.1, isTwo]
    rfl

end NumberConcepts
