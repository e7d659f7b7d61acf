import NumberConcepts.Proofs.CommandLine.Session
import NumberConcepts.Proofs.Sampling
import NumberConcepts.Proofs.Search.Budget
/-!
# How deep concepts are

Two bounds apply to concepts. What a search finds is no deeper than the grammar of its settings
allows, since settings are valid only where the search goes no deeper. Random concepts do
not depend on this bound: they are as deep as any concept may be, and never just a
terminal, even where the grammar of the settings allows no combination.
-/

namespace NumberConcepts

open CommandLine

variable {settings : Settings Float} {strategy : Option String} {depth : Option Int}
  {examples : List Nat}

namespace CommandLine

/-- A depth that is asked for is searched to, and else that of the settings. -/
theorem depth_of_depthOf {found bound : Nat} (succeeds : depthOf settings depth = .ok found)
    (usual : settings.search.maxDepth ≤ bound) (given : ∀ asked ∈ depth, asked ≤ bound) :
    found ≤ bound := by
  cases depth with
  | none => exact Except.ok.inj succeeds ▸ usual
  | some asked =>
      rw [depthOf, Synthesis.checkDepth] at succeeds
      split at succeeds
      next =>
        obtain rfl := Except.ok.inj succeeds
        exact Int.toNat_le.2 (given asked rfl)
      next => cases succeeds

/-- The search of a command has the grammar of the settings and such a depth. -/
theorem depth_of_searchOf {search : Synthesis} {bound : Nat}
    (succeeds : searchOf settings strategy depth = .ok search)
    (usual : settings.search.maxDepth ≤ bound) (given : ∀ asked ∈ depth, asked ≤ bound) :
    search.grammar = settings.searchGrammar ∧ search.depth ≤ bound := by
  rw [searchOf] at succeeds
  obtain ⟨chosen, _, succeeds⟩ := Sequence.exists_of_bind_ok succeeds
  obtain ⟨found, isDepth, succeeds⟩ := Sequence.exists_of_bind_ok succeeds
  obtain rfl := Except.ok.inj succeeds
  exact ⟨rfl, depth_of_depthOf isDepth usual given⟩

/-- The concepts that a command finds are no deeper than the grammar allows, as long as no greater
depth is asked for. -/
theorem depth_of_conceptsOf (valid : settings.Valid)
    (admitted : settings.domain.HasExamples examples)
    (given : ∀ asked ∈ depth, asked ≤ settings.grammar.maxDepth)
    {found : List (Hypothesis settings.domain.size)}
    (succeeds : conceptsOf (.base settings.domain) settings strategy depth examples = .ok found) :
    ∀ hypothesis ∈ found, hypothesis.concept.depth ≤ settings.grammar.maxDepth := by
  rw [conceptsOf] at succeeds
  obtain ⟨search, isSearch, succeeds⟩ := Sequence.exists_of_bind_ok succeeds
  obtain ⟨isGrammar, shallow⟩ := depth_of_searchOf isSearch valid.depth given
  have inRange : search.grammar.InRange := isGrammar ▸ valid.inRange
  obtain ⟨listed, isListed, _, within⟩ :=
    HypothesisSpace.synthesize_within settings.domain search inRange admitted
  obtain rfl := Except.ok.inj (isListed.symm.trans succeeds)
  exact fun hypothesis isFound => (within hypothesis isFound).1.trans shallow

theorem hasExamples_of_examplesOf {text : String}
    (succeeds : examplesOf settings.domain text = .ok examples) :
    settings.domain.HasExamples examples := by
  rw [examplesOf] at succeeds
  obtain ⟨numbers, _, succeeds⟩ := Sequence.exists_of_bind_ok succeeds
  exact Domain.hasExamples_of_validateSome succeeds

variable {line : String} (location : Location) (stamp text : String)

/-- The lines about concepts in a listing are about concepts no deeper than the grammar allows. -/
theorem depth_of_synthesize (valid : settings.Valid)
    (given : ∀ asked ∈ depth, asked ≤ settings.grammar.maxDepth) {limit : Int}
    (listed : line ∈ (Command.perform location (.ok settings) stamp
      (.synthesize text strategy depth limit)).outcome.lines.drop 2) :
    ∃ hypothesis : Hypothesis settings.domain.size, line = conceptLine hypothesis ∧
      hypothesis.concept.depth ≤ settings.grammar.maxDepth := by
  obtain silent | ⟨chosen, examples, areExamples, same⟩ := Command.outcome_ground settings none text
    fun ground => Command.listConcepts ground strategy depth limit
  · rw [Command.perform, silent] at listed
    cases listed
  · rw [Command.perform, same] at listed
    obtain ⟨found, hypothesis, isFound, member, isLine⟩ := Command.mem_listConcepts listed
    have validChosen : Settings.Valid { settings with prior := chosen } :=
      ⟨valid.grammar, valid.depth, valid.results, valid.study⟩
    have within := depth_of_conceptsOf validChosen (hasExamples_of_examplesOf areExamples) given isFound
    exact ⟨hypothesis, isLine, within hypothesis member⟩

/-- So are the lines about concepts in a ranking. -/
theorem depth_of_rank (valid : settings.Valid)
    (given : ∀ asked ∈ depth, asked ≤ settings.grammar.maxDepth) {prior : Option String} {top : Int}
    (listed : line ∈ (Command.perform location (.ok settings) stamp
      (.rank text prior strategy depth top)).outcome.lines.drop 1) :
    ∃ rank, ∃ entry : Ranked Float settings.domain.size, line = rankLine rank entry ∧
      entry.hypothesis.concept.depth ≤ settings.grammar.maxDepth := by
  obtain silent | ⟨chosen, examples, areExamples, same⟩ := Command.outcome_ground settings prior text
    fun ground => Command.rankConcepts ground strategy depth top
  · rw [Command.perform, silent] at listed
    cases listed
  · rw [Command.perform, same] at listed
    obtain ⟨found, posterior, rank, entry, isFound, ranked, isEntry, isLine⟩ :=
      Command.mem_rankConcepts listed
    have validChosen : Settings.Valid { settings with prior := chosen } :=
      ⟨valid.grammar, valid.depth, valid.results, valid.study⟩
    have within := depth_of_conceptsOf validChosen (hasExamples_of_examplesOf areExamples) given isFound
    exact ⟨rank, entry, isLine, within _ (Posterior.mem_of_rank ranked isEntry)⟩

end CommandLine

namespace TrajectorySurvey

/-- The best concept that a survey reports is one of those that its search found. -/
theorem mem_of_findConcepts {α : Type} [Scalar α] {space : HypothesisSpace} {settings : Settings α}
    {found : List (Hypothesis space.domain.size)} {summary : FoundConcepts α}
    {key : String} {probability : α}
    (searched : space.synthesize settings.synthesis examples = .ok found)
    (succeeds : findConcepts space settings examples = .ok summary)
    (isBest : summary.best = some (key, probability)) :
    ∃ hypothesis ∈ found, hypothesis.key = key := by
  rw [findConcepts] at succeeds
  split at succeeds
  next => cases succeeds
  next =>
    obtain ⟨listed, isListed, succeeds⟩ := Sequence.exists_of_bind_ok succeeds
    obtain rfl := Except.ok.inj (searched.symm.trans isListed)
    obtain ⟨answer, ranked, succeeds⟩ := Sequence.exists_of_bind_ok succeeds
    obtain rfl := Except.ok.inj succeeds
    obtain ⟨entry, isHead, same⟩ := Option.map_eq_some_iff.1 isBest
    obtain ⟨posterior, isPosterior, isFirst⟩ := Option.bind_eq_some_iff.1 isHead
    cases answer with
    | error missing => cases isPosterior
    | ok ranking =>
        obtain rfl := Option.some.inj isPosterior
        have isEntry := List.mem_of_mem_head? isFirst
        exact ⟨entry.hypothesis, Posterior.mem_of_rank ranked isEntry, congrArg Prod.fst same⟩

end TrajectorySurvey

/-- How deep the concepts are that settings lead to. -/
structure Settings.BoundsDepth (settings : Settings Float) (σ : Type) [RandomSource Float σ] :
    Prop where
  searched : ∀ examples, settings.domain.HasExamples examples →
    ∃ found, (HypothesisSpace.base settings.domain).synthesize settings.synthesis examples =
        .ok found ∧
      (∀ hypothesis ∈ found, hypothesis.concept.depth ≤ settings.grammar.maxDepth) ∧
      ∀ summary, TrajectorySurvey.findConcepts (.base settings.domain) settings examples =
        .ok summary → ∀ key probability, summary.best = some (key, probability) →
          ∃ hypothesis ∈ found, hypothesis.key = key
  drawn : (Draw.times (Simulation.drawConcept Float settings.searchGrammar settings.domain.size 0)
    settings.study.samples : Draw σ (List Concept)).Yields fun drawn =>
      drawn.length = settings.study.samples ∧ ∀ concept ∈ drawn, concept.depth ≤ Concept.maxDepth
  sampled : ∀ examples, ((HypothesisSpace.base settings.domain).sampledPosterior Float
    settings.searchGrammar settings.study.samples examples : Draw σ _).Yields fun sampled =>
      ∀ posterior, sampled.posterior = .ok posterior → ∀ entry ∈ posterior.entries,
        entry.hypothesis.concept.depth ≤ Concept.maxDepth
  /-- Listed concepts are no deeper than the grammar allows, if no greater depth is asked for. -/
  listed : ∀ location stamp text strategy (depth : Option Int) limit,
    (∀ asked ∈ depth, asked ≤ settings.grammar.maxDepth) →
    ∀ line ∈ (Command.perform location (.ok settings) stamp
        (.synthesize text strategy depth limit)).outcome.lines.drop 2,
      ∃ hypothesis : Hypothesis settings.domain.size, line = conceptLine hypothesis ∧
        hypothesis.concept.depth ≤ settings.grammar.maxDepth
  ranked : ∀ location stamp text prior strategy (depth : Option Int) top,
    (∀ asked ∈ depth, asked ≤ settings.grammar.maxDepth) →
    ∀ line ∈ (Command.perform location (.ok settings) stamp
        (.rank text prior strategy depth top)).outcome.lines.drop 1,
      ∃ rank, ∃ entry : Ranked Float settings.domain.size, line = rankLine rank entry ∧
        entry.hypothesis.concept.depth ≤ settings.grammar.maxDepth

namespace Settings

/-- Valid settings bound the depth of all concepts but the random ones, which have the bound of all
concepts, whatever the source of random numbers. -/
theorem Valid.boundsDepth {σ : Type} [RandomSource Float σ] (valid : settings.Valid)
    (bounded : RandomSource.Bounded Float σ) : settings.BoundsDepth σ where
  searched examples admitted := by
    obtain ⟨found, succeeds, _, within⟩ := HypothesisSpace.synthesize_within settings.domain
      settings.synthesis valid.inRange admitted
    refine ⟨found, succeeds, ?_, ?_⟩
    · exact fun hypothesis isFound => (within hypothesis isFound).1.trans valid.depth
    · intro summary isSummary key probability isBest
      exact TrajectorySurvey.mem_of_findConcepts succeeds isSummary isBest
  drawn := by
    have one := Simulation.drawConcept_yields bounded valid.drawable settings.domain (le_refl 0)
    refine (one.times settings.study.samples).imp fun drawn ⟨length, legal⟩ => ⟨length, ?_⟩
    exact fun concept isDrawn => (legal concept isDrawn).1.2
  sampled examples := by
    have yields := HypothesisSpace.sampledPosterior_yields bounded valid.drawable
      (.base settings.domain) settings.study.samples examples
    refine yields.imp fun sampled legal posterior isPosterior entry isEntry => ?_
    exact (legal posterior isPosterior entry isEntry).1.2
  listed location stamp text _ _ _ given _ := depth_of_synthesize location stamp text valid given
  ranked location stamp text _ _ _ _ given _ := depth_of_rank location stamp text valid given

/-- The standard settings are such settings; for 16, 8, 2 and 64 a survey finds concepts that are no
deeper than any concept may be. -/
theorem boundsDepth_standard :
    (standard : Settings Float).BoundsDepth MersenneTwister ∧
      ∃ found, (HypothesisSpace.base .largest).synthesize (standard : Settings Float).synthesis
          [16, 8, 2, 64] = .ok found ∧
        ∀ hypothesis ∈ found, hypothesis.concept.depth ≤ 3 := by
  have bounds : (standard : Settings Float).BoundsDepth MersenneTwister :=
    valid_standard.boundsDepth (MersenneTwister.bounded Float)
  have admitted : Domain.largest.HasExamples [16, 8, 2, 64] := ⟨by decide, by decide⟩
  obtain ⟨found, succeeds, within, _⟩ := bounds.searched [16, 8, 2, 64] admitted
  exact ⟨bounds, found, succeeds, within⟩

/-- A grammar of four properties, the powers of two and the even numbers, and no combination. -/
def shallowGrammar : GrammarSettings := ⟨(2, 2), (2, 2), 0, false⟩

/-- Settings over two numbers with this grammar. -/
def shallow {α : Type} [Scalar α] : Settings α := { (standard : Settings α) with
  domain := ⟨2, by decide⟩
  grammar := shallowGrammar
  search := ⟨.exact, 0, 1000, 0⟩ }

theorem valid_shallowGrammar : shallowGrammar.Valid where
  powerBases := by decide
  multiples := by decide
  maxDepth := by decide

theorem valid_shallow {α : Type} [Scalar α] : (shallow : Settings α).Valid where
  grammar := valid_shallowGrammar
  depth := Nat.le_refl 0
  results := (by decide : 1 ≤ 1000)
  study := valid_defaultStudy

/-- These settings do not bound everything: the random concepts that they lead to are combinations,
and so is a concept listed for 2 where depth one is asked for. -/
theorem shallow_does_not_bound :
    (∃ concept, Draw.resultFrom (MersenneTwister.ofSeed 42)
        (Simulation.drawConcept Exact (shallow : Settings Exact).searchGrammar 2 0) = .ok concept ∧
      (shallow : Settings Exact).grammar.maxDepth < concept.depth) ∧
    ∃ hypothesis : Hypothesis 2,
      conceptLine hypothesis ∈ (Command.perform defaultSettings (.ok shallow) ""
        (.synthesize "2" none (some 1) 50)).outcome.lines ∧
      (shallow : Settings Float).grammar.maxDepth < hypothesis.concept.depth := by
  constructor
  · have combined := Simulation.drawConcept_yields_combination (MersenneTwister.bounded Exact)
      MersenneTwister.unit_nonneg (valid_shallow : (shallow : Settings Exact).Valid).drawable
      ⟨2, by decide⟩
    obtain ⟨concept, after, succeeds, deep⟩ := combined (.ofSeed 42)
    exact ⟨concept, congrArg Prod.fst succeeds, deep⟩
  · let evenOrOdd : Concept :=
      .combine .union (.terminal (.primitive .even)) (.terminal (.primitive .odd))
    exact ⟨.ofConcept 2 evenOrOdd, by decide +kernel, by decide⟩

end Settings

end NumberConcepts
