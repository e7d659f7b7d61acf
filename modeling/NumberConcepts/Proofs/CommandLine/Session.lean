import NumberConcepts.CommandLine.Response
import NumberConcepts.Proofs.Sequence
/-!
# What commands say

The lines of a session are those of its transcript when it ends. A command about concepts says
at most a few lines of its own; every other line is about a concept that was found. A
session that fails before it leaves its documents behind leaves none.
-/

namespace NumberConcepts.CommandLine

namespace Session

variable {β : Type}

/-- What follows some lines starts with them in the transcript. -/
theorem run_sayAll_bind (lines : List String) (next : Unit → Session β) (transcript : Transcript) :
    (sayAll lines >>= next).run transcript =
      (next ()).run { transcript with spoken := lines.reverse ++ transcript.spoken } := by
  induction lines generalizing transcript with
  | nil => rfl
  | cons line rest inductionHypothesis =>
      rw [List.reverse_cons, List.append_assoc, List.singleton_append]
      exact inductionHypothesis { transcript with spoken := line :: transcript.spoken }

theorem run_sayAll (lines : List String) (transcript : Transcript) :
    (sayAll lines).run transcript =
      (.ok (), { transcript with spoken := lines.reverse ++ transcript.spoken }) := by
  have ends := run_sayAll_bind lines pure transcript
  rwa [bind_pure] at ends

variable {session : Session Unit} {transcript : Transcript}

theorem outcome_of_ok (ends : session.run ⟨[], []⟩ = (.ok (), transcript)) :
    session.outcome = {
      lines := transcript.spoken.reverse
      documents := transcript.documents
      ending := .finished } := by
  rw [outcome, ends]

theorem outcome_of_error {ending : Ending} (ends : session.run ⟨[], []⟩ = (.error ending, transcript)) :
    session.outcome = {
      lines := transcript.spoken.reverse
      documents := transcript.documents
      ending } := by
  rw [outcome, ends]

end Session

namespace Command

/-- Naming a prior changes nothing else in the settings. -/
theorem withPrior_eq_ok {settings chosen : Settings Float} {prior : Option String}
    (succeeds : withPrior settings prior = .ok chosen) :
    ∃ prior, chosen = { settings with prior } := by
  cases prior with
  | none => exact ⟨settings.prior, (Except.ok.inj succeeds).symm⟩
  | some name =>
      rw [withPrior] at succeeds
      obtain ⟨prior, _, succeeds⟩ := Sequence.exists_of_bind_ok succeeds
      exact ⟨prior, (Except.ok.inj succeeds).symm⟩

/-- A task starts with examples of the domain of its settings, which differ from those given at most
in the prior. If there is no ground for it, nothing is said. -/
theorem outcome_ground (settings : Settings Float) (prior : Option String) (text : String)
    (task : Ground → Session Unit) :
    (do task (← ground (.ok settings) prior text)).outcome.lines = [] ∨
      ∃ chosen examples, examplesOf settings.domain text = .ok examples ∧
        (do task (← ground (.ok settings) prior text)).outcome =
          (task ⟨{ settings with prior := chosen }, .base settings.domain, examples⟩).outcome := by
  cases isChosen : withPrior settings prior with
  | error fault =>
      left
      simp only [ground, Session.require, Session.demand, pure_bind, isChosen]
      rfl
  | ok chosen =>
      obtain ⟨chosen, rfl⟩ := withPrior_eq_ok isChosen
      simp only [ground, Session.require, Session.demand, pure_bind, isChosen]
      cases areExamples : examplesOf settings.domain text with
      | error fault => exact .inl rfl
      | ok examples => exact .inr ⟨chosen, examples, rfl, rfl⟩

variable {ground : Ground} {strategy : Option String} {depth : Option Int} {line : String}

/-- Below its first two lines the listing of concepts has only lines about concepts found. -/
theorem mem_listConcepts {limit : Int}
    (listed : line ∈ (listConcepts ground strategy depth limit).outcome.lines.drop 2) :
    ∃ found hypothesis,
      conceptsOf ground.space ground.settings strategy depth ground.examples = .ok found ∧
      hypothesis ∈ found ∧ line = conceptLine hypothesis := by
  cases known : Discovery.constraints ground.settings.searchGrammar
      (ground.examples.map Int.ofNat) with
  | error fault =>
      rw [listConcepts, known] at listed
      cases listed
  | ok constraints =>
      cases succeeds : conceptsOf ground.space ground.settings strategy depth ground.examples with
      | error fault =>
          rw [listConcepts, known, succeeds] at listed
          cases listed
      | ok found =>
          let lines := (Sequence.first limit found).map conceptLine
          have ends : (listConcepts ground strategy depth limit).run ⟨[], []⟩ =
              (.ok (), ⟨lines.reverse ++ ["Found " ++ toString found.length ++ " consistent programs",
                constraintsLine constraints], []⟩) := by
            rw [listConcepts, known, succeeds]
            exact Session.run_sayAll lines ⟨_, []⟩
          rw [Session.outcome_of_ok ends, List.reverse_append, List.reverse_reverse] at listed
          obtain ⟨hypothesis, isFirst, same⟩ := List.mem_map.1 listed
          exact ⟨found, hypothesis, rfl, (Sequence.first_sublist _ _).subset isFirst, same.symm⟩

/-- Below its first line the ranking of concepts has only lines about candidates. -/
theorem mem_rankConcepts {top : Int}
    (listed : line ∈ (rankConcepts ground strategy depth top).outcome.lines.drop 1) :
    ∃ found posterior rank entry,
      conceptsOf ground.space ground.settings strategy depth ground.examples = .ok found ∧
      Posterior.rank ground.settings.prior found ground.examples = .ok (.ok posterior) ∧
      entry ∈ posterior.entries ∧ line = rankLine rank entry := by
  cases succeeds : conceptsOf ground.space ground.settings strategy depth ground.examples with
  | error fault =>
      rw [rankConcepts, succeeds] at listed
      cases listed
  | ok found =>
      -- Nothing is said before the ranking, so a session without one has no lines below the first.
      have continues : (rankConcepts ground strategy depth top).run ⟨[], []⟩ =
          (do
            let posterior ← Session.requireExplained
              (Posterior.rank ground.settings.prior found ground.examples)
            Session.say ("Prior: " ++ ground.settings.prior.name ++ "  Candidates: " ++
              toString posterior.entries.length)
            Session.sayAll ((posterior.top top).mapIdx fun index entry =>
              rankLine (index + 1) entry) : Session Unit).run ⟨[], []⟩ := by
        rw [rankConcepts, succeeds]
        rfl
      cases ranked : Posterior.rank ground.settings.prior found ground.examples with
      | error fault =>
          rw [ranked] at continues
          rw [Session.outcome_of_error continues] at listed
          cases listed
      | ok answer =>
          rw [ranked] at continues
          cases answer with
          | error missing =>
              rw [Session.outcome_of_error continues] at listed
              cases listed
          | ok posterior =>
              let lines := (posterior.top top).mapIdx fun index entry => rankLine (index + 1) entry
              have ends := continues.trans (Session.run_sayAll lines ⟨_, []⟩)
              rw [Session.outcome_of_ok ends, List.reverse_append, List.reverse_reverse] at listed
              obtain ⟨index, isShort, same⟩ := List.mem_mapIdx.1 listed
              have isFirst := List.getElem_mem isShort
              exact ⟨found, posterior, index + 1, _, rfl, ranked,
                (Sequence.first_sublist _ _).subset isFirst, same.symm⟩

end Command

end NumberConcepts.CommandLine
