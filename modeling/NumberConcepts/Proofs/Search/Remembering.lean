import NumberConcepts.Search.Covering
/-!
# Remembered answers

The guided search gives the same answers with its memory as without one.
`Memory.Sound` is the invariant: every remembered answer is the fresh one. A
search that starts in a sound memory `Agrees` with one that has none, and leaves
a sound memory behind.
-/

namespace NumberConcepts.Covering

variable {size : Nat} {α β : Type} {problem : Problem size}

/-- Every remembered answer is the one found without a memory. -/
def Memory.Sound (problem : Problem size) (memory : Memory size) : Prop :=
  ∀ target depth answer, memory.lookup (target, depth) = some answer →
    fresh problem depth target = .ok answer

/-- An empty memory is sound. -/
theorem Memory.Sound.empty : Memory.Sound problem [] := by
  intro target depth answer remembered
  cases remembered

/-- A fresh answer keeps the memory sound. -/
theorem Memory.Sound.cons {memory : Memory size} (sound : memory.Sound problem) {target : NatSet}
    {depth : Nat} {answer : List (Hypothesis size)} (isFresh : fresh problem depth target = .ok answer) :
    Memory.Sound problem (((target, depth), answer) :: memory) := by
  intro target' depth' answer' remembered
  rw [List.lookup_cons] at remembered
  split at remembered
  next same =>
    obtain ⟨rfl, rfl⟩ := Prod.mk.inj (eq_of_beq same)
    rw [isFresh, Option.some.inj remembered]
  next => exact sound target' depth' answer' remembered

/-- An answer at hand is returned, and any other one is found and then remembered. -/
theorem run_remembering (target : NatSet) (depth : Nat) (search : Search size (List (Hypothesis size)))
    (memory : Memory size) :
    (remembering target depth search).run memory =
      match memory.lookup (target, depth) with
      | some answer => .ok (answer, memory)
      | none => (search.run memory).map fun found =>
          (found.1, ((target, depth), found.1) :: found.2) := by
  simp only [remembering, StateT.run_bind, StateT.run_get, pure_bind]
  cases memory.lookup (target, depth) with
  | some answer => rfl
  | none =>
      simp only [StateT.run_bind]
      cases search.run memory <;> rfl

/-- From every sound memory the search ends as expected, in a sound memory unless it fails. -/
def Agrees (problem : Problem size) (search : Search size α) (expected : Except Fault α) : Prop :=
  ∀ memory, Memory.Sound problem memory →
    match expected with
    | .ok result => ∃ later, Memory.Sound problem later ∧ search.run memory = .ok (result, later)
    | .error fault => search.run memory = .error fault

namespace Agrees

theorem pure (result : α) : Agrees problem (Pure.pure result) (.ok result) := by
  intro memory sound
  exact ⟨memory, sound, rfl⟩

/-- A step that uses no memory agrees with itself. -/
theorem lift (step : Except Fault α) : Agrees problem (liftM step) step := by
  intro memory sound
  cases step with
  | error fault => rfl
  | ok result => exact ⟨memory, sound, rfl⟩

/-- Searches that agree one by one agree in sequence. -/
theorem bind {search : Search size α} {expected : Except Fault α} {next : α → Search size β}
    {nextExpected : α → Except Fault β} (first : Agrees problem search expected)
    (second : ∀ result, Agrees problem (next result) (nextExpected result)) :
    Agrees problem (search >>= next) (expected >>= nextExpected) := by
  intro memory sound
  have ran := first memory sound
  cases expected with
  | error fault =>
      have failed : search.run memory = .error fault := ran
      simp only [StateT.run_bind, failed]
      rfl
  | ok result =>
      obtain ⟨later, soundLater, succeeded⟩ := ran
      simp only [StateT.run_bind, succeeded]
      exact second result later soundLater

/-- Searches that agree for every entry agree for the list. -/
theorem mapM {step : α → Search size β} {expected : α → Except Fault β}
    (each : ∀ entry, Agrees problem (step entry) (expected entry)) (entries : List α) :
    Agrees problem (entries.mapM step) (entries.mapM expected) := by
  induction entries with
  | nil => exact pure []
  | cons first rest inductionHypothesis =>
      rw [List.mapM_cons, List.mapM_cons]
      apply bind (each first)
      intro result
      apply bind inductionHypothesis
      intro results
      exact pure (result :: results)

/-- A search for a fresh answer still agrees when its answer is remembered. -/
theorem remembering {target : NatSet} {depth : Nat} {search : Search size (List (Hypothesis size))}
    (agrees : Agrees problem search (fresh problem depth target)) :
    Agrees problem (remembering target depth search) (fresh problem depth target) := by
  intro memory sound
  have ran := agrees memory sound
  rw [run_remembering]
  cases known : memory.lookup (target, depth) with
  | some answer =>
      rw [sound target depth answer known]
      exact ⟨memory, sound, rfl⟩
  | none =>
      cases isFresh : fresh problem depth target with
      | error fault =>
          rw [isFresh] at ran
          simp only [ran, Except.map]
      | ok answer =>
          rw [isFresh] at ran
          obtain ⟨later, soundLater, succeeded⟩ := ran
          refine ⟨_, soundLater.cons isFresh, ?_⟩
          simp only [succeeded, Except.map]

/-- Where a result is expected, the search has it and keeps the memory sound. -/
theorem exists_run {search : Search size α} {expected : Except Fault α}
    (agrees : Agrees problem search expected) {memory : Memory size} (sound : memory.Sound problem)
    {result : α} (succeeds : expected = .ok result) :
    ∃ later, Memory.Sound problem later ∧ search.run memory = .ok (result, later) := by
  subst succeeds
  exact agrees memory sound

/-- A search that agrees and succeeds has the expected result and keeps the memory sound. -/
theorem of_run {search : Search size α} {expected : Except Fault α}
    (agrees : Agrees problem search expected) {memory later : Memory size} {result : α}
    (sound : memory.Sound problem) (ran : search.run memory = .ok (result, later)) :
    expected = .ok result ∧ later.Sound problem := by
  have expectedRan := agrees memory sound
  cases expected with
  | error fault =>
      have failed : search.run memory = .error fault := expectedRan
      rw [failed] at ran
      cases ran
  | ok result' =>
      obtain ⟨later', soundLater, succeeded⟩ := expectedRan
      obtain ⟨rfl, rfl⟩ := Prod.mk.inj (Except.ok.inj (succeeded.symm.trans ran))
      exact ⟨rfl, soundLater⟩

end Agrees

/-- The search with a memory agrees with the one without. -/
theorem covering_agrees (depth : Nat) (target : NatSet) :
    Agrees problem (covering problem depth target) (fresh problem depth target) := by
  induction depth generalizing target with
  | zero => exact .remembering (.lift _)
  | succ depth inductionHypothesis =>
      apply Agrees.remembering
      apply Agrees.bind (inductionHypothesis target)
      intro below
      apply Agrees.bind (.lift _)
      intro parts
      refine Agrees.bind (.mapM ?_ parts) fun found => .pure _
      intro left
      exact .bind (inductionHypothesis _) fun rights => .pure _

/-- Without the memory the concepts that cover the examples are the same, and so are the faults. -/
theorem ofExamples_eq (size : Nat) (grammar : Grammar) (depth : Nat) (examples : List Nat) :
    ofExamples size grammar depth examples =
      (problemOf size grammar (examples.map Int.ofNat) >>= fun problem =>
        fresh problem depth (NatSet.ofList examples)) := by
  rw [ofExamples]
  congr 1
  funext problem
  have agrees : Agrees problem _ _ := covering_agrees depth (NatSet.ofList examples)
  cases isFresh : fresh problem depth (NatSet.ofList examples) with
  | error fault =>
      have ran := agrees [] .empty
      rw [isFresh] at ran
      simp only [ran]
      rfl
  | ok found =>
      obtain ⟨later, _, succeeded⟩ := agrees.exists_run .empty isFresh
      rw [succeeded]
      rfl

end NumberConcepts.Covering
