import NumberConcepts.Proofs.Search.Refinement
/-!
# The promise of the guided search

At every target made of examples the guided search keeps its promise, whatever has
been searched before: it calls itself only on targets that lie below, and it lists
concepts that cover the target, each of them once and none of them too deep, just
as it would without a memory. To speak of its calls, `expand` is one node of the
search over any other search that answers them, and `descending` refuses the calls
that do not go down. `guided_keeps_promise` says all of it of the search for some
examples, and that the last look at them drops nothing.
-/

namespace NumberConcepts

namespace Covering

variable {size : Nat} {problem : Problem size} {domain : Domain} {grammar : Grammar}
  {examples : List Nat} {target : NatSet}

/-! ### Calls -/

/-- One node of the search: what it makes of the answers to its calls. -/
def expand (problem : Problem size) (ask : Nat → NatSet → Search size (List (Hypothesis size))) :
    Nat → NatSet → Search size (List (Hypothesis size))
  | 0, target => (Terminals.covering problem.grammar problem.intervals target : Except Fault _)
  | depth + 1, target => do
    let below ← ask depth target
    let parts ← (Terminals.partlyCovering problem.grammar target : Except Fault _)
    let found ← parts.mapM fun left => do
      return unions left (← ask depth (residual target left))
    return combined below found.flatten

/-- The search is its own answer to the calls of each node. -/
theorem covering_eq_expand (depth : Nat) (target : NatSet) :
    covering problem depth target =
      remembering target depth (expand problem (covering problem) depth target) := by
  cases depth <;> rfl

/-- A call goes down when it is made with a lesser depth for the same target, or for a part of it
that is neither empty nor all of it. -/
def Descends (depth : Nat) (target : NatSet) (depth' : Nat) (target' : NatSet) : Prop :=
  depth' < depth ∧ (target' = target ∨ (target' ≠ ∅ ∧ target' ⊆ target ∧ target' ≠ target))

instance (depth : Nat) (target : NatSet) (depth' : Nat) (target' : NatSet) :
    Decidable (Descends depth target depth' target') :=
  inferInstanceAs (Decidable (_ ∧ _))

/-- The answers to the calls of a node that go down; all others end the search with a refusal. -/
def descending (refusal : Fault) (ask : Nat → NatSet → Search size (List (Hypothesis size)))
    (depth : Nat) (target : NatSet) (depth' : Nat) (target' : NatSet) :
    Search size (List (Hypothesis size)) :=
  if Descends depth target depth' target' then ask depth' target'
  else (.error refusal : Except Fault _)

/-- What a terminal that splits a target leaves of it is a part to go down to. -/
theorem descends_residual (posed : TargetOf examples target) {leaf : Terminal}
    (splits : leaf.Splits size target) (depth : Nat) :
    Descends (depth + 1) target depth (residual target (.ofTerminal size leaf)) := by
  refine ⟨Nat.lt_succ_self depth, .inr ⟨(targetOf_residual posed splits).inhabited, ?_, ?_⟩⟩
  · rw [NatSet.subset_iff]
    exact fun n left => (NatSet.mem_sdiff.1 left).1
  · intro all
    obtain ⟨hit, both⟩ := NatSet.exists_mem_of_ne_empty splits.some
    obtain ⟨belongs, isTarget⟩ := NatSet.mem_inter.1 both
    rw [← all] at isTarget
    exact (NatSet.mem_sdiff.1 isTarget).2 belongs

/-- At a target made of examples no call is refused. -/
theorem expand_descending (inRange : grammar.InRange) (admitted : domain.HasExamples examples)
    (posed : TargetOf examples target) (refusal : Fault)
    (ask : Nat → NatSet → Search domain.size (List (Hypothesis domain.size))) (depth : Nat) :
    expand (problemAround domain grammar examples) (descending refusal ask depth target) depth
      target = expand (problemAround domain grammar examples) ask depth target := by
  cases depth with
  | zero => rfl
  | succ depth =>
      obtain ⟨leaves, isPartly, members⟩ :=
        Terminals.partlyCovering_eq_ok inRange (posed.inside admitted)
      have same : descending refusal ask (depth + 1) target depth target = ask depth target :=
        if_pos ⟨Nat.lt_succ_self depth, .inl rfl⟩
      have parts : ∀ left ∈ leaves.map (Hypothesis.ofTerminal domain.size),
          descending refusal ask (depth + 1) target depth (residual target left) =
            ask depth (residual target left) := by
        intro left listed
        obtain ⟨leaf, isLeaf, rfl⟩ := List.mem_map.1 listed
        exact if_pos (descends_residual posed ((members leaf).1 isLeaf).2 depth)
      have sameGrammar : (problemAround domain grammar examples).grammar = grammar := rfl
      have listed : (liftM (Except.ok (leaves.map (Hypothesis.ofTerminal domain.size)) :
          Except Fault _) : Search domain.size _) = pure _ := rfl
      simp only [expand, same, sameGrammar, isPartly, listed, pure_bind]
      congr 1
      funext below
      congr 1
      exact Sequence.mapM_congr fun left isPart => by rw [parts left isPart]

/-! ### Earlier calls -/

/-- Searches for some depths and targets, one after the other with one memory. -/
def coverings (problem : Problem size) (requests : List (Nat × NatSet)) :
    Search size (List (List (Hypothesis size))) :=
  requests.mapM fun request => covering problem request.1 request.2

/-- Each search in a sequence lists what it would list alone and without a memory. -/
theorem coverings_agree (requests : List (Nat × NatSet)) :
    Agrees problem (coverings problem requests)
      (requests.mapM fun request => fresh problem request.1 request.2) :=
  .mapM (fun request => covering_agrees request.1 request.2) requests

/-- Searches for targets made of examples all come to an end, and each answer is the fresh one. -/
theorem exists_run_coverings (inRange : grammar.InRange) (admitted : domain.HasExamples examples)
    {requests : List (Nat × NatSet)}
    (posed : ∀ request ∈ requests, TargetOf examples request.2) :
    ∃ answers memory,
      (coverings (problemAround domain grammar examples) requests).run [] = .ok (answers, memory) ∧
      List.Forall₂ (fun request answer =>
        fresh (problemAround domain grammar examples) request.1 request.2 = .ok answer)
        requests answers := by
  have each : ∀ request ∈ requests, ∃ answer,
      fresh (problemAround domain grammar examples) request.1 request.2 = .ok answer ∧
      fresh (problemAround domain grammar examples) request.1 request.2 = .ok answer := by
    intro request asked
    obtain ⟨answer, isFresh, _⟩ := fresh_eq_ok inRange admitted request.1 (posed request asked)
    exact ⟨answer, isFresh, isFresh⟩
  obtain ⟨answers, succeeds, areFresh⟩ := Sequence.mapM_forall₂_ok each
  obtain ⟨memory, _, ran⟩ := (coverings_agree requests).exists_run .empty succeeds
  exact ⟨answers, memory, ran, areFresh⟩

/-! ### The promise -/

/-- What the search lists for a target, up to a depth. -/
structure Lists (problem : Problem size) (depth : Nat) (target : NatSet)
    (found : List (Hypothesis size)) : Prop where
  fresh : fresh problem depth target = .ok found
  /-- It is what the search lists after any earlier calls that came to an end. -/
  remembered : ∀ requests answers memory,
    (coverings problem requests).run [] = .ok (answers, memory) →
      ∃ later, (covering problem depth target).run memory = .ok (found, later)
  distinct : (found.map fun hypothesis => hypothesis.concept).Nodup
  shallow : ∀ hypothesis ∈ found, hypothesis.concept.depth ≤ depth
  inhabited : ∀ hypothesis ∈ found, hypothesis.concept.extension size ≠ ∅
  contains : ∀ hypothesis ∈ found, target ⊆ hypothesis.concept.extension size

/-- The search keeps its promise for a target, up to a depth. -/
structure KeepsPromise (problem : Problem size) (depth : Nat) (target : NatSet) : Prop where
  /-- All calls that it makes itself go down: none is refused, whatever the refusal. -/
  descends : ∀ refusal, covering problem depth target = remembering target depth
    (expand problem (descending refusal (covering problem) depth target) depth target)
  lists : ∃ found, Lists problem depth target found

/-- The search keeps its promise for every target made of examples, at every depth. -/
theorem keepsPromise (distinct : grammar.Distinct) (inRange : grammar.InRange)
    (admitted : domain.HasExamples examples) (posed : TargetOf examples target) (depth : Nat) :
    KeepsPromise (problemAround domain grammar examples) depth target where
  descends refusal := by
    rw [expand_descending inRange admitted posed, ← covering_eq_expand]
  lists := by
    obtain ⟨found, isFresh, members⟩ := fresh_eq_ok inRange admitted depth posed
    have contains : ∀ hypothesis ∈ found,
        target ⊆ hypothesis.concept.extension domain.size := by
      intro hypothesis listed
      rw [← hypothesis.members_eq, NatSet.subset_iff]
      exact ((members hypothesis).1 listed).contains
    refine ⟨found, ?_⟩
    constructor
    case fresh => exact isFresh
    case remembered =>
      intro requests answers memory ran
      have sound := ((coverings_agree requests).of_run .empty ran).2
      obtain ⟨later, _, succeeds⟩ := (covering_agrees depth target).exists_run sound isFresh
      exact ⟨later, succeeds⟩
    case distinct =>
      exact (nodup_of_fresh distinct inRange admitted posed isFresh).map Hypothesis.concept_injective
    case shallow => exact fun hypothesis listed => ((members hypothesis).1 listed).depth_le
    case inhabited =>
      intro hypothesis listed
      obtain ⟨n, isTarget⟩ := NatSet.exists_mem_of_ne_empty posed.inhabited
      exact NatSet.ne_empty_of_mem (NatSet.subset_iff.1 (contains hypothesis listed) n isTarget)
    case contains => exact contains

end Covering

namespace HypothesisSpace

variable {grammar : Grammar} {examples : List Nat}

/-- The guided search for some examples keeps its promise at every part of them, after any earlier
calls. Calls for parts of them, one after the other, all come to an end with the fresh answers. So
the last look at the examples drops nothing. -/
theorem guided_keeps_promise (space : HypothesisSpace) (distinct : grammar.Distinct)
    (inRange : grammar.InRange) (admitted : space.domain.HasExamples examples) :
    ∃ problem, Covering.problemOf space.domain.size grammar (examples.map Int.ofNat) = .ok problem ∧
      (∀ depth target, TargetOf examples target → Covering.KeepsPromise problem depth target) ∧
      (∀ requests, (∀ request ∈ requests, TargetOf examples request.2) →
        ∃ answers memory, (Covering.coverings problem requests).run [] = .ok (answers, memory) ∧
          List.Forall₂ (fun request answer =>
            Covering.fresh problem request.1 request.2 = .ok answer) requests answers) ∧
      ∀ strategy depth, ∃ found,
        Covering.ofExamples space.domain.size grammar depth examples = .ok found ∧
        found.filter (fun hypothesis => hypothesis.containsAll (examples.map Int.ofNat)) = found ∧
        ∀ limit, space.searchGuided { strategy, grammar, depth, limit } examples =
          .ok (found.take limit) := by
  refine ⟨_, Covering.problemOf_eq_ok admitted grammar, ?_, ?_, ?_⟩
  · intro depth target posed
    exact Covering.keepsPromise distinct inRange admitted posed depth
  · intro requests posed
    exact Covering.exists_run_coverings inRange admitted posed
  · intro strategy depth
    obtain ⟨found, isFound, members, lists⟩ := searchGuided_eq_ok inRange admitted depth
    refine ⟨found, ?_, ?_, lists strategy⟩
    · rw [Covering.ofExamples_eq, Covering.problemOf_eq_ok admitted]
      exact isFound
    · exact Covering.filter_containsAll fun hypothesis listed =>
        ((members hypothesis).1 listed).contains

/-- Over twenty numbers the search for 2, 8 and 9 keeps its promise at depth three for 2 and 9, after
a call for all three and one for the two. -/
theorem guided_keeps_promise_two_eight_nine :
    ∃ problem, Covering.problemOf 20 ⟨[3, 2], [7], true, 5⟩ [2, 8, 9] = .ok problem ∧
      Covering.KeepsPromise problem 3 (.ofList [2, 9]) ∧
      ∃ answers memory, (Covering.coverings problem
        [(2, .ofList [2, 8, 9]), (1, .ofList [2, 9])]).run [] = .ok (answers, memory) := by
  let space := ofConcepts ⟨20, by decide⟩ [] []
  let grammar : Grammar := ⟨[3, 2], [7], true, 5⟩
  have distinct : grammar.Distinct := ⟨by decide, by decide⟩
  have inRange : grammar.InRange := ⟨by decide, by decide⟩
  have admitted : space.domain.HasExamples [2, 8, 9] := ⟨by decide, by decide⟩
  have part : TargetOf [2, 8, 9] (.ofList [2, 9]) := by
    refine ⟨by decide +kernel, fun n isTarget => ?_⟩
    have isPart : [2, 9] ⊆ [2, 8, 9] := by decide
    exact isPart (NatSet.mem_ofList.1 isTarget)
  obtain ⟨problem, isProblem, keeps, runs, _⟩ :=
    guided_keeps_promise space distinct inRange admitted
  have posed : ∀ request ∈ [(2, NatSet.ofList [2, 8, 9]), (1, .ofList [2, 9])],
      TargetOf [2, 8, 9] request.2 := by
    rw [List.forall_mem_cons, List.forall_mem_singleton]
    exact ⟨admitted.target, part⟩
  obtain ⟨answers, memory, ran, _⟩ := runs _ posed
  exact ⟨problem, isProblem, keeps 3 _ part, answers, memory, ran⟩

end HypothesisSpace

end NumberConcepts
