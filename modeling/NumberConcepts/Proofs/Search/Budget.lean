import Mathlib.Data.List.Infix
import NumberConcepts.Proofs.Search.Indexed
/-!
# Depths and limits

Over the base space every search succeeds and finds nothing deeper than its depth:
`synthesize_within`. One more depth appends to what a search lists and moves nothing:
`prefix_levels_succ` for the exhaustive enumeration, `prefix_of_fresh_succ` for the
guided search. The limit cuts the lists off afterwards. So with a greater depth and a
greater limit every strategy lists the same concepts first.
-/

namespace NumberConcepts

namespace Enumeration

variable {size : Nat}

/-- One more level is listed behind the levels before it. -/
theorem prefix_levels_succ (older newest : List (Hypothesis size)) (depth : Nat) :
    levels older newest depth <+: levels older newest (depth + 1) := by
  induction depth generalizing older newest with
  | zero => exact List.nil_prefix
  | succ depth inductionHypothesis =>
      rw [levels, levels]
      exact (List.prefix_append_right_inj _).2 (inductionHypothesis _ _)

theorem prefix_all_succ (pool : List (Hypothesis size)) (depth : Nat) :
    all pool depth <+: all pool (depth + 1) :=
  (List.prefix_append_right_inj _).2 (prefix_levels_succ [] pool depth)

/-- Up to a greater depth the consistent concepts are listed behind the shallower ones. -/
theorem prefix_consistent (domain : Domain) (grammar : Grammar) (examples : List Nat)
    {depth depth' : Nat} (deeper : depth ≤ depth') :
    consistent domain grammar examples depth <+: consistent domain grammar examples depth' := by
  induction deeper with
  | refl => exact List.prefix_refl _
  | step _ inductionHypothesis =>
      exact inductionHypothesis.trans ((prefix_all_succ _ _).filter _)

end Enumeration

namespace Roster

variable {size : Nat}

theorem prefix_insert (roster : Roster size) (added : Hypothesis size) :
    roster.toList <+: (roster.insert added).toList := by
  rw [insert]
  split
  next => exact List.prefix_refl _
  next => exact ⟨[added], by simp [push, toList]⟩

/-- A roster extended by a list begins with what it held. -/
theorem prefix_insertAll (roster : Roster size) (added : List (Hypothesis size)) :
    roster.toList <+: (roster.insertAll added).toList := by
  rw [insertAll]
  induction added generalizing roster with
  | nil => exact List.prefix_refl _
  | cons first rest inductionHypothesis =>
      exact (roster.prefix_insert first).trans (inductionHypothesis _)

end Roster

namespace Covering

variable {size : Nat} {problem : Problem size} {target : NatSet} {depth : Nat}

/-- Combining begins with the concepts one depth below. -/
theorem prefix_combined (below unions : List (Hypothesis size)) :
    below <+: combined below unions := by
  have first := (Roster.ofList below).prefix_insertAll unions
  rw [Roster.toList_ofList] at first
  exact first.trans (Roster.prefix_insertAll _ _)

/-- A search that succeeds also succeeds one depth below, and begins with what is found there. -/
theorem prefix_of_fresh_succ {found : List (Hypothesis size)}
    (succeeds : fresh problem (depth + 1) target = .ok found) :
    ∃ below, fresh problem depth target = .ok below ∧ below <+: found := by
  obtain ⟨below, unions, isBelow, rfl⟩ := combined_of_fresh succeeds
  exact ⟨below, isBelow, prefix_combined below unions⟩

/-- So does a search at any depth below. -/
theorem prefix_of_fresh {depth' : Nat} (deeper : depth ≤ depth') {found : List (Hypothesis size)}
    (succeeds : fresh problem depth' target = .ok found) :
    ∃ below, fresh problem depth target = .ok below ∧ below <+: found := by
  induction deeper generalizing found with
  | refl => exact ⟨found, succeeds, List.prefix_refl found⟩
  | step _ inductionHypothesis =>
      obtain ⟨between, succeedsBetween, isPrefix⟩ := prefix_of_fresh_succ succeeds
      obtain ⟨below, succeedsBelow, isPrefix'⟩ := inductionHypothesis succeedsBetween
      exact ⟨below, succeedsBelow, isPrefix'.trans isPrefix⟩

end Covering

namespace HypothesisSpace

variable {grammar : Grammar} {examples : List Nat} {depth depth' limit limit' : Int}

/-- A search over the base space has a result for examples of its domain. What it finds contains
them and is no deeper than the search. -/
theorem synthesize_within (domain : Domain) (search : Synthesis) (inRange : search.grammar.InRange)
    (admitted : domain.HasExamples examples) :
    ∃ found, (base domain).synthesize search examples = .ok found ∧ found.length ≤ search.limit ∧
      ∀ hypothesis ∈ found, hypothesis.concept.depth ≤ search.depth ∧
        ∀ n ∈ examples, n ∈ hypothesis.members := by
  have admittedBase : (base domain).domain.HasExamples examples := admitted
  rcases search with ⟨strategy, grammar, depth, limit⟩
  cases strategy with
  | exact =>
      refine ⟨_, searchExhaustively_eq_ok _ inRange admittedBase, List.length_take_le _ _, ?_⟩
      intro hypothesis listed
      exact ((Enumeration.mem_consistent admitted).1 (List.mem_of_mem_take listed)).2
  | guided =>
      obtain ⟨found, _, members, lists⟩ := searchGuided_eq_ok inRange admittedBase depth
      refine ⟨_, lists .guided limit, List.length_take_le _ _, ?_⟩
      intro hypothesis listed
      have derived := (members hypothesis).1 (List.mem_of_mem_take listed)
      exact ⟨derived.depth_le, fun n isExample => derived.contains n (NatSet.mem_ofList.2 isExample)⟩
  | indexed =>
      refine ⟨_, rfl, List.length_take_le _ _, ?_⟩
      intro hypothesis listed
      obtain ⟨known, contains⟩ :=
        (sound_base domain).mem_select_consistent.1 (List.mem_of_mem_take listed)
      -- The base space has only terminals, so the depth of the search does not matter.
      obtain ⟨leaf, isTerminal, _⟩ := legal_base (mem_ofConcepts.1 known).1
      rw [isTerminal]
      exact ⟨Nat.zero_le depth, contains⟩

/-- With a greater depth and a greater limit a search lists the same concepts first, whatever the
strategy. -/
theorem synthesize_appends (space : HypothesisSpace) (inRange : grammar.InRange)
    (admitted : space.domain.HasExamples examples) (strategy : Strategy) (least : 0 ≤ depth)
    (deeper : depth ≤ depth') (possible : depth' ≤ Concept.maxDepth) (more : limit ≤ limit') :
    ∃ found found',
      space.synthesizeAsked strategy.name grammar depth limit (Domain.asData examples) =
        .ok found ∧
      space.synthesizeAsked strategy.name grammar depth' limit' (Domain.asData examples) =
        .ok found' ∧
      found <+: found' := by
  have possibleBelow : 0 ≤ depth ∧ depth ≤ Concept.maxDepth := ⟨least, deeper.trans possible⟩
  have possibleAbove : 0 ≤ depth' ∧ depth' ≤ Concept.maxDepth := ⟨least.trans deeper, possible⟩
  have deeper' : depth.toNat ≤ depth'.toNat := Int.toNat_le_toNat deeper
  have cut : ∀ {first second : List (Hypothesis space.domain.size)}, first <+: second →
      first.take limit.toNat <+: second.take limit'.toNat := fun isPrefix =>
    (isPrefix.take _).trans (List.take_prefix_take_left (Int.toNat_le_toNat more))
  cases strategy with
  | exact =>
      exact ⟨_, _, exact_eq_ok inRange admitted possibleBelow limit,
        exact_eq_ok inRange admitted possibleAbove limit',
        cut (Enumeration.prefix_consistent _ _ _ deeper')⟩
  | guided =>
      obtain ⟨below, succeedsBelow, _, isBelow⟩ := guided_eq_ok inRange admitted possibleBelow
      obtain ⟨above, succeedsAbove, _, isAbove⟩ := guided_eq_ok inRange admitted possibleAbove
      obtain ⟨found, succeeds, isPrefix⟩ := Covering.prefix_of_fresh deeper' succeedsAbove
      obtain rfl := Except.ok.inj (succeedsBelow.symm.trans succeeds)
      exact ⟨_, _, isBelow limit, isAbove limit', cut isPrefix⟩
  | indexed =>
      exact ⟨_, _, indexed_eq_ok admitted grammar possibleBelow limit,
        indexed_eq_ok admitted grammar possibleAbove limit', cut (List.prefix_refl _)⟩

/-- Over twenty numbers what the guided search for 2, 8 and 9 finds at depth one it finds first at
depth three. -/
theorem guided_appends_over_twenty :
    ∃ found found' : List (Hypothesis 20),
      (ofConcepts ⟨20, by decide⟩ [] []).synthesizeAsked "guided" ⟨[3, 2], [7], true, 5⟩ 1 3
        (Domain.asData [2, 8, 9]) = .ok found ∧
      (ofConcepts ⟨20, by decide⟩ [] []).synthesizeAsked "guided" ⟨[3, 2], [7], true, 5⟩ 3 40
        (Domain.asData [2, 8, 9]) = .ok found' ∧
      found <+: found' := by
  let space := ofConcepts ⟨20, by decide⟩ [] []
  have inRange : Grammar.InRange ⟨[3, 2], [7], true, 5⟩ := ⟨by decide, by decide⟩
  have admitted : space.domain.HasExamples [2, 8, 9] := ⟨by decide, by decide⟩
  exact synthesize_appends space inRange admitted .guided (by decide) (by decide) (by decide)
    (by decide)

end HypothesisSpace

end NumberConcepts
