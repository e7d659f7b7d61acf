import NumberConcepts.Elimination
import NumberConcepts.Proofs.Belief.Posterior
/-!
# How examples eliminate hypotheses

A trajectory has a step before the first example and one after each example: the stages of the
index are one more than the examples, and every step compares a stage with the one before it. The
stages are a chain of sets (`leftAfter`), so that what its steps take away (`lostAt`) is parted
among them, and the numbers of what is taken away add up.
-/

namespace NumberConcepts.HypothesisSpace

variable {space : HypothesisSpace} {prior : Prior Exact} {examples : List Nat}
  {position step seen : Nat}

/-! ### Stages -/

/-- The positions that are consistent with the first examples. -/
def leftAfter (space : HypothesisSpace) (examples : List Nat) (seen : Nat) : NatSet :=
  space.consistent (examples.take seen)

/-- The positions that the example at a step takes away. -/
def lostAt (space : HypothesisSpace) (examples : List Nat) (step : Nat) : NatSet :=
  space.leftAfter examples step \ space.leftAfter examples (step + 1)

theorem leftAfter_zero (space : HypothesisSpace) (examples : List Nat) :
    space.leftAfter examples 0 = space.index.all := rfl

theorem leftAfter_length (space : HypothesisSpace) (examples : List Nat) :
    space.leftAfter examples examples.length = space.consistent examples := by
  rw [leftAfter, List.take_length]

/-- The stages are what each initial part of the examples leaves. -/
theorem consistentSteps_eq (space : HypothesisSpace) (examples : List Nat) :
    space.consistentSteps examples =
      (List.range (examples.length + 1)).map (space.leftAfter examples) := by
  rw [consistentSteps, Index.stages_eq]
  apply List.ext_getElem
  · simp
  · intro seen _ _
    simp [leftAfter, consistent, List.map_take]

/-- Every stage stands beside the next one. -/
theorem zip_tail_consistentSteps (space : HypothesisSpace) (examples : List Nat) :
    (space.consistentSteps examples).zip (space.consistentSteps examples).tail =
      (List.range examples.length).map fun step =>
        (space.leftAfter examples step, space.leftAfter examples (step + 1)) := by
  rw [consistentSteps_eq]
  apply List.ext_getElem
  · simp
  · intro step _ _
    simp

/-- One more example leaves those of the positions that the index finds for it. -/
theorem leftAfter_succ (bound : step < examples.length) :
    space.leftAfter examples (step + 1) =
      space.leftAfter examples step ∩ space.index.containing (examples[step] : Int) := by
  ext position
  rw [leftAfter, leftAfter, List.take_succ_eq_append_getElem bound, NatSet.mem_inter]
  simp only [consistent, Index.consistent, Index.mem_narrow, List.map_append,
    List.forall_mem_append, List.map_cons, List.map_nil, List.forall_mem_singleton,
    Int.ofNat_eq_natCast, and_assoc]

/-- More examples leave no further positions. -/
theorem leftAfter_subset (space : HypothesisSpace) (examples : List Nat) {later : Nat}
    (notBefore : seen ≤ later) :
    space.leftAfter examples later ⊆ space.leftAfter examples seen := by
  apply space.index.consistent_subset_of_prefix
  exact (List.take_isPrefix_take.2 (.inl notBefore)).map _

/-- What is left after some examples is found by the index for each of them. -/
theorem mem_containing_of_mem_leftAfter {n : Nat} (left : position ∈ space.leftAfter examples seen)
    (isSeen : n ∈ examples.take seen) : position ∈ space.index.containing n :=
  (Index.mem_narrow.1 left).2 n (List.mem_map_of_mem isSeen)

/-! ### What is taken away -/

/-- The positions eliminated at a step are those that its example takes away. -/
theorem eliminatedAt_eq_ok (bound : step < examples.length) :
    space.eliminatedAt examples step = .ok (space.lostAt examples step) := by
  have inRange : 0 ≤ (step : Int) ∧ (step : Int) < examples.length := by omega
  have shorter : ∀ seen ≤ step + 1,
      space.leftAfter (examples.take (step + 1)) seen = space.leftAfter examples seen := by
    intro seen notAfter
    rw [leftAfter, List.take_take, Nat.min_eq_left notAfter, leftAfter]
  have length : (examples.take (step + 1)).length = step + 1 := by
    rw [List.length_take, Nat.min_eq_left bound]
  rw [eliminatedAt, if_pos inRange, Int.toNat_natCast, consistentSteps_eq, length]
  simp [lostAt, shorter]

/-- A position is taken away once: it is not left afterwards. -/
theorem not_mem_lostAt_of_lt {later : Nat} (before : step < later)
    (lost : position ∈ space.lostAt examples step) : position ∉ space.lostAt examples later := by
  rw [lostAt, NatSet.mem_sdiff] at lost ⊢
  rintro ⟨stillLeft, _⟩
  exact lost.2 (NatSet.subset_iff.1 (space.leftAfter_subset examples before) position stillLeft)

/-- Some of the first steps took a position away exactly when it is not left after them. -/
theorem exists_mem_lostAt_iff :
    (∃ step < seen, position ∈ space.lostAt examples step) ↔
      position ∈ space.index.all ∧ position ∉ space.leftAfter examples seen := by
  induction seen with
  | zero => simp [leftAfter_zero]
  | succ seen inductionHypothesis =>
      have chain : position ∈ space.leftAfter examples seen → position ∈ space.index.all :=
        NatSet.subset_iff.1 (space.leftAfter_subset examples (Nat.zero_le seen)) position
      have next : position ∈ space.leftAfter examples (seen + 1) →
          position ∈ space.leftAfter examples seen :=
        NatSet.subset_iff.1 (space.leftAfter_subset examples (Nat.le_succ seen)) position
      have parts : (∃ step < seen + 1, position ∈ space.lostAt examples step) ↔
          (∃ step < seen, position ∈ space.lostAt examples step) ∨
            position ∈ space.lostAt examples seen := by
        simp only [Nat.lt_succ_iff_lt_or_eq, or_and_right, exists_or, exists_eq_left]
      rw [parts, inductionHypothesis, lostAt, NatSet.mem_sdiff]
      constructor
      · rintro (⟨known, gone⟩ | ⟨left, gone⟩)
        · exact ⟨known, fun stillLeft => gone (next stillLeft)⟩
        · exact ⟨chain left, gone⟩
      · rintro ⟨known, gone⟩
        by_cases left : position ∈ space.leftAfter examples seen
        · exact .inr ⟨left, gone⟩
        · exact .inl ⟨known, left⟩

/-- What one step takes away and what it leaves is what was left before. -/
theorem size_leftAfter_succ (space : HypothesisSpace) (examples : List Nat) (step : Nat) :
    (space.leftAfter examples (step + 1)).size + (space.lostAt examples step).size =
      (space.leftAfter examples step).size :=
  NatSet.size_add_size_sdiff (space.leftAfter_subset examples (Nat.le_succ step))

/-- What the first steps take away adds up to all that is not left after them. -/
theorem sum_size_lostAt (space : HypothesisSpace) (examples : List Nat) (seen : Nat) :
    (space.leftAfter examples seen).size +
        ((List.range seen).map fun step => (space.lostAt examples step).size).sum =
      space.index.all.size := by
  induction seen with
  | zero => rfl
  | succ seen inductionHypothesis =>
      have now := space.size_leftAfter_succ examples seen
      rw [List.range_succ, List.map_append, List.sum_append, List.map_singleton,
        List.sum_singleton]
      omega

/-- An example that was given before takes nothing away. -/
theorem lostAt_eq_empty {n : Nat} (isAt : examples[step]? = some n)
    (isSeen : n ∈ examples.take step) : space.lostAt examples step = ∅ := by
  obtain ⟨bound, rfl⟩ := List.getElem?_eq_some_iff.1 isAt
  ext position
  rw [lostAt, leftAfter_succ bound, NatSet.mem_sdiff, NatSet.mem_inter]
  simp only [NatSet.not_mem_empty, iff_false]
  rintro ⟨left, gone⟩
  exact gone ⟨left, mem_containing_of_mem_leftAfter left isSeen⟩

/-! ### Trajectories -/

section Recorded

variable {α : Type} [Scalar α] {prior : Prior α} {topCount : Int}

/-- What a step counts, whatever is most probable after it. -/
theorem counts_of_eliminationStep {before after : NatSet}
    {result : EliminationStep α space.domain.size}
    (succeeds : space.eliminationStep prior examples topCount seen before after = .ok result) :
    result.remaining = after.size ∧ result.eliminated = before.size - after.size := by
  rw [eliminationStep] at succeeds
  obtain ⟨_, _, succeeds⟩ := Sequence.exists_of_bind_ok succeeds
  cases succeeds
  exact ⟨rfl, rfl⟩

/-- The counts of a trajectory are those of its stages and of what its steps take away. -/
structure Records (space : HypothesisSpace) (examples : List Nat)
    (trajectory : Trajectory α space.domain.size) : Prop where
  initial : trajectory.initial = space.count
  final : trajectory.final = (space.consistent examples).size
  remaining : trajectory.steps.map EliminationStep.remaining =
    (List.range (examples.length + 1)).map fun seen => (space.leftAfter examples seen).size
  eliminated : trajectory.steps.map EliminationStep.eliminated =
    0 :: (List.range examples.length).map fun step => (space.lostAt examples step).size

/-- Whatever the scalars are, a trajectory records the stages. -/
theorem records_of_trajectory {trajectory : Trajectory α space.domain.size}
    (succeeds : space.trajectory prior examples topCount = .ok trajectory) :
    space.Records examples trajectory := by
  rw [HypothesisSpace.trajectory] at succeeds
  obtain ⟨later, succeedsLater, succeeds⟩ := Sequence.exists_of_bind_ok succeeds
  cases succeeds
  have entries : ((space.consistentSteps examples).zip
      (space.consistentSteps examples).tail).zipIdx =
        (List.range examples.length).map fun step =>
          ((space.leftAfter examples step, space.leftAfter examples (step + 1)), step) := by
    rw [zip_tail_consistentSteps]
    apply List.ext_getElem <;> simp
  rw [entries] at succeedsLater
  have counts := (List.forall₂_map_left_iff.1 (Sequence.forall₂_of_mapM_ok succeedsLater)).imp
    fun _ _ stepSucceeds => counts_of_eliminationStep stepSucceeds
  have remaining : later.map EliminationStep.remaining = (List.range examples.length).map
      fun step => (space.leftAfter examples (step + 1)).size := by
    rw [eq_comm, ← List.forall₂_eq_eq_eq, List.forall₂_map_left_iff, List.forall₂_map_right_iff]
    exact counts.imp fun _ _ both => both.1.symm
  have eliminated : later.map EliminationStep.eliminated = (List.range examples.length).map
      fun step => (space.lostAt examples step).size := by
    rw [eq_comm, ← List.forall₂_eq_eq_eq, List.forall₂_map_left_iff, List.forall₂_map_right_iff]
    refine counts.imp fun step _ both => ?_
    rw [both.2, ← space.size_leftAfter_succ examples step, Nat.add_sub_cancel_left]
  constructor
  case initial => rfl
  case final =>
    rw [consistentSteps_eq, List.range_succ, List.map_append, List.map_singleton,
      List.getLastD_concat, leftAfter_length]
  case remaining =>
    rw [List.map_cons, remaining, List.range_succ_eq_map, List.map_cons, List.map_map]
    rfl
  case eliminated => rw [List.map_cons, eliminated]

end Recorded

/-- What is left is ranked without a fault. -/
theorem Sound.eliminationStep_eq_ok (sound : space.Sound) (finite : prior.FinitelyWeighted)
    (examples : List Nat) (topCount : Int) (seen : Nat) (before after : NatSet) :
    ∃ step, space.eliminationStep prior examples topCount seen before after = .ok step := by
  obtain ⟨ranking, succeeds, _⟩ := sound.posterior_agrees finite (examples.take (seen + 1))
  rw [eliminationStep, succeeds]
  exact ⟨_, rfl⟩

/-- The record of a sequence of examples has one more step than examples. -/
theorem Sound.trajectory_eq_ok (sound : space.Sound) (finite : prior.FinitelyWeighted)
    (examples : List Nat) (topCount : Int) :
    ∃ trajectory, space.trajectory prior examples topCount = .ok trajectory ∧
      trajectory.examples = examples ∧ trajectory.steps.length = examples.length + 1 := by
  let sets := space.consistentSteps examples
  obtain ⟨later, succeeds, pairs⟩ := Sequence.mapM_forall₂_ok fun entry
      (_ : entry ∈ (sets.zip sets.tail).zipIdx) =>
    (sound.eliminationStep_eq_ok finite examples topCount entry.2 entry.1.1 entry.1.2).imp
      fun _ succeeds => ⟨succeeds, trivial⟩
  have length : later.length = examples.length := by
    rw [← pairs.length_eq, List.length_zipIdx, zip_tail_consistentSteps, List.length_map,
      List.length_range]
  exact ⟨_, congrArg (· >>= _) succeeds, rfl, congrArg (· + 1) length⟩

/-! ### Accounting -/

/-- How the sets that are eliminated by the examples, one set for each, account for a trajectory. -/
structure Accounts {α : Type} (space : HypothesisSpace) (examples : List Nat) (sets : List NatSet)
    (trajectory : Trajectory α space.domain.size) : Prop where
  once : sets.Pairwise fun earlier later => ∀ position ∈ earlier, position ∉ later
  complement : ∀ position, (∃ set ∈ sets, position ∈ set) ↔
    position < space.count ∧ position ∉ space.consistent examples
  /-- The start eliminates nothing, and each later step counts the set of its example. -/
  counted : trajectory.steps.map EliminationStep.eliminated = 0 :: sets.map NatSet.size
  shrinking : (trajectory.steps.map EliminationStep.remaining).Pairwise (· ≥ ·)
  repeated : ∀ (step n : Nat), examples[step]? = some n → n ∈ examples.take step →
    sets[step]? = some ∅
  total : trajectory.eliminated =
    (((trajectory.steps.map EliminationStep.eliminated).sum : Nat) : Int)
  final : trajectory.final = (space.consistent examples).size

/-- Where a trajectory records the stages, what its steps take away accounts for it. -/
theorem Sound.accounts_of_records {α : Type} (sound : space.Sound)
    {trajectory : Trajectory α space.domain.size} (records : space.Records examples trajectory) :
    space.Accounts examples ((List.range examples.length).map (space.lostAt examples))
      trajectory := by
  constructor
  case once =>
    rw [List.pairwise_map]
    exact List.pairwise_lt_range.imp fun before _ lost => not_mem_lostAt_of_lt before lost
  case complement =>
    intro position
    simp only [List.mem_map, List.mem_range, exists_exists_and_eq_and]
    rw [exists_mem_lostAt_iff, leftAfter_length, sound.all, count]
  case counted =>
    rw [records.eliminated, List.map_map]
    rfl
  case shrinking =>
    rw [records.remaining, List.pairwise_map]
    exact List.pairwise_lt_range.imp fun before =>
      NatSet.size_le_of_subset (space.leftAfter_subset examples before.le)
  case repeated =>
    intro step n isAt isSeen
    have bound := (List.getElem?_eq_some_iff.1 isAt).1
    rw [List.getElem?_map, List.getElem?_range bound, Option.map_some, lostAt_eq_empty isAt isSeen]
  case total =>
    have all : space.index.all.size = space.count := by
      rw [NatSet.size_eq_length List.nodup_range fun position =>
        List.mem_range.trans (sound.all position).symm, List.length_range, count]
    have sum := space.sum_size_lostAt examples examples.length
    rw [leftAfter_length, all] at sum
    rw [Trajectory.eliminated, records.initial, records.final, records.eliminated, List.sum_cons,
      zero_add, ← sum]
    omega
  case final => exact records.final

/-- Over the base space of a domain, every example eliminates a set of positions, and these sets
account for every trajectory of the examples, whatever the scalars and the prior are. Without
rounding there is a trajectory for every prior with finite weights. -/
theorem elimination_accounted (domain : Domain) (examples : List Nat) :
    ∃ sets, ((List.range examples.length).mapM fun step : Nat =>
        (base domain).eliminatedAt examples step) = .ok sets ∧
      (∀ (α : Type) [Scalar α] (prior : Prior α) (topCount : Int)
        (trajectory : Trajectory α domain.size),
        (base domain).trajectory prior examples topCount = .ok trajectory →
          (base domain).Accounts examples sets trajectory) ∧
      ∀ (prior : Prior Exact) (topCount : Int), prior.FinitelyWeighted →
        ∃ trajectory, (base domain).trajectory prior examples topCount = .ok trajectory := by
  have sound := sound_base domain
  refine ⟨(List.range examples.length).map ((base domain).lostAt examples), ?sets, ?accounts,
    ?recorded⟩
  case sets =>
    exact Sequence.mapM_ok fun step listed => eliminatedAt_eq_ok (List.mem_range.1 listed)
  case accounts =>
    intro α _ prior topCount trajectory succeeds
    exact sound.accounts_of_records (records_of_trajectory succeeds)
  case recorded =>
    intro prior topCount finite
    obtain ⟨trajectory, succeeds, _⟩ := sound.trajectory_eq_ok finite examples topCount
    exact ⟨trajectory, succeeds⟩

/-- Over twenty numbers the sets that 16, 8, again 16 and 4 eliminate account for their
trajectory. -/
theorem elimination_accounted_over_twenty :
    ∃ sets trajectory,
      ((List.range 4).mapM fun step : Nat =>
        (base ⟨20, by decide⟩).eliminatedAt [16, 8, 16, 4] step) = .ok sets ∧
      (base ⟨20, by decide⟩).trajectory (Prior.typeWeighted : Prior Exact) [16, 8, 16, 4] 3 =
        .ok trajectory ∧
      (base ⟨20, by decide⟩).Accounts [16, 8, 16, 4] sets trajectory := by
  have named : Prior.named? "type-weighted" = some (Prior.typeWeighted : Prior Exact) := rfl
  obtain ⟨sets, eliminated, accounts, recorded⟩ :=
    elimination_accounted ⟨20, by decide⟩ [16, 8, 16, 4]
  obtain ⟨trajectory, succeeds⟩ := recorded .typeWeighted 3 (.of_named named)
  exact ⟨sets, trajectory, eliminated, succeeds, accounts _ _ _ _ succeeds⟩

end NumberConcepts.HypothesisSpace
