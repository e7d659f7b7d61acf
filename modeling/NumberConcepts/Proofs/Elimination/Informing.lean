import Mathlib.Data.Prod.Lex
import NumberConcepts.Proofs.Elimination
/-!
# What one more example would eliminate

How many hypotheses a number would eliminate is said from the index, before it is seen. It
is what the last step of a trajectory counts once the number is seen. Over a base space something
is always left, for the interval of the whole domain contains whatever is seen; and so each
number of the domain belongs to something that is left, and is listed.
-/

namespace NumberConcepts.HypothesisSpace

variable {space : HypothesisSpace} {examples : List Nat} {n : Nat}

/-! ### The prediction and the step -/

/-- A number would eliminate the positions that the index does not find for it. -/
theorem eliminationCount_eq (space : HypothesisSpace) (current : NatSet) (number : Int) :
    space.eliminationCount current number = (current \ space.index.containing number).size := by
  rw [eliminationCount, ← NatSet.size_inter_add_size_sdiff current (space.index.containing number),
    Nat.add_sub_cancel_left]

/-- The last example takes away the consistent positions that the index does not find for it. -/
theorem lostAt_append (space : HypothesisSpace) (examples : List Nat) (n : Nat) :
    space.lostAt (examples ++ [n]) examples.length =
      space.consistent examples \ space.index.containing n := by
  have before : space.leftAfter (examples ++ [n]) examples.length = space.consistent examples := by
    rw [leftAfter, List.take_left]
  rw [lostAt, leftAfter_succ (by simp), before]
  ext position
  simp only [List.getElem_concat_length, NatSet.mem_sdiff, NatSet.mem_inter]
  exact and_congr_right fun left => not_congr (and_iff_right left)

/-- The last step counts what its example takes away and what is left. -/
theorem Records.exists_last {α : Type} {trajectory : Trajectory α space.domain.size}
    (records : space.Records (examples ++ [n]) trajectory) :
    ∃ last, trajectory.steps.getLast? = some last ∧
      last.eliminated = space.eliminationCount (space.consistent examples) n ∧
      last.remaining = (space.consistent (examples ++ [n])).size := by
  have length : (examples ++ [n]).length = examples.length + 1 := by simp
  have eliminated := congrArg List.getLast? records.eliminated
  have remaining := congrArg List.getLast? records.remaining
  rw [List.getLast?_map, length, List.range_succ, List.map_append, List.map_singleton] at eliminated
  rw [List.getLast?_map, length, List.range_succ, List.map_append, List.map_singleton,
    List.getLast?_concat, ← length, leftAfter_length] at remaining
  rw [← List.cons_append, List.getLast?_concat, lostAt_append, ← eliminationCount_eq] at eliminated
  obtain ⟨last, isLast, counted⟩ := Option.map_eq_some_iff.1 eliminated
  rw [isLast, Option.map_some, Option.some.injEq] at remaining
  exact ⟨last, isLast, counted, remaining⟩

/-- An example would eliminate nothing when it is seen again. -/
theorem eliminationCount_eq_zero (isExample : n ∈ examples) :
    space.eliminationCount (space.consistent examples) n = 0 := by
  have kept : space.consistent examples ∩ space.index.containing n = space.consistent examples := by
    rw [← space.leftAfter_length examples]
    ext position
    rw [NatSet.mem_inter, and_iff_left_of_imp]
    exact fun left => mem_containing_of_mem_leftAfter left (by simpa using isExample)
  rw [eliminationCount, kept, Nat.sub_self]

/-! ### Numbers of the domain -/

/-- A union over hypotheses has the members of each of them. -/
theorem mem_foldl_union {size : Nat} {hypotheses : List (Hypothesis size)} {start : NatSet} :
    n ∈ hypotheses.foldl (fun union hypothesis => union ∪ hypothesis.members) start ↔
      n ∈ start ∨ ∃ hypothesis ∈ hypotheses, n ∈ hypothesis.members := by
  induction hypotheses generalizing start with
  | nil => simp
  | cons first rest inductionHypothesis =>
      rw [List.foldl_cons, inductionHypothesis, NatSet.mem_union, List.exists_mem_cons_iff,
        or_assoc]

/-- A hypothesis of the base space contains the whole domain. -/
theorem exists_whole (domain : Domain) : ∃ whole ∈ (base domain).hypotheses,
    ∀ n, n ∈ whole.members ↔ 1 ≤ n ∧ n ≤ domain.size := by
  have members : ∀ n, n ∈ (Hypothesis.ofTerminal domain.size (.interval 1 domain.size)).members ↔
      1 ≤ n ∧ n ≤ domain.size := by
    intro n
    rw [Hypothesis.members_ofTerminal, Terminal.mem_extension_interval, and_self]
  refine ⟨_, mem_ofConcepts.2 ⟨?_, ?_⟩, members⟩
  · apply List.mem_append_right
    exact mem_intervals.2 ⟨1, domain.size, rfl, le_refl 1, domain.admissible.1, le_refl _⟩
  · exact NatSet.ne_empty_of_mem ((members 1).2 ⟨le_refl 1, domain.admissible.1⟩)

/-- Numbers of the domain are examples of some hypothesis, whichever they are. -/
theorem consistent_base_ne_empty {domain : Domain}
    (inside : ∀ n ∈ examples, 1 ≤ n ∧ n ≤ domain.size) : (base domain).consistent examples ≠ ∅ := by
  obtain ⟨whole, listed, members⟩ := exists_whole domain
  obtain ⟨position, isAt⟩ := Array.mem_iff_getElem?.1 listed
  apply NatSet.ne_empty_of_mem (n := position)
  exact (sound_base domain).mem_consistent.2
    ⟨whole, isAt, fun n isExample => (members n).2 (inside n isExample)⟩

/-- The hypotheses that are left have all numbers of the domain as members, and no others. -/
theorem mem_candidates {domain : Domain} (inside : ∀ n ∈ examples, 1 ≤ n ∧ n ≤ domain.size) :
    n ∈ ((base domain).select ((base domain).consistent examples)).foldl
        (fun union hypothesis => union ∪ hypothesis.members) ∅ ↔ n ∈ domain.numbers := by
  have sound := sound_base domain
  rw [mem_foldl_union, or_iff_right (NatSet.not_mem_empty n), Domain.mem_numbers]
  constructor
  · rintro ⟨hypothesis, isLeft, member⟩
    exact sound.inside hypothesis (sound.mem_select_consistent.1 isLeft).1 n member
  · intro isInside
    obtain ⟨whole, listed, members⟩ := exists_whole domain
    refine ⟨whole, sound.mem_select_consistent.2 ⟨listed, ?_⟩, (members n).2 isInside⟩
    exact fun m isExample => (members m).2 (inside m isExample)

/-! ### The list of numbers -/

/-- A number stands before what would eliminate less, and before what would eliminate as much and is
greater. -/
def informingKey (entry : Nat × Nat) : Natᵒᵈ ×ₗ Nat := toLex (OrderDual.toDual entry.2, entry.1)

theorem informingKey_le_iff {a b : Nat × Nat} :
    informingKey a ≤ informingKey b ↔ b.2 < a.2 ∨ a.2 = b.2 ∧ a.1 ≤ b.1 := by
  rw [informingKey, informingKey, Prod.Lex.toLex_le_toLex, OrderDual.toDual_lt_toDual,
    OrderDual.toDual_inj]

/-- What would eliminate most stands first. -/
theorem pairwise_informativeNumbers (space : HypothesisSpace) (examples : List Nat) (count : Int) :
    (space.informativeNumbers examples count).Pairwise fun a b =>
      informingKey a ≤ informingKey b := by
  apply List.Pairwise.sublist (Sequence.first_sublist _ _)
  apply Sequence.pairwise_mergeSort_of_key
  intro a _ b _
  rw [Bool.eq_iff_iff, decide_eq_true_iff, informingKey_le_iff]
  simp

/-- All numbers of the domain are listed with what they would eliminate, if they are not cut off. -/
theorem informativeNumbers_perm {domain : Domain}
    (inside : ∀ n ∈ examples, 1 ≤ n ∧ n ≤ domain.size) {count : Int}
    (enough : domain.size ≤ count) :
    ((base domain).informativeNumbers examples count).Perm (domain.numbers.map fun n : Nat =>
      (n, (base domain).eliminationCount ((base domain).consistent examples) n)) := by
  have numbers := (List.perm_ext_iff_of_nodup (NatSet.nodup_toList _) domain.nodup_numbers).2
    fun n => NatSet.mem_toList.trans (mem_candidates inside)
  obtain ⟨count, rfl⟩ := Int.eq_ofNat_of_zero_le (by omega : 0 ≤ count)
  have short : domain.numbers.length ≤ count := by
    rw [domain.length_numbers]
    omega
  rw [informativeNumbers, Sequence.first_natCast, List.take_of_length_le]
  · exact (List.mergeSort_perm _ _).trans (numbers.map _)
  · rwa [List.length_mergeSort, List.length_map, numbers.length_eq]

/-- What a listing says that a number would eliminate comes true. -/
structure ComesTrue (space : HypothesisSpace) (examples : List Nat) (entry : Nat × Nat) :
    Prop where
  /-- When the number is the next example, it is what the last step of every trajectory counts,
  whatever the scalars and the prior are, and the step leaves something. -/
  counted : ∀ (α : Type) [Scalar α] (prior : Prior α) (topCount : Int)
    (trajectory : Trajectory α space.domain.size),
    space.trajectory prior (examples ++ [entry.1]) topCount = .ok trajectory →
      ∃ last, trajectory.steps.getLast? = some last ∧ last.eliminated = entry.2 ∧
        0 < last.remaining
  recorded : ∀ (prior : Prior Exact) (topCount : Int), prior.FinitelyWeighted →
    ∃ trajectory, space.trajectory prior (examples ++ [entry.1]) topCount = .ok trajectory
  repeated : entry.1 ∈ examples → entry.2 = 0

/-- What the index says of a number that leaves something comes true. -/
theorem Sound.comesTrue (sound : space.Sound)
    (leaves : space.consistent (examples ++ [n]) ≠ ∅) :
    space.ComesTrue examples (n, space.eliminationCount (space.consistent examples) n) := by
  refine ⟨?counted, ?recorded, eliminationCount_eq_zero⟩
  case counted =>
    intro α _ prior topCount trajectory succeeds
    obtain ⟨last, isLast, eliminated, remaining⟩ := (records_of_trajectory succeeds).exists_last
    obtain ⟨position, left⟩ := NatSet.exists_mem_of_ne_empty leaves
    exact ⟨last, isLast, eliminated, remaining ▸ NatSet.size_pos_of_mem left⟩
  case recorded =>
    intro prior topCount finite
    obtain ⟨trajectory, succeeds, _⟩ := sound.trajectory_eq_ok finite (examples ++ [n]) topCount
    exact ⟨trajectory, succeeds⟩

/-- Over the base space of a domain, the list of all numbers by what they would eliminate lists each
number of the domain once, those that eliminate most first and then the lesser ones, and what it
says of each number comes true. -/
theorem informative_numbers_come_true {domain : Domain}
    (inside : ∀ n ∈ examples, 1 ≤ n ∧ n ≤ domain.size) {count : Int}
    (enough : domain.size ≤ count) :
    (((base domain).informativeNumbers examples count).map Prod.fst).Perm domain.numbers ∧
    ((base domain).informativeNumbers examples count).Pairwise
      (fun a b => b.2 < a.2 ∨ a.2 = b.2 ∧ a.1 < b.1) ∧
    ∀ entry ∈ (base domain).informativeNumbers examples count,
      (base domain).ComesTrue examples entry := by
  have listed := informativeNumbers_perm inside enough
  have numbers : (((base domain).informativeNumbers examples count).map Prod.fst).Perm
      domain.numbers := by
    simpa [Function.comp_def] using listed.map Prod.fst
  refine ⟨numbers, ?sorted, ?outcomes⟩
  case sorted =>
    have distinct := List.pairwise_map.1 (numbers.nodup_iff.2 domain.nodup_numbers)
    apply (distinct.and (pairwise_informativeNumbers _ examples count)).imp
    rintro a b ⟨different, before⟩
    exact (informingKey_le_iff.1 before).imp_right fun ⟨same, notAfter⟩ =>
      ⟨same, lt_of_le_of_ne notAfter different⟩
  case outcomes =>
    intro entry isListed
    obtain ⟨n, isNumber, rfl⟩ := List.mem_map.1 (listed.mem_iff.1 isListed)
    apply (sound_base domain).comesTrue
    apply consistent_base_ne_empty
    rw [List.forall_mem_append, List.forall_mem_singleton]
    exact ⟨inside, Domain.mem_numbers.1 isNumber⟩

/-- Over twenty numbers, what each number is said to eliminate after 16 and 8 comes true. -/
theorem informative_numbers_come_true_over_twenty :
    let space := base ⟨20, by decide⟩
    ((space.informativeNumbers [16, 8] 20).map Prod.fst).Perm ((List.range 20).map (· + 1)) ∧
    (space.informativeNumbers [16, 8] 20).Pairwise
      (fun a b => b.2 < a.2 ∨ a.2 = b.2 ∧ a.1 < b.1) ∧
    ∀ entry ∈ space.informativeNumbers [16, 8] 20, space.ComesTrue [16, 8] entry := by
  let domain : Domain := ⟨20, by decide⟩
  have inside : ∀ n ∈ [16, 8], 1 ≤ n ∧ n ≤ domain.size := by decide
  exact informative_numbers_come_true inside (le_refl _)

end NumberConcepts.HypothesisSpace
