import NumberConcepts.NatSet
/-!
# Members of packed sets

Each operation on a `NatSet` is described by the members of its result, so that
no later proof looks at bits. `NatSet.ext` makes sets with the same members equal.
-/

namespace NumberConcepts.NatSet

/-- Membership is a test of one bit. -/
theorem mem_iff_testBit {n : Nat} {set : NatSet} : n ∈ set ↔ set.bits.testBit n = true :=
  Iff.rfl

/-- Sets are determined by their members. -/
@[ext]
theorem ext {a b : NatSet} (same : ∀ n, n ∈ a ↔ n ∈ b) : a = b := by
  obtain ⟨left⟩ := a
  obtain ⟨right⟩ := b
  have bits : left = right := Nat.eq_of_testBit_eq fun n => Bool.eq_iff_iff.2 (same n)
  rw [bits]

@[simp] theorem not_mem_empty (n : Nat) : n ∉ (∅ : NatSet) := by
  intro member
  have impossible : (0 : Nat).testBit n = true := member
  simp at impossible

@[simp] theorem mem_union {n : Nat} {a b : NatSet} : n ∈ a ∪ b ↔ n ∈ a ∨ n ∈ b := by
  change (a.bits ||| b.bits).testBit n = true ↔ _
  simp [mem_iff_testBit]

@[simp] theorem mem_inter {n : Nat} {a b : NatSet} : n ∈ a ∩ b ↔ n ∈ a ∧ n ∈ b := by
  change (a.bits &&& b.bits).testBit n = true ↔ _
  simp [mem_iff_testBit]

@[simp] theorem mem_sdiff {n : Nat} {a b : NatSet} : n ∈ a \ b ↔ n ∈ a ∧ n ∉ b := by
  change (a.bits ^^^ (a.bits &&& b.bits)).testBit n = true ↔ _
  rw [mem_iff_testBit, mem_iff_testBit, Nat.testBit_xor, Nat.testBit_and]
  cases a.bits.testBit n <;> cases b.bits.testBit n <;> simp

/-- A set has no member exactly when it is the empty set. -/
theorem isEmpty_iff {set : NatSet} : set.isEmpty = true ↔ set = ∅ := by
  constructor
  · intro noBits
    obtain ⟨bits⟩ := set
    have zero : bits = 0 := by simpa [isEmpty] using noBits
    rw [zero]
    rfl
  · rintro rfl
    rfl

theorem not_isEmpty_iff {set : NatSet} : (!set.isEmpty) = true ↔ set ≠ ∅ := by
  rw [Bool.not_eq_true', Bool.eq_false_iff, ne_eq, isEmpty_iff]

/-- A set other than the empty one has a member. -/
theorem exists_mem_of_ne_empty {set : NatSet} (inhabited : set ≠ ∅) : ∃ n, n ∈ set := by
  apply Classical.byContradiction
  intro none
  apply inhabited
  ext n
  simp only [not_mem_empty, iff_false]
  exact fun member => none ⟨n, member⟩

/-- A set with a member is not the empty one. -/
theorem ne_empty_of_mem {set : NatSet} {n : Nat} (member : n ∈ set) : set ≠ ∅ := by
  rintro rfl
  exact not_mem_empty n member

/-- Inclusion speaks of members. -/
theorem subset_iff {a b : NatSet} : a ⊆ b ↔ ∀ n, n ∈ a → n ∈ b := by
  change a ∩ b = a ↔ _
  constructor
  · intro same n member
    rw [← same, mem_inter] at member
    exact member.2
  · intro included
    ext n
    rw [mem_inter]
    exact ⟨fun both => both.1, fun member => ⟨member, included n member⟩⟩

/-- What a set shares with another one is all of that one when no member of it is missing. -/
theorem inter_eq_right_iff {a b : NatSet} : a ∩ b = b ↔ ∀ n ∈ b, n ∈ a := by
  constructor
  · intro same n member
    rw [← same, mem_inter] at member
    exact member.1
  · intro included
    ext n
    rw [mem_inter]
    exact ⟨fun both => both.2, fun member => ⟨included n member, member⟩⟩

@[simp] theorem mem_insert {n m : Nat} {set : NatSet} : n ∈ set.insert m ↔ n = m ∨ n ∈ set := by
  change (set.bits ||| 1 <<< m).testBit n = true ↔ _
  have single : (1 <<< m).testBit n = decide (m = n) := by
    rw [Nat.one_shiftLeft, Nat.testBit_two_pow]
  rw [Nat.testBit_or, single, mem_iff_testBit, Bool.or_eq_true, decide_eq_true_iff, or_comm,
    eq_comm]

/-- Inserting all numbers of a list adds exactly these. -/
private theorem mem_foldl_insert {n : Nat} (numbers : List Nat) (set : NatSet) :
    n ∈ numbers.foldl insert set ↔ n ∈ numbers ∨ n ∈ set := by
  induction numbers generalizing set with
  | nil => simp
  | cons first rest inductionHypothesis =>
      rw [List.foldl_cons, inductionHypothesis, mem_insert, List.mem_cons]
      exact or_left_comm.trans or_assoc.symm

/-- The set of a list has the members of the list. -/
@[simp] theorem mem_ofList {n : Nat} {numbers : List Nat} : n ∈ ofList numbers ↔ n ∈ numbers := by
  simp [ofList, mem_foldl_insert]

/-- An interval has the numbers between its bounds. -/
@[simp] theorem mem_interval {n lo hi : Nat} : n ∈ interval lo hi ↔ lo ≤ n ∧ n ≤ hi := by
  change ((Nat.pow 2 (hi + 1 - lo) - 1) <<< lo).testBit n = true ↔ _
  rw [Nat.testBit_shiftLeft, Nat.pow_eq, Nat.testBit_two_pow_sub_one]
  simp only [ge_iff_le, Bool.and_eq_true, decide_eq_true_iff]
  omega

/-- The bits below a bound are those of the accepted numbers. -/
private theorem testBit_bitsBelow (accepts : Nat → Bool) (bound n : Nat) :
    (bitsBelow accepts bound).testBit n = true ↔ n < bound ∧ accepts n = true := by
  induction bound with
  | zero => simp [bitsBelow]
  | succ bound inductionHypothesis =>
      have top : (if accepts bound then 1 <<< bound else 0).testBit n = true ↔
          n = bound ∧ accepts n = true := by
        split
        next accepted =>
          rw [Nat.one_shiftLeft, Nat.testBit_two_pow, decide_eq_true_iff]
          constructor
          · rintro rfl
            exact ⟨rfl, accepted⟩
          · exact fun both => both.1.symm
        next rejected =>
          rw [Nat.zero_testBit]
          constructor
          · intro impossible
            cases impossible
          · rintro ⟨rfl, accepted⟩
            exact absurd accepted rejected
      rw [bitsBelow, Nat.testBit_or, Bool.or_eq_true, inductionHypothesis, top, ← or_and_right]
      have below : n < bound ∨ n = bound ↔ n < bound + 1 := by omega
      rw [below]

/-- A filtered domain has the accepted numbers from one to its size. -/
@[simp] theorem mem_filterUpTo {n size : Nat} {accepts : Nat → Bool} :
    n ∈ filterUpTo size accepts ↔ (1 ≤ n ∧ n ≤ size) ∧ accepts n = true := by
  rw [filterUpTo, mem_iff_testBit, testBit_bitsBelow, Bool.and_eq_true, decide_eq_true_iff,
    Nat.lt_succ_iff]
  exact ⟨fun ⟨upper, lower, accepted⟩ => ⟨⟨lower, upper⟩, accepted⟩,
    fun ⟨⟨lower, upper⟩, accepted⟩ => ⟨upper, lower, accepted⟩⟩

/-- Packed bits are read back at their positions. -/
private theorem testBit_packBits (bits : List Bool) (n : Nat) :
    (packBits bits).testBit n = true ↔ bits[n]? = some true := by
  induction bits generalizing n with
  | nil => simp [packBits]
  | cons bit rest inductionHypothesis =>
      cases n with
      | zero => cases bit <;> simp [packBits, Nat.testBit_zero]
      | succ n =>
          have half : (2 * packBits rest + bit.toNat) / 2 = packBits rest := by
            cases bit with
            | false => simp
            | true =>
                simp
                omega
          rw [packBits, Nat.testBit_succ, half, inductionHypothesis, List.getElem?_cons_succ]

/-- The positions at which a property holds are those of the entries with the property. -/
@[simp] theorem mem_positions {α : Type} {accepts : α → Bool} {items : List α} {n : Nat} :
    n ∈ positions accepts items ↔ ∃ item, items[n]? = some item ∧ accepts item = true := by
  rw [positions, mem_iff_testBit, testBit_packBits, List.getElem?_map, Option.map_eq_some_iff]

/-- The list of a set has its members. -/
@[simp] theorem mem_toList {n : Nat} {set : NatSet} : n ∈ set.toList ↔ n ∈ set := by
  rw [toList, List.mem_filter, List.mem_range, mem_iff_testBit]
  constructor
  · exact fun both => both.2
  · intro member
    have large : 2 ^ n ≤ set.bits := Nat.ge_two_pow_of_testBit member
    have inhabited : set.bits ≠ 0 := Nat.ne_of_gt (Nat.lt_of_lt_of_le (Nat.two_pow_pos n) large)
    exact ⟨Nat.lt_succ_of_le ((Nat.le_log2 inhabited).2 large), member⟩

/-- The members are listed in increasing order. -/
theorem pairwise_toList (set : NatSet) : set.toList.Pairwise (· < ·) :=
  List.pairwise_lt_range.filter _

theorem nodup_toList (set : NatSet) : set.toList.Nodup := (pairwise_toList set).imp Nat.ne_of_lt

/-- Members below a bound are listed as the numbers below it that belong. -/
theorem toList_eq_filter_range {set : NatSet} {bound : Nat} (below : ∀ n ∈ set, n < bound) :
    set.toList = (List.range bound).filter (· ∈ set) := by
  have listed : ∀ n, n ∈ set.toList ↔ n ∈ (List.range bound).filter (· ∈ set) := by
    intro n
    rw [mem_toList, List.mem_filter, List.mem_range, decide_eq_true_iff]
    exact ⟨fun member => ⟨below n member, member⟩, fun both => both.2⟩
  have increasing : ((List.range bound).filter (· ∈ set)).Pairwise (· < ·) :=
    List.pairwise_lt_range.filter _
  have same := (List.perm_ext_iff_of_nodup (nodup_toList set)
    (increasing.imp Nat.ne_of_lt)).2 listed
  exact same.eq_of_pairwise (fun a b _ _ less greater => absurd less (Nat.lt_asymm greater))
    (pairwise_toList set) increasing

@[simp] theorem containsInt_natCast {set : NatSet} {n : Nat} :
    set.containsInt (n : Int) = true ↔ n ∈ set := by
  simp [containsInt, mem_iff_testBit]

theorem containsInt_eq_decide (set : NatSet) (n : Nat) : set.containsInt n = decide (n ∈ set) := by
  rw [Bool.eq_iff_iff, containsInt_natCast, decide_eq_true_iff]

/-- An integer belongs when it is one of the members. -/
theorem containsInt_iff {set : NatSet} {n : Int} :
    set.containsInt n = true ↔ ∃ m ∈ set, (m : Int) = n := by
  constructor
  · intro contains
    have positive : 0 ≤ n := of_decide_eq_true (Bool.and_eq_true_iff.1 contains).1
    obtain ⟨m, rfl⟩ := Int.eq_ofNat_of_zero_le positive
    exact ⟨m, containsInt_natCast.1 contains, rfl⟩
  · rintro ⟨m, member, rfl⟩
    exact containsInt_natCast.2 member

/-- Natural numbers given as integers all belong when each of them is a member. -/
theorem containsAll_map_ofNat {set : NatSet} {numbers : List Nat} :
    set.containsAll (numbers.map Int.ofNat) = true ↔ ∀ n ∈ numbers, n ∈ set := by
  simp [containsAll]

/-! ### Sizes -/

/-- A set is as large as a list of its members without repetition is long. -/
theorem size_eq_length {set : NatSet} {numbers : List Nat} (distinct : numbers.Nodup)
    (members : ∀ n, n ∈ numbers ↔ n ∈ set) : set.size = numbers.length := by
  have same := (List.perm_ext_iff_of_nodup (nodup_toList set) distinct).2
    fun n => mem_toList.trans (members n).symm
  exact same.length_eq

theorem size_pos_of_mem {set : NatSet} {n : Nat} (member : n ∈ set) : 0 < set.size :=
  List.length_pos_of_mem (mem_toList.2 member)

/-- What a set shares with another one and what it does not share are all of it. -/
theorem size_inter_add_size_sdiff (a b : NatSet) : (a ∩ b).size + (a \ b).size = a.size := by
  have shared : (a ∩ b).size = (a.toList.filter (· ∈ b)).length :=
    size_eq_length ((nodup_toList a).filter _) (by simp)
  have others : (a \ b).size = (a.toList.filter fun n => !decide (n ∈ b)).length :=
    size_eq_length ((nodup_toList a).filter _) (by simp)
  rw [shared, others, size, ← List.length_append]
  exact (List.filter_append_perm (fun n => decide (n ∈ b)) a.toList).length_eq

/-- A part of a set and all else in it are the set. -/
theorem size_add_size_sdiff {a b : NatSet} (included : a ⊆ b) : a.size + (b \ a).size = b.size := by
  have shared : b ∩ a = a := inter_eq_right_iff.2 (subset_iff.1 included)
  rw [← size_inter_add_size_sdiff b a, shared]

/-- A part of a set is not larger than the set. -/
theorem size_le_of_subset {a b : NatSet} (included : a ⊆ b) : a.size ≤ b.size := by
  rw [← size_add_size_sdiff included]
  exact Nat.le_add_right _ _

/-- A set with some distinct members is at least as large as these are many. -/
theorem length_le_size {set : NatSet} {numbers : List Nat} (distinct : numbers.Nodup)
    (members : ∀ n ∈ numbers, n ∈ set) : numbers.length ≤ set.size := by
  have listed : (ofList numbers).size = numbers.length :=
    size_eq_length distinct fun n => mem_ofList.symm
  rw [← listed]
  exact size_le_of_subset (subset_iff.2 fun n member => members n (mem_ofList.1 member))

end NumberConcepts.NatSet
