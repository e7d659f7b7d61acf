import Mathlib.Algebra.BigOperators.Group.Finset.Basic
import Mathlib.Data.Finset.Sort
import NumberConcepts.Proofs.Scalar
import NumberConcepts.Statistics.Samples
/-!
# Values collected under keys

Keys are compared through their ranks. Whatever entries are grouped, some of their keys
stand for them, one for each different rank, and a group has all values of its rank in
order: `exists_groups_eq`. So the summaries of all groups are `rows`, one for each rank and
increasing, which are written down without groups. Nothing is lost or counted twice, and
the order of entries does not show.
-/

namespace NumberConcepts.Statistics

variable {α κ K : Type}

/-! ### Groups -/

section Groups

variable [LinearOrder K]

/-- The values of the entries of a rank, in order. -/
def valuesAt (entries : List (K × α)) (rank : K) : List α :=
  (entries.filter fun entry => entry.1 = rank).map Prod.snd

theorem valuesAt_concat (entries : List (K × α)) (last : K × α) (rank : K) :
    valuesAt (entries ++ [last]) rank =
      valuesAt entries rank ++ if last.1 = rank then [last.2] else [] := by
  rw [valuesAt, List.filter_append, List.map_append, ← valuesAt, List.filter_singleton]
  congr 1
  by_cases here : last.1 = rank <;> simp [here]

theorem valuesAt_eq_nil {entries : List (K × α)} {rank : K}
    (absent : rank ∉ entries.map Prod.fst) : valuesAt entries rank = [] := by
  rw [valuesAt, List.map_eq_nil_iff, List.filter_eq_nil_iff]
  intro entry listed same
  exact absent (List.mem_map.2 ⟨entry, listed, of_decide_eq_true same⟩)

theorem mem_valuesAt {entries : List (K × α)} {rank : K} {value : α} :
    value ∈ valuesAt entries rank ↔ (rank, value) ∈ entries := by
  rw [valuesAt, List.mem_map]
  constructor
  · rintro ⟨⟨_, _⟩, listed, rfl⟩
    obtain ⟨listed, same⟩ := List.mem_filter.1 listed
    exact of_decide_eq_true same ▸ listed
  · exact fun listed => ⟨_, List.mem_filter.2 ⟨listed, decide_eq_true rfl⟩, rfl⟩

theorem valuesAt_map {β : Type} (f : α → β) (entries : List (K × α)) (rank : K) :
    valuesAt (entries.map (Prod.map id f)) rank = (valuesAt entries rank).map f := by
  rw [valuesAt, List.filter_map, List.map_map, valuesAt, List.map_map]
  rfl

/-- There are as many values as entries of the rank. -/
theorem length_valuesAt (entries : List (K × α)) (rank : K) :
    (valuesAt entries rank).length = (entries.map Prod.fst).count rank := by
  rw [valuesAt, List.length_map, List.count, List.countP_map, ← List.countP_eq_length_filter]
  exact List.countP_congr fun entry _ => by simp

/-- Known keys are compared as their ranks are. -/
structure ComparedBy (known : κ → Prop) (rank : κ → K) (same precedes : κ → κ → Bool) : Prop where
  same : ∀ {a b}, known a → known b → same a b = decide (rank a = rank b)
  precedes : ∀ {a b}, known a → known b → precedes a b = decide (rank a ≤ rank b)

/-- The keys stand for the entries: there is one for each different rank. -/
structure Represents (known : κ → Prop) (rank : κ → K) (keys : List κ)
    (entries : List (K × α)) : Prop where
  known : ∀ key ∈ keys, known key
  distinct : (keys.map rank).Nodup
  ranks : ∀ r, r ∈ keys.map rank ↔ r ∈ entries.map Prod.fst

section Adding

variable {known : κ → Prop} {rank : κ → K} {same precedes : κ → κ → Bool}
  {keys : List κ} {key : κ} {entries : List (K × α)}

/-- The keys with a further one, unless its rank is among theirs. -/
def addKey (rank : κ → K) (key : κ) (keys : List κ) : List κ :=
  if rank key ∈ keys.map rank then keys else keys ++ [key]

/-- A further entry has a key that stands for it. -/
theorem Represents.addKey (represents : Represents known rank keys entries) (isKnown : known key)
    (value : α) :
    Represents known rank (addKey rank key keys) (entries ++ [(rank key, value)]) := by
  obtain ⟨known, distinct, ranks⟩ := represents
  rw [Statistics.addKey]
  split
  next old =>
    refine ⟨known, distinct, fun r => ?_⟩
    rw [ranks, List.map_append, List.mem_append, List.map_singleton, List.mem_singleton]
    refine (or_iff_left_of_imp ?_).symm
    rintro rfl
    exact (ranks _).1 old
  next new =>
    refine ⟨?_, ?_, fun r => ?_⟩
    · exact List.forall_mem_append.2 ⟨known, List.forall_mem_singleton.2 isKnown⟩
    · rw [List.map_append, List.map_singleton, ← List.concat_eq_append]
      exact distinct.concat new
    · rw [List.map_append, List.map_append, List.mem_append, List.mem_append, ranks]
      rfl

/-- A further value joins the group of its rank, which is new if no key has this rank. -/
theorem addToGroups_map (compared : ComparedBy known rank same precedes)
    (areKnown : ∀ other ∈ keys, known other) (isKnown : known key)
    (distinct : (keys.map rank).Nodup) (values : K → List α)
    (none : rank key ∉ keys.map rank → values (rank key) = []) (value : α) :
    addToGroups same key value (keys.map fun other => (other, values (rank other))) =
      (addKey rank key keys).map fun other =>
        (other, values (rank other) ++ if rank key = rank other then [value] else []) := by
  induction keys with
  | nil => simp [addKey, addToGroups, none]
  | cons first rest inductionHypothesis =>
      obtain ⟨isKnown', areKnown⟩ := List.forall_mem_cons.1 areKnown
      obtain ⟨apart, distinct⟩ := List.nodup_cons.1 distinct
      rw [List.map_cons, addToGroups]
      by_cases joins : rank first = rank key
      · have old : rank key ∈ (first :: rest).map rank := joins ▸ List.mem_cons_self
        rw [compared.same isKnown' isKnown, if_pos (decide_eq_true joins), addKey, if_pos old,
          List.map_cons, if_pos joins.symm]
        refine congrArg _ (List.map_congr_left fun other listed => ?_)
        have differs : rank key ≠ rank other := by
          rw [← joins]
          rintro same
          exact apart (same ▸ List.mem_map_of_mem listed)
        rw [if_neg differs, List.append_nil]
      · have later : rank key ∈ (first :: rest).map rank ↔ rank key ∈ rest.map rank := by
          rw [List.map_cons, List.mem_cons, or_iff_right (Ne.symm joins)]
        rw [compared.same isKnown' isKnown, if_neg (mt of_decide_eq_true joins),
          inductionHypothesis areKnown distinct fun new => none (mt later.1 new), addKey, addKey]
        simp only [later]
        split <;> simp [Ne.symm joins]

/-- The groups of entries are those of keys that stand for them, each with all values of its
rank. -/
theorem exists_groups_eq (compared : ComparedBy known rank same precedes) {entries : List (κ × α)}
    (areKnown : ∀ entry ∈ entries, known entry.1) :
    ∃ keys, Represents known rank keys (entries.map (Prod.map rank id)) ∧
      groups same entries = keys.map fun key =>
        (key, valuesAt (entries.map (Prod.map rank id)) (rank key)) := by
  induction entries using List.reverseRecOn with
  | nil => exact ⟨[], ⟨List.forall_mem_nil _, List.nodup_nil, fun r => Iff.rfl⟩, rfl⟩
  | append_singleton entries entry inductionHypothesis =>
      obtain ⟨before, last⟩ := List.forall_mem_append.1 areKnown
      have isKnown := List.forall_mem_singleton.1 last
      obtain ⟨keys, represents, found⟩ := inductionHypothesis before
      obtain ⟨key, value⟩ := entry
      let values := valuesAt (entries.map (Prod.map rank id))
      have none : rank key ∉ keys.map rank → values (rank key) = [] := fun new =>
        valuesAt_eq_nil (mt (represents.ranks _).2 new)
      have added := addToGroups_map compared represents.known isKnown represents.distinct values
        none value
      refine ⟨addKey rank key keys, ?_, ?_⟩
      · rw [List.map_append]
        exact represents.addKey isKnown value
      · rw [groups, List.foldl_append, ← groups, found, List.foldl_cons, List.foldl_nil]
        simp only [List.map_append, List.map_singleton, valuesAt_concat]
        exact added

end Adding

/-! ### Rows -/

/-- The different ranks of entries, increasing. -/
def ranksOf (entries : List (K × α)) : List K := (entries.map Prod.fst).toFinset.sort

theorem sortedLT_ranksOf (entries : List (K × α)) : (ranksOf entries).SortedLT :=
  Finset.sortedLT_sort _

theorem mem_ranksOf {entries : List (K × α)} {rank : K} :
    rank ∈ ranksOf entries ↔ rank ∈ entries.map Prod.fst := by
  rw [ranksOf, Finset.mem_sort, List.mem_toFinset]

/-- Keys that stand for entries have their ranks. -/
theorem Represents.mergeSort_eq {known : κ → Prop} {rank : κ → K} {keys : List κ}
    {entries : List (K × α)} (represents : Represents known rank keys entries) :
    (keys.map rank).mergeSort (· ≤ ·) = ranksOf entries := by
  have sorted : ((keys.map rank).mergeSort (· ≤ ·)).SortedLE :=
    (List.pairwise_mergeSort' (· ≤ ·) _).sortedLE
  have distinct : ((keys.map rank).mergeSort (· ≤ ·)).Nodup :=
    (List.mergeSort_perm _ _).nodup_iff.2 represents.distinct
  refine (sorted.sortedLT_of_nodup distinct).eq_of_mem_iff (sortedLT_ranksOf entries) fun r => ?_
  rw [List.mem_mergeSort, represents.ranks, mem_ranksOf]

variable [Scalar α]

/-- The summary of the values of a rank. -/
def row (entries : List (K × α)) (rank : K) : GroupSummary K α :=
  .ofValues rank (valuesAt entries rank)

/-- One summary for each different rank, increasing. -/
def rows (entries : List (K × α)) : List (GroupSummary K α) := (ranksOf entries).map (row entries)

/-- Values that are computed from others stand in the rows of these. -/
theorem rows_map {β : Type} (f : β → α) (entries : List (K × β)) :
    rows (entries.map (Prod.map id f)) =
      (ranksOf entries).map fun rank => .ofValues rank ((valuesAt entries rank).map f) := by
  rw [rows, ranksOf, List.map_map]
  exact List.map_congr_left fun rank _ =>
    congrArg (GroupSummary.ofValues rank) (valuesAt_map f entries rank)

/-- The summary, with the rank of its key instead of the key. -/
def GroupSummary.ranked (rank : κ → K) (summary : GroupSummary κ α) : GroupSummary K α :=
  ⟨rank summary.key, summary.mean, summary.deviation, summary.standardError, summary.count⟩

/-- The summaries of groups are those of the ranks of their keys. -/
theorem summarize_eq_rows {known : κ → Prop} {rank : κ → K} {same precedes : κ → κ → Bool}
    (compared : ComparedBy known rank same precedes) {entries : List (κ × α)}
    (areKnown : ∀ entry ∈ entries, known entry.1) :
    (summarize same precedes entries).map (.ranked rank) =
      rows (entries.map (Prod.map rank id)) := by
  obtain ⟨keys, represents, found⟩ := exists_groups_eq compared areKnown
  let ranked := entries.map (Prod.map rank id)
  let group := fun key => (key, valuesAt ranked (rank key))
  -- Groups, keys and ranks are sorted alike.
  have sortedKeys : (keys.map group).mergeSort (fun a b => precedes a.1 b.1) =
      (keys.mergeSort precedes).map group :=
    (List.map_mergeSort (r := precedes) (f := group) fun _ _ _ _ => rfl).symm
  have sortedRanks : (keys.mergeSort precedes).map rank = ranksOf ranked := by
    rw [← represents.mergeSort_eq]
    exact List.map_mergeSort fun a inKeys b inKeys' =>
      compared.precedes (represents.known a inKeys) (represents.known b inKeys')
  rw [summarize, found, sortedKeys, rows, ← sortedRanks, List.map_map, List.map_map, List.map_map]
  rfl

/-- A summary has a key of its entries. -/
theorem known_of_mem_summarize {known : κ → Prop} {rank : κ → K} {same precedes : κ → κ → Bool}
    (compared : ComparedBy known rank same precedes) {entries : List (κ × α)}
    (areKnown : ∀ entry ∈ entries, known entry.1) :
    ∀ summary ∈ summarize same precedes entries, known summary.key := by
  obtain ⟨keys, represents, found⟩ := exists_groups_eq compared areKnown
  rw [summarize, found, List.forall_mem_map]
  intro group listed
  obtain ⟨key, inKeys, rfl⟩ := List.mem_map.1 (List.mem_mergeSort.1 listed)
  exact represents.known key inKeys

end Groups

/-- Values under integers are summarized in rows. -/
theorem summarizeByNumber_eq_rows [Scalar α] (entries : List (Int × α)) :
    summarizeByNumber entries = rows entries := by
  have compared : ComparedBy (fun _ : Int => True) id (· == ·) (· ≤ ·) :=
    ⟨fun _ _ => rfl, fun _ _ => rfl⟩
  have summarized := summarize_eq_rows compared fun entry (_ : entry ∈ entries) => trivial
  have ranked : (GroupSummary.ranked id : GroupSummary Int α → GroupSummary Int α) = id := rfl
  rwa [ranked, List.map_id, Prod.map_id, List.map_id] at summarized

/-! ### Rows without rounding -/

section Exact

open Exact

variable {first second : List Exact}

/-- The number of values times their mean is their sum. -/
theorem length_mul_mean (values : List Exact) :
    real values.length * mean values = Scalar.sum values := by
  cases values with
  | nil =>
      change real ((0 : Nat) : ℝ) * Scalar.zero = Scalar.zero
      rw [zero_eq, real_mul_real, mul_zero]
  | cons value rest =>
      have positive : (0 : ℝ) < (value :: rest).length := Nat.cast_pos.2 (Nat.succ_pos _)
      exact real_mul_div_cancel positive _

theorem mean_perm (reordered : first.Perm second) : mean first = mean second := by
  rw [mean, mean, sum_perm reordered, reordered.length_eq, reordered.isEmpty_eq]

/-- The order of values does not show in their summary. -/
theorem ofValues_perm {rank : K} (reordered : first.Perm second) :
    GroupSummary.ofValues rank first = GroupSummary.ofValues rank second := by
  have distances : squaredDistances first = squaredDistances second := by
    rw [squaredDistances, squaredDistances, mean_perm reordered]
    exact sum_perm (reordered.map _)
  have deviations : deviation first = deviation second := by
    rw [deviation, deviation, distances, reordered.length_eq]
  have errors : standardError first = standardError second := by
    rw [standardError, standardError, deviations, reordered.length_eq]
  rw [GroupSummary.ofValues, GroupSummary.ofValues, mean_perm reordered, deviations, errors,
    reordered.length_eq]

/-- The mean of ones and zeros is the share of the ones. -/
theorem mean_map_ite {β : Type} (test : β → Bool) {entries : List β} (given : entries ≠ []) :
    mean (entries.map fun entry => if test entry then Scalar.one else Scalar.zero) =
      real (entries.countP test / entries.length) := by
  have sum : ∀ entries : List β,
      (entries.map fun entry => if test entry then (1 : ℝ) else 0).sum = entries.countP test := by
    intro entries
    induction entries with
    | nil => simp
    | cons entry rest inductionHypothesis =>
        rw [List.map_cons, List.sum_cons, inductionHypothesis, List.countP_cons]
        split <;> simp [add_comm]
  have ones : (entries.map fun entry => if test entry then Scalar.one else Scalar.zero) =
      (entries.map fun entry => if test entry then (1 : ℝ) else 0).map real := by
    rw [List.map_map]
    refine List.map_congr_left fun entry _ => ?_
    rw [one_eq, zero_eq, Function.comp_apply]
    split <;> rfl
  have notEmpty : entries.isEmpty = false := by simpa using given
  have positive : (entries.length : ℝ) ≠ 0 := by simpa using given
  rw [mean, List.isEmpty_map, notEmpty, ones, sum_map_real, sum, List.length_map, List.length_map,
    ofNat_eq]
  exact real_div_real positive

variable [LinearOrder K]

/-- The order of entries does not show in their rows. -/
theorem rows_perm {first second : List (K × Exact)} (reordered : first.Perm second) :
    rows first = rows second := by
  have ranks : ranksOf first = ranksOf second := by
    rw [ranksOf, ranksOf, List.toFinset_eq_of_perm _ _ (reordered.map _)]
  rw [rows, rows, ranks]
  exact List.map_congr_left fun rank _ => ofValues_perm ((reordered.filter _).map _)

/-- The rows account for the entries: there is one for each different rank, increasing, and together
they have each entry once. -/
structure Accounts (entries : List (K × Exact)) (rows : List (GroupSummary K Exact)) : Prop where
  increasing : (rows.map GroupSummary.key).Pairwise (· < ·)
  ranks : ∀ rank, rank ∈ rows.map GroupSummary.key ↔ rank ∈ entries.map Prod.fst
  total : (rows.map GroupSummary.count).sum = entries.length
  sums : ∀ row ∈ rows, real row.count * row.mean = Scalar.sum (valuesAt entries row.key)

theorem accounts_rows (entries : List (K × Exact)) : Accounts entries (rows entries) := by
  have keys : (rows entries).map GroupSummary.key = ranksOf entries := by
    rw [rows, List.map_map]
    exact List.map_id _
  have counts : (rows entries).map GroupSummary.count =
      (ranksOf entries).map fun rank => (entries.map Prod.fst).count rank := by
    rw [rows, List.map_map]
    exact List.map_congr_left fun rank _ => length_valuesAt entries rank
  refine ⟨?_, fun rank => ?_, ?_, ?_⟩
  · rw [keys]
    exact (sortedLT_ranksOf entries).pairwise
  · rw [keys, mem_ranksOf]
  · rw [counts, ← List.sum_toFinset _ (sortedLT_ranksOf entries).nodup, ranksOf,
      Finset.sort_toFinset, List.sum_toFinset_count_eq_length, List.length_map]
  · rw [rows, List.forall_mem_map]
    exact fun rank _ => length_mul_mean (valuesAt entries rank)

end Exact

end NumberConcepts.Statistics
