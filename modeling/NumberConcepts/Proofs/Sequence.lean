import Mathlib.Algebra.Group.Defs
import Mathlib.Data.List.Forall2
import Mathlib.Data.List.Infix
import Mathlib.Order.Lattice
import NumberConcepts.Hypothesis
/-!
# Sequences of faultless steps

Selections keep the order of a list, and what a filter leaves out counts as zero
in a sum. A sorted list stands in the order of its keys, a list of keys with their
values is looked up as a function, and a step that fails for no entry of a list
maps the list.
-/

namespace NumberConcepts.Sequence

/-- A selection of first entries leaves entries out and moves none. -/
theorem first_sublist {α : Type} (count : Int) (entries : List α) :
    (first count entries).Sublist entries := by
  rw [first]
  split
  · exact List.take_sublist _ _
  · exact List.take_sublist _ _

/-- A count that is not negative is the number of entries selected, if there are as many. -/
@[simp] theorem first_natCast {α : Type} (count : Nat) (entries : List α) :
    first (count : Int) entries = entries.take count := by
  rw [first, if_pos (Int.natCast_nonneg count), Int.toNat_natCast]

/-- The entries at all positions of a list are the list. -/
theorem filterMap_getElem?_range {α : Type} (entries : List α) :
    ((List.range entries.length).filterMap fun position => entries[position]?) = entries := by
  induction entries with
  | nil => rfl
  | cons first rest inductionHypothesis =>
      have start : (first :: rest)[0]? = some first := rfl
      rw [List.length_cons, List.range_succ_eq_map, List.filterMap_cons_some start,
        List.filterMap_map]
      simpa using inductionHypothesis

/-- What is left out counts as zero in a sum. -/
theorem sum_map_filter {α M : Type} [AddMonoid M] (keep : α → Bool) (value : α → M)
    (entries : List α) :
    ((entries.filter keep).map value).sum =
      (entries.map fun entry => if keep entry then value entry else 0).sum := by
  induction entries with
  | nil => rfl
  | cons first rest inductionHypothesis =>
      rw [List.map_cons, List.sum_cons, ← inductionHypothesis]
      cases kept : keep first with
      | true =>
          rw [List.filter_cons_of_pos kept, List.map_cons, List.sum_cons]
          rfl
      | false =>
          rw [List.filter_cons_of_neg (by simp [kept])]
          exact (zero_add _).symm

/-- A list without repetition has no repetitions to erase. -/
theorem eraseDups_of_nodup {α : Type} [BEq α] [LawfulBEq α] {entries : List α}
    (distinct : entries.Nodup) : entries.eraseDups = entries := by
  induction entries with
  | nil => rfl
  | cons first rest inductionHypothesis =>
      obtain ⟨new, restDistinct⟩ := List.nodup_cons.1 distinct
      have others : rest.filter (fun entry => !entry == first) = rest := by
        rw [List.filter_eq_self]
        intro entry listed
        simpa using ne_of_mem_of_not_mem listed new
      rw [List.eraseDups_cons, others, inductionHypothesis restDistinct]

/-- Where all keys stand beside their values, a key is found if it is listed. -/
theorem lookup_map_pair {κ β : Type} [BEq κ] [LawfulBEq κ] [DecidableEq κ] (value : κ → β)
    (keys : List κ) (key : κ) :
    (keys.map fun key => (key, value key)).lookup key =
      if key ∈ keys then some (value key) else none := by
  induction keys with
  | nil => rfl
  | cons first rest inductionHypothesis =>
      rw [List.map_cons, List.lookup_cons, inductionHypothesis]
      by_cases same : key = first
      · simp [same]
      · have different : (key == first) = false := by simpa using same
        simp [same, different]

/-- Only the pairs with an entry of the second list matter when two lists are zipped. -/
theorem zipWith_congr_right {α β γ : Type} {f g : α → β → γ} {second : List β}
    (same : ∀ b ∈ second, ∀ a, f a b = g a b) (first : List α) :
    List.zipWith f first second = List.zipWith g first second := by
  induction first generalizing second with
  | nil => rfl
  | cons a rest inductionHypothesis =>
      cases second with
      | nil => rfl
      | cons b others =>
          obtain ⟨now, later⟩ := List.forall_mem_cons.1 same
          rw [List.zipWith_cons_cons, List.zipWith_cons_cons, now, inductionHypothesis later]

/-- Where a comparison is one of keys, a sorted list is sorted by its keys. -/
theorem pairwise_mergeSort_of_key {α κ : Type} [LinearOrder κ] {before : α → α → Bool}
    {key : α → κ} {entries : List α}
    (compares : ∀ a ∈ entries, ∀ b ∈ entries, before a b = decide (key a ≤ key b)) :
    (entries.mergeSort before).Pairwise fun a b => key a ≤ key b := by
  have same : entries.mergeSort before = entries.mergeSort fun a b => decide (key a ≤ key b) := by
    simpa using List.map_mergeSort (f := id) compares
  have sorted : (entries.mergeSort fun a b => decide (key a ≤ key b)).Pairwise fun a b =>
      decide (key a ≤ key b) = true := by
    apply List.pairwise_mergeSort
    · intro a b c first second
      rw [decide_eq_true_iff] at first second ⊢
      exact le_trans first second
    · intro a b
      rw [Bool.or_eq_true, decide_eq_true_iff, decide_eq_true_iff]
      exact le_total (key a) (key b)
  rw [same]
  exact sorted.imp of_decide_eq_true

/-- Two steps one after the other succeed only if the first one does. -/
theorem exists_of_bind_ok {α β ε : Type} {step : Except ε α} {next : α → Except ε β} {result : β}
    (succeeds : step >>= next = .ok result) :
    ∃ value, step = .ok value ∧ next value = .ok result := by
  cases step with
  | error fault => cases succeeds
  | ok value => exact ⟨value, rfl, succeeds⟩

/-- Steps that do the same for every entry do the same for the list. -/
theorem mapM_congr {m : Type → Type} [Monad m] [LawfulMonad m] {α β : Type} {step step' : α → m β}
    {entries : List α} (same : ∀ entry ∈ entries, step entry = step' entry) :
    entries.mapM step = entries.mapM step' := by
  induction entries with
  | nil => rw [List.mapM_nil, List.mapM_nil]
  | cons first rest inductionHypothesis =>
      obtain ⟨now, later⟩ := List.forall_mem_cons.1 same
      rw [List.mapM_cons, List.mapM_cons, now, inductionHypothesis later]

/-- A step that succeeds for every entry succeeds for the list. -/
theorem mapM_ok {α β ε : Type} {step : α → Except ε β} {result : α → β} {entries : List α}
    (succeeds : ∀ entry ∈ entries, step entry = .ok (result entry)) :
    entries.mapM step = .ok (entries.map result) := by
  induction entries with
  | nil => rfl
  | cons first rest inductionHypothesis =>
      obtain ⟨now, later⟩ := List.forall_mem_cons.1 succeeds
      rw [List.mapM_cons, now, inductionHypothesis later]
      rfl

/-- A step that succeeds for every entry succeeds for the list, and relates each entry to its
result. -/
theorem mapM_forall₂_ok {α β ε : Type} {step : α → Except ε β} {related : α → β → Prop}
    {entries : List α}
    (succeeds : ∀ entry ∈ entries, ∃ result, step entry = .ok result ∧ related entry result) :
    ∃ results, entries.mapM step = .ok results ∧ List.Forall₂ related entries results := by
  induction entries with
  | nil => exact ⟨[], rfl, .nil⟩
  | cons first rest inductionHypothesis =>
      obtain ⟨now, later⟩ := List.forall_mem_cons.1 succeeds
      obtain ⟨result, succeedsNow, isRelated⟩ := now
      obtain ⟨results, succeedsLater, areRelated⟩ := inductionHypothesis later
      refine ⟨result :: results, ?_, .cons isRelated areRelated⟩
      rw [List.mapM_cons, succeedsNow, succeedsLater]
      rfl

/-- A step that succeeds for a list succeeded for every entry. -/
theorem forall₂_of_mapM_ok {α β ε : Type} {step : α → Except ε β} {entries : List α}
    {results : List β} (succeeds : entries.mapM step = .ok results) :
    List.Forall₂ (fun entry result => step entry = .ok result) entries results := by
  induction entries generalizing results with
  | nil =>
      cases succeeds
      exact .nil
  | cons first rest inductionHypothesis =>
      rw [List.mapM_cons] at succeeds
      obtain ⟨result, now, succeeds⟩ := exists_of_bind_ok succeeds
      obtain ⟨others, later, succeeds⟩ := exists_of_bind_ok succeeds
      cases succeeds
      exact .cons now (inductionHypothesis later)

/-- What is among the results of a list is the result of an entry. -/
theorem exists_of_mem_mapM_ok {α β ε : Type} {step : α → Except ε β} {entries : List α}
    {results : List β} (succeeds : entries.mapM step = .ok results) {result : β}
    (listed : result ∈ results) : ∃ entry ∈ entries, step entry = .ok result := by
  have pairs := forall₂_of_mapM_ok succeeds
  clear succeeds
  induction pairs with
  | nil => cases listed
  | @cons entry first _ _ succeedsNow _ inductionHypothesis =>
      rcases List.mem_cons.1 listed with rfl | later
      · exact ⟨entry, List.mem_cons_self, succeedsNow⟩
      · obtain ⟨other, isEntry, succeedsLater⟩ := inductionHypothesis later
        exact ⟨other, List.mem_cons_of_mem _ isEntry, succeedsLater⟩

/-- Where a step lists for every entry what has a property with it, the lists together hold what
has the property with some entry. -/
theorem mapM_flatten_ok {α β ε : Type} {step : α → Except ε (List β)} {property : α → β → Prop}
    {entries : List α}
    (lists : ∀ entry ∈ entries, ∃ result, step entry = .ok result ∧
      ∀ x, x ∈ result ↔ property entry x) :
    ∃ results, entries.mapM step = .ok results ∧
      ∀ x, x ∈ results.flatten ↔ ∃ entry ∈ entries, property entry x := by
  induction entries with
  | nil => exact ⟨[], rfl, by simp⟩
  | cons first rest inductionHypothesis =>
      obtain ⟨now, later⟩ := List.forall_mem_cons.1 lists
      obtain ⟨result, listed, members⟩ := now
      obtain ⟨results, restListed, restMembers⟩ := inductionHypothesis later
      refine ⟨result :: results, ?_, ?_⟩
      · rw [List.mapM_cons, listed, restListed]
        rfl
      · intro x
        simp only [List.flatten_cons, List.mem_append, members, restMembers, List.mem_cons,
          or_and_right, exists_or, exists_eq_left]

/-- Where all failing steps fail alike, one of them makes the whole list fail so. -/
theorem mapM_eq_error {α β ε : Type} {step : α → Except ε β} {fault : ε}
    (alike : ∀ entry other, step entry = .error other → other = fault) {entries : List α} {failing : α}
    (listed : failing ∈ entries) (fails : step failing = .error fault) :
    entries.mapM step = .error fault := by
  induction entries with
  | nil => cases listed
  | cons first rest inductionHypothesis =>
      rw [List.mapM_cons]
      cases now : step first with
      | error other =>
          rw [alike first other now]
          rfl
      | ok result =>
          have later : failing ∈ rest := by
            rcases List.mem_cons.1 listed with rfl | later
            · cases now.symm.trans fails
            · exact later
          rw [inductionHypothesis later]
          rfl

/-- Where all failing steps fail alike, lists of the same entries fail alike, or what is listed for
their entries is the same. -/
theorem mapM_flatten_congr {α β ε : Type} {step : α → Except ε (List β)} {fault : ε}
    (alike : ∀ entry other, step entry = .error other → other = fault) {first second : List α}
    (same : ∀ entry, entry ∈ first ↔ entry ∈ second) :
    (first.mapM step = .error fault ∧ second.mapM step = .error fault) ∨
      ∃ results results', first.mapM step = .ok results ∧ second.mapM step = .ok results' ∧
        ∀ x, x ∈ results.flatten ↔ x ∈ results'.flatten := by
  by_cases fails : ∃ entry ∈ first, ∃ other, step entry = .error other
  · obtain ⟨entry, listed, other, failsSo⟩ := fails
    obtain rfl := alike entry other failsSo
    exact .inl ⟨mapM_eq_error alike listed failsSo,
      mapM_eq_error alike ((same entry).1 listed) failsSo⟩
  · have each : ∀ entry ∈ first, ∃ result, step entry = .ok result ∧
        ∀ x, x ∈ result ↔ ∃ result, step entry = .ok result ∧ x ∈ result := by
      intro entry listed
      cases now : step entry with
      | error other => exact absurd ⟨entry, listed, other, now⟩ fails
      | ok result => exact ⟨result, rfl, by simp⟩
    obtain ⟨results, succeeds, members⟩ := mapM_flatten_ok each
    obtain ⟨results', succeeds', members'⟩ :=
      mapM_flatten_ok fun entry listed => each entry ((same entry).2 listed)
    refine .inr ⟨results, results', succeeds, succeeds', fun x => ?_⟩
    simp only [members, members', same]

/-- What is kept of the first entries is kept first. -/
theorem prefix_filter_take {α : Type} (keep : α → Bool) (entries : List α) (count : Nat) :
    (entries.take count).filter keep <+: (entries.filter keep).take count := by
  rw [List.prefix_take_iff]
  exact ⟨(List.take_prefix count entries).filter keep,
    (List.length_filter_le _ _).trans (List.length_take_le _ _)⟩

/-- The first entries are the first that are kept exactly when all of them are kept. -/
theorem take_eq_take_filter_iff {α : Type} {keep : α → Bool} {entries : List α} {count : Nat} :
    entries.take count = (entries.filter keep).take count ↔
      ∀ entry ∈ entries.take count, keep entry = true := by
  constructor
  · intro same entry listed
    rw [same] at listed
    exact (List.mem_filter.1 (List.mem_of_mem_take listed)).2
  · intro kept
    have isPrefix := prefix_filter_take keep entries count
    rw [List.filter_eq_self.2 kept] at isPrefix
    apply isPrefix.eq_of_length_le
    rw [List.length_take, List.length_take]
    have fewer := List.length_filter_le keep entries
    omega

/-- Where nothing kept stands behind what is not, as many first entries as are kept are these. -/
theorem forall_mem_take_of_pairwise {α : Type} {keep : α → Bool} {entries : List α}
    (sorted : entries.Pairwise fun before after => keep after = true → keep before = true)
    {count : Nat} (enough : count ≤ (entries.filter keep).length) :
    ∀ entry ∈ entries.take count, keep entry = true := by
  induction sorted generalizing count with
  | nil => simp
  | @cons first rest ahead _ inductionHypothesis =>
      cases count with
      | zero => simp
      | succ count =>
          have kept : keep first = true := by
            obtain ⟨entry, listed⟩ := List.exists_mem_of_length_pos (Nat.zero_lt_of_lt enough)
            obtain ⟨given, kept⟩ := List.mem_filter.1 listed
            rcases List.mem_cons.1 given with rfl | later
            · exact kept
            · exact ahead entry later kept
          rw [List.filter_cons_of_pos kept, List.length_cons] at enough
          rw [List.take_succ_cons, List.forall_mem_cons]
          exact ⟨kept, inductionHypothesis (Nat.le_of_succ_le_succ enough)⟩

end NumberConcepts.Sequence
