import NumberConcepts.Proofs.Search.Levels
/-!
# No repetition in the exhaustive enumeration

A concept shows its operation and its parts, so it can only be met twice where
the same two concepts are combined twice. `pairwise_rows` says that the rows of
a level never do that; `nodup_all` carries it through all levels.
-/

namespace NumberConcepts.Enumeration

variable {size : Nat}

/-- What is listed for one row has no repetition when its partners have none. -/
theorem nodup_combinations {row : Row size} (partners : row.2.Nodup) :
    (combinations row).Nodup := by
  rw [combinations, List.nodup_flatMap]
  constructor
  · intro partner _
    apply List.Nodup.filterMap _ (by decide)
    intro operation operation' result composed composed'
    exact (Hypothesis.operands_of_compose composed composed').1
  · apply List.Pairwise.imp _ partners
    intro partner partner' different result listed listed'
    obtain ⟨operation, _, composed⟩ := List.mem_filterMap.1 listed
    obtain ⟨operation', _, composed'⟩ := List.mem_filterMap.1 listed'
    obtain ⟨_, ⟨_, same⟩ | ⟨same, same'⟩⟩ := Hypothesis.operands_of_compose composed composed'
    · exact different same
    · exact different (same'.trans same)

/-- A row whose first concept is neither the first of another row nor among its partners. -/
def Apart (row row' : Row size) : Prop := row.1 ≠ row'.1 ∧ row.1 ∉ row'.2

/-- Rows that are apart have no result in common. -/
theorem Apart.disjoint {row row' : Row size} (apart : Apart row row') :
    List.Disjoint (combinations row) (combinations row') := by
  intro result listed listed'
  obtain ⟨partner, _, operation, composed⟩ := mem_combinations.1 listed
  obtain ⟨partner', isPartner, operation', composed'⟩ := mem_combinations.1 listed'
  obtain ⟨_, ⟨same, _⟩ | ⟨same, _⟩⟩ := Hypothesis.operands_of_compose composed composed'
  · exact apart.1 same
  · exact apart.2 (same ▸ isPartner)

/-- A row of later partners consists of entries of the list, without repetition if it has none. -/
private theorem mem_laterPartners {list : List (Hypothesis size)} {row : Row size}
    (isRow : row ∈ laterPartners list) : row.1 ∈ list ∧ row.2.Sublist list := by
  induction list with
  | nil => cases isRow
  | cons first rest inductionHypothesis =>
      rw [laterPartners, List.mem_cons] at isRow
      rcases isRow with rfl | later
      · exact ⟨List.mem_cons_self, List.sublist_cons_self first rest⟩
      · obtain ⟨member, partners⟩ := inductionHypothesis later
        exact ⟨List.mem_cons_of_mem first member, partners.cons first⟩

/-- The rows of later partners are apart in a list without repetition. -/
private theorem pairwise_laterPartners {list : List (Hypothesis size)} (unrepeated : list.Nodup) :
    (laterPartners list).Pairwise Apart := by
  induction list with
  | nil => exact List.Pairwise.nil
  | cons first rest inductionHypothesis =>
      obtain ⟨fresh, restUnrepeated⟩ := List.nodup_cons.1 unrepeated
      refine List.pairwise_cons.2 ⟨?_, inductionHypothesis restUnrepeated⟩
      intro row isRow
      obtain ⟨member, partners⟩ := mem_laterPartners isRow
      constructor
      · rintro rfl
        exact fresh member
      · intro isPartner
        exact fresh (partners.subset isPartner)

/-- The rows of a level are apart when no concept so far is repeated. -/
theorem pairwise_rows {older newest : List (Hypothesis size)}
    (unrepeated : (older ++ newest).Nodup) : (rows older newest).Pairwise Apart := by
  obtain ⟨olderUnrepeated, newestUnrepeated, disjoint⟩ := List.nodup_append'.1 unrepeated
  refine List.pairwise_append.2 ⟨?_, pairwise_laterPartners newestUnrepeated, ?_⟩
  · rw [List.pairwise_map]
    apply List.Pairwise.imp_of_mem _ olderUnrepeated
    intro a b memberA _ different
    exact ⟨different, fun isPartner => disjoint memberA isPartner⟩
  · intro row olderRow row' newestRow
    obtain ⟨a, memberA, rfl⟩ := List.mem_map.1 olderRow
    obtain ⟨member, partners⟩ := mem_laterPartners newestRow
    constructor
    · rintro rfl
      exact disjoint memberA member
    · exact fun isPartner => disjoint memberA (partners.subset isPartner)

/-- A level has no repetition when the concepts so far have none. -/
theorem nodup_level {older newest : List (Hypothesis size)}
    (unrepeated : (older ++ newest).Nodup) : (level older newest).Nodup := by
  rw [level, List.nodup_flatMap]
  refine ⟨?_, (pairwise_rows unrepeated).imp Apart.disjoint⟩
  intro row isRow
  apply nodup_combinations
  have newestUnrepeated : newest.Nodup := (List.nodup_append'.1 unrepeated).2.1
  rcases List.mem_append.1 isRow with olderRow | newestRow
  · obtain ⟨a, _, rfl⟩ := List.mem_map.1 olderRow
    exact newestUnrepeated
  · exact newestUnrepeated.sublist (mem_laterPartners newestRow).2

/-- A new level repeats no concept so far, because all of its concepts are deeper. -/
theorem Frontier.nodup_append_level {pool : List Terminal} {depth : Nat}
    {older newest : List (Hypothesis size)} (frontier : Frontier pool depth older newest)
    (unrepeated : (older ++ newest).Nodup) :
    (older ++ newest ++ Enumeration.level older newest).Nodup := by
  refine List.nodup_append'.2 ⟨unrepeated, nodup_level unrepeated, ?_⟩
  intro hypothesis known new
  have below := (frontier.level.mem_older.1 known).2
  have deep := (frontier.level.mem_newest.1 new).2
  omega

/-- No number of further levels repeats a concept. -/
theorem Frontier.nodup_levels {pool : List Terminal} (levelCount : Nat) {depth : Nat}
    {older newest : List (Hypothesis size)} (frontier : Frontier pool depth older newest)
    (unrepeated : (older ++ newest).Nodup) :
    (older ++ newest ++ levels older newest levelCount).Nodup := by
  induction levelCount generalizing depth older newest with
  | zero => simpa [levels] using unrepeated
  | succ levelCount inductionHypothesis =>
      have further :=
        inductionHypothesis frontier.level (frontier.nodup_append_level unrepeated)
      rwa [List.append_assoc] at further

/-- Over terminals without repetition the enumeration lists no concept twice. -/
theorem nodup_all {pool : List Terminal} (unrepeated : pool.Nodup) (depth : Nat) :
    (all (pool.map (Hypothesis.ofTerminal size)) depth).Nodup := by
  have terminals : (pool.map (Hypothesis.ofTerminal size)).Nodup :=
    unrepeated.map Hypothesis.ofTerminal_injective
  have everything := (Frontier.terminals pool).nodup_levels depth terminals
  rw [List.nil_append] at everything
  exact everything.sublist (List.Sublist.append List.filter_sublist (List.Sublist.refl _))

end NumberConcepts.Enumeration
