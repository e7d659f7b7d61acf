import NumberConcepts.Search.Enumeration
/-!
# Visits that stop early

`Enumeration.walk` visits `Enumeration.all` in order although it never holds the
deepest level: `walk_eq` says so for every visitor. `firstAccepted_eq` is the case
of collecting accepted hypotheses up to a limit.
-/

namespace NumberConcepts.Enumeration

variable {size : Nat} {σ : Type}

/-- A visit of two lists in a row goes on to the second one unless it stops in the first. -/
theorem visitAll_append (visit : σ → Hypothesis size → ForInStep σ) (state : σ)
    (front back : List (Hypothesis size)) :
    visitAll visit state (front ++ back) =
      match visitAll visit state front with
      | .done state => .done state
      | .yield state => visitAll visit state back := by
  induction front generalizing state with
  | nil => rfl
  | cons first rest inductionHypothesis =>
      rw [List.cons_append, visitAll, visitAll]
      cases visit state first with
      | done state => rfl
      | yield state => exact inductionHypothesis state

/-- A visit of rows visits their combinations and collects these where they are to be kept. -/
theorem walkRows_eq (visit : σ → Hypothesis size → ForInStep σ) (keep : Bool) (state : σ)
    (collected : List (Hypothesis size)) (rows : List (Row size)) :
    walkRows visit keep state collected rows =
      match visitAll visit state (rows.flatMap combinations) with
      | .done state => .done (state, [])
      | .yield state =>
        .yield (state,
          if keep then (rows.flatMap combinations).reverse ++ collected else collected) := by
  induction rows generalizing state collected with
  | nil => simp [walkRows, visitAll]
  | cons row rest inductionHypothesis =>
      rw [walkRows, List.flatMap_cons, visitAll_append]
      cases visitAll visit state (combinations row) with
      | done state => rfl
      | yield state =>
          simp only [inductionHypothesis, List.reverseAux_eq, List.reverse_append,
            List.append_assoc]
          cases keep <;> rfl

/-- A visit of levels visits the concepts of these levels. -/
theorem walkLevels_eq (visit : σ → Hypothesis size → ForInStep σ) (state : σ)
    (older newest : List (Hypothesis size)) (depth : Nat) :
    walkLevels visit state older newest depth = visitAll visit state (levels older newest depth) := by
  induction depth generalizing state older newest with
  | zero => rfl
  | succ depth inductionHypothesis =>
      rw [walkLevels, walkRows_eq, levels, visitAll_append, ← level]
      cases visitAll visit state (level older newest) with
      | done state => rfl
      | yield state =>
          cases depth with
          | zero => rfl
          | succ depth => simp [inductionHypothesis]

/-- A walk ends in the state in which a visit of the whole list ends. -/
theorem walk_eq (visit : σ → Hypothesis size → ForInStep σ) (state : σ)
    (pool : List (Hypothesis size)) (depth : Nat) :
    walk visit state pool depth = (visitAll visit state (all pool depth)).value := by
  rw [walk, all, visitAll_append]
  cases visitAll visit state (inhabited pool) with
  | done state => rfl
  | yield state =>
      simp only [walkLevels_eq]
      cases visitAll visit state (levels [] pool depth) <;> rfl

/-- Collecting stops with the first accepted hypotheses that the limit leaves room for. -/
theorem visitAll_collect (accepts : Hypothesis size → Bool) {limit : Nat}
    (list found : List (Hypothesis size)) (room : found.length < limit) :
    (visitAll (collect accepts limit) (found.length, found) list).value.2 =
      ((list.filter accepts).take (limit - found.length)).reverse ++ found := by
  induction list generalizing found with
  | nil => simp [visitAll]
  | cons first rest inductionHypothesis =>
      rw [visitAll, collect]
      by_cases accepted : accepts first = true
      · rw [if_pos accepted, List.filter_cons_of_pos accepted]
        by_cases full : limit ≤ found.length + 1
        · have one : limit - found.length = 1 := by omega
          rw [if_pos full, one]
          rfl
        · have more : limit - found.length = limit - (first :: found).length + 1 := by
            rw [List.length_cons]
            omega
          rw [if_neg full, more, List.take_succ_cons, List.reverse_cons, List.append_assoc]
          exact inductionHypothesis (first :: found) (Nat.lt_of_not_le full)
      · rw [if_neg accepted, List.filter_cons_of_neg accepted]
        exact inductionHypothesis found room

/-- The first accepted concepts are an initial part of all accepted ones. -/
theorem firstAccepted_eq (accepts : Hypothesis size → Bool) (limit : Nat)
    (pool : List (Hypothesis size)) (depth : Nat) :
    firstAccepted accepts limit pool depth = ((all pool depth).filter accepts).take limit := by
  rw [firstAccepted]
  split
  next none => rw [none, List.take_zero]
  next some =>
    have collected := visitAll_collect accepts (all pool depth) [] (Nat.pos_of_ne_zero some)
    rw [walk_eq, ← List.length_nil, collected, List.append_nil, List.reverse_reverse]
    rfl

end NumberConcepts.Enumeration
