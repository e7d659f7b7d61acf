import NumberConcepts.Search.Terminals
/-!
# Exhaustive enumeration

All concepts up to a depth are listed level by level. A level combines the
concepts below it in pairs of which at least one lies in the newest level, so
that no pair is met twice. `Enumeration.all` is the list; `Enumeration.walk`
visits it in the same order and stops as soon as the visitor has enough.
-/

namespace NumberConcepts.Enumeration

variable {size : Nat}

/-- A concept with the concepts it is combined with. -/
abbrev Row (size : Nat) := Hypothesis size × List (Hypothesis size)

/-- Every entry of a list with the entries after it. -/
def laterPartners : List (Hypothesis size) → List (Row size)
  | [] => []
  | first :: rest => (first, rest) :: laterPartners rest

/-- The pairs of a level: each older concept with all newest ones, and each newest concept with the
later newest ones. -/
def rows (older newest : List (Hypothesis size)) : List (Row size) :=
  older.map (fun hypothesis => (hypothesis, newest)) ++ laterPartners newest

/-- The combinations of a row, both operations for each partner. -/
def combinations (row : Row size) : List (Hypothesis size) :=
  row.2.flatMap fun partner =>
    Operation.all.filterMap fun operation => row.1.compose operation partner

/-- The concepts of the next level. -/
def level (older newest : List (Hypothesis size)) : List (Hypothesis size) :=
  (rows older newest).flatMap combinations

/-- The concepts of a number of further levels. -/
def levels (older newest : List (Hypothesis size)) : Nat → List (Hypothesis size)
  | 0 => []
  | depth + 1 =>
    let next := level older newest
    next ++ levels (older ++ newest) next depth

/-- The terminals that have members. -/
def inhabited (pool : List (Hypothesis size)) : List (Hypothesis size) :=
  pool.filter fun hypothesis => !hypothesis.members.isEmpty

/-- All concepts over a pool of terminals up to a depth. Terminals without members are not listed,
but they take part in combinations. -/
def all (pool : List (Hypothesis size)) (depth : Nat) : List (Hypothesis size) :=
  inhabited pool ++ levels [] pool depth

/-- A visit of a list that may stop early. -/
def visitAll {σ : Type} (visit : σ → Hypothesis size → ForInStep σ) :
    σ → List (Hypothesis size) → ForInStep σ
  | state, [] => .yield state
  | state, hypothesis :: rest =>
    match visit state hypothesis with
    | .done state => .done state
    | .yield state => visitAll visit state rest

/-- A visit of the combinations of some rows. They are collected, the latest first, where a later
level needs them. -/
def walkRows {σ : Type} (visit : σ → Hypothesis size → ForInStep σ) (keep : Bool) :
    σ → List (Hypothesis size) → List (Row size) → ForInStep (σ × List (Hypothesis size))
  | state, collected, [] => .yield (state, collected)
  | state, collected, row :: rest =>
    let found := combinations row
    match visitAll visit state found with
    | .done state => .done (state, [])
    | .yield state =>
      walkRows visit keep state (if keep then found.reverseAux collected else collected) rest

/-- A visit of a number of further levels. -/
def walkLevels {σ : Type} (visit : σ → Hypothesis size → ForInStep σ) :
    σ → List (Hypothesis size) → List (Hypothesis size) → Nat → ForInStep σ
  | state, _, _, 0 => .yield state
  | state, older, newest, depth + 1 =>
    match walkRows visit (depth != 0) state [] (rows older newest) with
    | .done (state, _) => .done state
    | .yield (state, collected) =>
      walkLevels visit state (older ++ newest) collected.reverse depth

/-- A visit of all concepts over a pool up to a depth. -/
def walk {σ : Type} (visit : σ → Hypothesis size → ForInStep σ) (state : σ)
    (pool : List (Hypothesis size)) (depth : Nat) : σ :=
  match visitAll visit state (inhabited pool) with
  | .done state => state
  | .yield state =>
    match walkLevels visit state [] pool depth with
    | .done state => state
    | .yield state => state

/-- Collects the accepted hypotheses, the latest first, until there are enough. -/
def collect (accepts : Hypothesis size → Bool) (limit : Nat)
    (found : Nat × List (Hypothesis size)) (hypothesis : Hypothesis size) :
    ForInStep (Nat × List (Hypothesis size)) :=
  if accepts hypothesis then
    let next := (found.1 + 1, hypothesis :: found.2)
    if limit ≤ next.1 then .done next else .yield next
  else
    .yield found

/-- The first `limit` accepted concepts. -/
def firstAccepted (accepts : Hypothesis size → Bool) (limit : Nat)
    (pool : List (Hypothesis size)) (depth : Nat) : List (Hypothesis size) :=
  if limit = 0 then []
  else (walk (collect accepts limit) (0, []) pool depth).2.reverse

/-- How many concepts there are. -/
def count (pool : List (Hypothesis size)) (depth : Nat) : Nat :=
  walk (fun (total : Nat) (_ : Hypothesis size) => .yield (total + 1)) 0 pool depth

/-- The terminals of a grammar with their members. -/
def poolOf (size : Nat) (grammar : Grammar) (examples : List Int) :
    Except Fault (List (Hypothesis size)) := do
  return (← Terminals.ofGrammar size grammar examples).map (Hypothesis.ofTerminal size)

/-- The first concepts of the enumeration for some examples. Where none is asked for, no terminal is
built either. -/
def listed (size : Nat) (grammar : Grammar) (examples : List Int) (depth limit : Nat) :
    Except Fault (List (Hypothesis size)) :=
  if limit = 0 then .ok []
  else do
    return firstAccepted (fun _ => true) limit (← poolOf size grammar examples) depth

end NumberConcepts.Enumeration
