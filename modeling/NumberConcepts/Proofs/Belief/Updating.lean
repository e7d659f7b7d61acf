import NumberConcepts.Proofs.Belief.Evidence
import NumberConcepts.Proofs.Domain
/-!
# One update after the other

An update takes the logarithms of a vector, adds an example and normalises again. A
vector that is carried from example to example so holds the starting values times the
likelihoods up to a factor only (`Carries`), and the factor cancels in the next update.
All updates together give the shares of the values times the likelihoods of all
examples, in whatever order these are seen, and they stop at the first example that no
supported hypothesis contains together with those before it.
-/

namespace NumberConcepts.HypothesisSpace

open LogWeights Exact

/-- A belief vector updated by the examples one after the other, up to the first one that leaves
nothing. -/
def updates {α : Type} [Scalar α] (space : HypothesisSpace) (beliefs : List α)
    (examples : List Nat) : Explained (List α) :=
  examples.foldlM space.update beliefs

variable {space : HypothesisSpace} {values : List ℝ} {seen examples : List Nat}

/-- The values support the examples: a hypothesis with a positive value contains them. -/
def Supports (space : HypothesisSpace) (values : List ℝ) (examples : List Nat) : Prop :=
  ∃ (position : Nat) (value : ℝ) (hypothesis : Hypothesis space.domain.size),
    values[position]? = some value ∧ space.hypotheses[position]? = some hypothesis ∧
      0 < value ∧ ∀ n ∈ examples, n ∈ hypothesis.members

/-- Values that depend on the hypotheses support what such a hypothesis contains. -/
theorem supports_map {value : Hypothesis space.domain.size → ℝ} :
    space.Supports (space.hypotheses.toList.map value) examples ↔
      ∃ hypothesis ∈ space.hypotheses, 0 < value hypothesis ∧
        ∀ n ∈ examples, n ∈ hypothesis.members := by
  constructor
  · rintro ⟨position, _, hypothesis, isValue, isAt, positive, contains⟩
    rw [List.getElem?_map, Array.getElem?_toList, isAt, Option.map_some, Option.some.injEq] at isValue
    exact ⟨hypothesis, Array.mem_of_getElem? isAt, isValue ▸ positive, contains⟩
  · rintro ⟨hypothesis, listed, positive, contains⟩
    obtain ⟨position, isAt⟩ := Array.mem_iff_getElem?.1 listed
    refine ⟨position, value hypothesis, hypothesis, ?_, isAt, positive, contains⟩
    rw [List.getElem?_map, Array.getElem?_toList, isAt, Option.map_some]

/-- The entry kept for a value stands for it. -/
theorem weight_logEntry {value : ℝ} (nonneg : 0 ≤ value) :
    (logEntry (real value)).weight = value := by
  rw [logEntry, zero_eq, lt_real]
  by_cases positive : 0 < value
  · rw [if_pos (decide_eq_true positive), log_real positive, weight_real, Real.exp_log positive]
  · rw [if_neg (by simpa using positive), weight_negInf]
    exact le_antisymm nonneg (not_lt.1 positive)

/-! ### What a vector carries -/

/-- The vector holds the values times the likelihoods of the examples seen, up to a factor. -/
def Carries (space : HypothesisSpace) (values : List ℝ) (seen : List Nat) (beliefs : List Exact) :
    Prop :=
  ∃ factor > 0, beliefs = ((space.weigh values seen).map (· * factor)).map real

/-- The values themselves carry what holds before any example. -/
theorem carries_nil (aligned : values.length = space.hypotheses.size) :
    space.Carries values [] (values.map real) :=
  ⟨1, one_pos, by simp [weigh_nil aligned]⟩

/-- Shares carry what they are shares of. -/
theorem carries_of_shares (nonneg : ∀ value ∈ values, 0 ≤ value) {beliefs : List Exact}
    (shared : shares? (space.weigh values seen) = some beliefs) :
    space.Carries values seen beliefs := by
  have total : 0 ≤ (space.weigh values seen).sum := List.sum_nonneg (weigh_nonneg nonneg)
  rw [shares?] at shared
  split at shared
  next => cases shared
  next some =>
    refine ⟨(space.weigh values seen).sum⁻¹, inv_pos.2 (lt_of_le_of_ne total (Ne.symm some)), ?_⟩
    rw [← Option.some.inj shared, List.map_map]
    rfl

/-- A prior that gives a hypothesis any weight has probabilities to start from. -/
theorem exists_priorBeliefs {prior : Prior Exact} (finite : prior.FinitelyWeighted)
    (nonzero : space.priorTotal prior ≠ 0) :
    ∃ start, space.priorBeliefs prior = .ok (some start) := by
  obtain ⟨start, shared⟩ := Option.ne_none_iff_exists'.1 fun none =>
    nonzero (shares?_eq_none_iff.1 none)
  exact ⟨start, by rw [priorBeliefs_eq_ok finite, shared]⟩

namespace Sound

variable (sound : space.Sound)

include sound

/-- An update of some values gives the shares of the values times the chances of the example. -/
theorem update_eq (nonneg : ∀ value ∈ values, 0 ≤ value) (n : Nat) :
    space.update (values.map real) n = vectorOf [n] (space.weigh values [n]) := by
  have entries : ((values.map real).map logEntry).map weight = values := by
    rw [List.map_map, List.map_map]
    conv_rhs => rw [← List.map_id values]
    exact List.map_congr_left fun value listed => weight_logEntry (nonneg value listed)
  have weights : (space.observe ((values.map real).map logEntry) n).map weight =
      space.weigh values [n] := by
    rw [sound.map_weight_observe, entries, weigh]
    simp only [Hypothesis.likelihood_singleton]
  simp only [update, normalize?_eq, weights, vectorOf]
  cases shares? (space.weigh values [n]) <;> rfl

/-- The factor of a vector does not show in its update. -/
theorem update_of_carries (nonneg : ∀ value ∈ values, 0 ≤ value) {beliefs : List Exact}
    (carried : space.Carries values seen beliefs) (n : Nat) :
    space.update beliefs n = vectorOf [n] (space.weigh values (seen ++ [n])) := by
  obtain ⟨factor, positive, rfl⟩ := carried
  have scaled : ∀ value ∈ (space.weigh values seen).map (· * factor), 0 ≤ value :=
    List.forall_mem_map.2 fun weight listed =>
      mul_nonneg (weigh_nonneg nonneg weight listed) positive.le
  rw [sound.update_eq scaled, weigh_map_mul, ← weigh_append, vectorOf, vectorOf,
    shares?_map_mul positive.ne']

/-- All updates together give the shares of the values times the likelihoods of all examples. -/
theorem toOption_updates (nonneg : ∀ value ∈ values, 0 ≤ value) {beliefs : List Exact}
    (carried : space.Carries values seen beliefs) {rest : List Nat} (given : rest ≠ []) :
    (space.updates beliefs rest).toOption = shares? (space.weigh values (seen ++ rest)) := by
  induction rest generalizing seen beliefs with
  | nil => exact absurd rfl given
  | cons n rest inductionHypothesis =>
      rw [updates, List.foldlM_cons, sound.update_of_carries nonneg carried, vectorOf,
        List.append_cons seen n rest]
      cases shared : shares? (space.weigh values (seen ++ [n])) with
      | none =>
          have weightless := shares?_eq_none_iff.1 shared
          rw [shares?_eq_none_iff.2 (sum_weigh_append_eq_zero nonneg weightless rest)]
          rfl
      | some next =>
          by_cases last : rest = []
          · rw [last, List.append_nil, shared]
            rfl
          · exact inductionHypothesis (carries_of_shares nonneg shared) last

/-- Some weight is left exactly when the values support the examples. -/
theorem sum_weigh_eq_zero_iff (nonneg : ∀ value ∈ values, 0 ≤ value) :
    (space.weigh values examples).sum = 0 ↔ ¬ space.Supports values examples := by
  constructor
  · rintro weightless ⟨position, value, hypothesis, isValue, isAt, positive, contains⟩
    have counted : (0 : ℝ) < hypothesis.count := by
      exact_mod_cast Hypothesis.count_pos (sound.inhabited _ (Array.mem_of_getElem? isAt))
    have isWeight : (space.weigh values examples)[position]? =
        some (value * hypothesis.likelihood examples) := getElem?_weigh isValue isAt
    have zero := List.all_zero_of_le_zero_le_of_sum_eq_zero (weigh_nonneg nonneg) weightless
      (List.mem_of_getElem? isWeight)
    rw [Hypothesis.likelihood_eq, if_pos contains] at zero
    exact (mul_pos positive (pow_pos (inv_pos.2 counted) _)).ne' zero
  · intro unsupported
    apply List.sum_eq_zero
    intro weight listed
    obtain ⟨position, isWeight⟩ := List.mem_iff_getElem?.1 listed
    obtain ⟨value, hypothesis, isValue, isAt, rfl⟩ := List.getElem?_zipWith_eq_some.1 isWeight
    rw [Array.getElem?_toList] at isAt
    rw [Hypothesis.likelihood_eq]
    split
    next contains =>
      have notPositive : ¬ 0 < value :=
        fun positive => unsupported ⟨position, value, hypothesis, isValue, isAt, positive, contains⟩
      rw [le_antisymm (not_lt.1 notPositive) (nonneg value (List.mem_of_getElem? isValue)), zero_mul]
    next => exact mul_zero value

section Start

variable (aligned : values.length = space.hypotheses.size) (nonneg : ∀ value ∈ values, 0 ≤ value)

include aligned nonneg

/-- Where the values support the examples, the updates end in a vector: the shares of the values
times the likelihoods. -/
theorem updates_eq_ok (given : examples ≠ []) (supported : space.Supports values examples) :
    ∃ beliefs, space.updates (values.map real) examples = .ok beliefs ∧
      shares? (space.weigh values examples) = some beliefs := by
  have some : (space.weigh values examples).sum ≠ 0 :=
    fun weightless => (sound.sum_weigh_eq_zero_iff nonneg).1 weightless supported
  have answer := sound.toOption_updates nonneg (carries_nil aligned) given
  rw [List.nil_append] at answer
  obtain ⟨beliefs, shared⟩ := Option.ne_none_iff_exists'.1 fun none =>
    some (shares?_eq_none_iff.1 none)
  rw [shared] at answer
  refine ⟨beliefs, ?_, shared⟩
  cases succeeds : space.updates (values.map real) examples with
  | error missing =>
      rw [succeeds] at answer
      cases answer
  | ok updated =>
      rw [succeeds] at answer
      exact congrArg Except.ok (Option.some.inj answer)

/-- While the values support the examples, the vector carries them. -/
theorem exists_carried (supported : seen ≠ [] → space.Supports values seen) :
    ∃ beliefs, space.updates (values.map real) seen = .ok beliefs ∧
      space.Carries values seen beliefs := by
  by_cases none : seen = []
  · subst none
    exact ⟨_, rfl, carries_nil aligned⟩
  · obtain ⟨beliefs, succeeds, shared⟩ :=
      sound.updates_eq_ok aligned nonneg none (supported none)
    exact ⟨beliefs, succeeds, carries_of_shares nonneg shared⟩

/-- The updates stop at the first example that leaves the values without support. -/
theorem updates_eq_error {n : Nat} (supported : seen ≠ [] → space.Supports values seen)
    (lost : ¬ space.Supports values (seen ++ [n])) (later : List Nat) :
    space.updates (values.map real) (seen ++ n :: later) =
      .error { examples := [n], samples := none } := by
  obtain ⟨beliefs, succeeds, carried⟩ := sound.exists_carried aligned nonneg supported
  have weightless := (sound.sum_weigh_eq_zero_iff nonneg).2 lost
  rw [updates] at succeeds ⊢
  rw [List.foldlM_append, succeeds]
  change space.updates beliefs (n :: later) = _
  rw [updates, List.foldlM_cons, sound.update_of_carries nonneg carried, vectorOf,
    shares?_eq_none_iff.2 weightless]
  rfl

end Start

/-- From the prior probabilities, all updates together give the vector of all examples at once. An
answer without a vector names the last example seen, and here all of them. -/
theorem toOption_updates_prior {prior : Prior Exact} {start : List Exact}
    (isStart : space.priorBeliefs prior = .ok (some start)) (given : examples ≠ []) :
    ∃ answer, space.posteriorBeliefs prior examples = .ok answer ∧
      (space.updates start examples).toOption = answer.toOption := by
  cases known : space.logPriors prior with
  | error fault =>
      simp only [priorBeliefs, known, bind, Except.bind] at isStart
      cases isStart
  | ok logPriors =>
      simp only [priorBeliefs, known, bind, Except.bind, normalize?_eq] at isStart
      have shared : shares? (logPriors.map weight) = some start := Except.ok.inj isStart
      have some : (logPriors.map weight).sum ≠ 0 := by
        intro weightless
        rw [shares?_eq_none_iff.2 weightless] at shared
        cases shared
      have nonneg : ∀ value ∈ logPriors.map weight, 0 ≤ value :=
        List.forall_mem_map.2 fun entry _ => weight_nonneg entry
      have aligned : (logPriors.map weight).length = space.hypotheses.size := by
        rw [List.length_map, ← (Sequence.forall₂_of_mapM_ok known).length_eq, Array.length_toList]
      refine ⟨_, sound.posteriorBeliefs_eq_vectorOf known some examples, ?_⟩
      rw [← weigh_nil aligned] at shared
      rw [sound.toOption_updates nonneg (carries_of_shares nonneg shared) given, toOption_vectorOf,
        List.nil_append]

end Sound

/-! ### The closed form -/

/-- The order of the examples does not show in the weights. -/
theorem weigh_perm {first second : List Nat} (same : first.Perm second) (values : List ℝ) :
    space.weigh values first = space.weigh values second := by
  have likelihoods : ∀ hypothesis : Hypothesis space.domain.size,
      hypothesis.likelihood first = hypothesis.likelihood second :=
    fun hypothesis => (same.map hypothesis.chance).prod_eq
  simp only [weigh, likelihoods]

/-- A vector has the values times the likelihoods of the examples up to a factor, and it is
normalised. -/
structure ClosedForm (space : HypothesisSpace) (values : List ℝ) (examples : List Nat)
    (beliefs : List ℝ) : Prop where
  aligned : beliefs.length = space.hypotheses.size
  /-- Nothing is left for a hypothesis without a value or for one that lacks an example. -/
  outside : ∀ (position : Nat) (value : ℝ), values[position]? = some value →
    ¬ 0 < value ∨ position ∉ space.consistent examples → beliefs[position]? = some 0
  /-- All others have their values times the chance of as many draws, up to one factor. -/
  proportional : ∃ factor > 0, ∀ (position : Nat) (value : ℝ)
    (hypothesis : Hypothesis space.domain.size), values[position]? = some value →
      space.hypotheses[position]? = some hypothesis → 0 < value →
      position ∈ space.consistent examples →
        beliefs[position]? = some (factor * (value * (hypothesis.count : ℝ)⁻¹ ^ examples.length))
  total : beliefs.sum = 1

/-- Shares of the values times the likelihoods have the closed form. -/
theorem Sound.closedForm_of_shares (sound : space.Sound)
    (aligned : values.length = space.hypotheses.size) (nonneg : ∀ value ∈ values, 0 ≤ value)
    {beliefs : List Exact} (shared : shares? (space.weigh values examples) = some beliefs) :
    ∃ numbers : List ℝ, beliefs = numbers.map real ∧ space.ClosedForm values examples numbers := by
  let total := (space.weigh values examples).sum
  have nonzero : total ≠ 0 := by
    intro weightless
    rw [shares?_eq_none_iff.2 weightless] at shared
    cases shared
  have positive : 0 < total :=
    lt_of_le_of_ne (List.sum_nonneg (weigh_nonneg nonneg)) (Ne.symm nonzero)
  have entry : ∀ (position : Nat) (value : ℝ) (hypothesis : Hypothesis space.domain.size),
      values[position]? = some value → space.hypotheses[position]? = some hypothesis →
        ((space.weigh values examples).map (· * total⁻¹))[position]? =
          some (value * hypothesis.likelihood examples * total⁻¹) := by
    intro position value hypothesis isValue isAt
    rw [List.getElem?_map, getElem?_weigh isValue isAt, Option.map_some]
  rw [shares?, if_neg nonzero] at shared
  refine ⟨(space.weigh values examples).map (· * total⁻¹), ?_, ?_, ?_, ?_, ?_⟩
  · rw [← Option.some.inj shared, List.map_map]
    rfl
  · simp [weigh, aligned]
  · intro position value isValue without
    obtain ⟨bound, _⟩ := List.getElem?_eq_some_iff.1 isValue
    have isAt := Array.getElem?_eq_getElem (aligned ▸ bound)
    rw [entry position value _ isValue isAt]
    rcases without with notPositive | inconsistent
    · rw [le_antisymm (not_lt.1 notPositive) (nonneg value (List.mem_of_getElem? isValue)), zero_mul,
        zero_mul]
    · rw [Hypothesis.likelihood_eq, if_neg, mul_zero, zero_mul]
      exact fun contains => inconsistent (sound.mem_consistent.2 ⟨_, isAt, contains⟩)
  · refine ⟨total⁻¹, inv_pos.2 positive, ?_⟩
    intro position value hypothesis isValue isAt _ isConsistent
    obtain ⟨found, isFound, contains⟩ := sound.mem_consistent.1 isConsistent
    obtain rfl := Option.some.inj (isAt.symm.trans isFound)
    rw [entry position value hypothesis isValue isAt, Hypothesis.likelihood_eq, if_pos contains,
      mul_comm]
  · rw [List.sum_map_mul_right, List.map_id', mul_inv_cancel₀ nonzero]

/-- Over the base space of a domain, updates that start from values at least zero stop at the first
example that, together with those before it, no hypothesis with a positive value contains. Otherwise
they end in the vector of the closed form, and in whichever order the examples are seen the vector
is the same. From the prior probabilities they end in the vector of all examples at once. -/
theorem updates_have_closed_form {domain : Domain} {values : List ℝ}
    (aligned : values.length = (base domain).hypotheses.size)
    (nonneg : ∀ value ∈ values, 0 ≤ value) {examples : List Nat}
    (admitted : domain.HasExamples examples) :
    (∀ seen n later, examples = seen ++ n :: later →
      (seen ≠ [] → (base domain).Supports values seen) →
      ¬ (base domain).Supports values (seen ++ [n]) →
        (∃ beliefs, (base domain).updates (values.map real) seen = .ok beliefs) ∧
        (base domain).updates (values.map real) examples =
          .error { examples := [n], samples := none }) ∧
    ((base domain).Supports values examples →
      ∃ beliefs : List ℝ, (base domain).updates (values.map real) examples =
          .ok (beliefs.map real) ∧
        (base domain).ClosedForm values examples beliefs) ∧
    (∀ reordered, reordered.Perm examples →
      ((base domain).updates (values.map real) reordered).toOption =
        ((base domain).updates (values.map real) examples).toOption) ∧
    ∀ (prior : Prior Exact) (start : List Exact),
      (base domain).priorBeliefs prior = .ok (some start) →
        ∃ answer, (base domain).posteriorBeliefs prior examples = .ok answer ∧
          ((base domain).updates start examples).toOption = answer.toOption := by
  have sound := sound_base domain
  have given := admitted.given
  refine ⟨?_, ?_, ?_, ?_⟩
  · rintro seen n later rfl supported lost
    obtain ⟨beliefs, succeeds, _⟩ := sound.exists_carried aligned nonneg supported
    exact ⟨⟨beliefs, succeeds⟩, sound.updates_eq_error aligned nonneg supported lost later⟩
  · intro supported
    obtain ⟨beliefs, succeeds, shared⟩ := sound.updates_eq_ok aligned nonneg given supported
    obtain ⟨numbers, rfl, closed⟩ := sound.closedForm_of_shares aligned nonneg shared
    exact ⟨numbers, succeeds, closed⟩
  · intro reordered same
    have reorderedGiven : reordered ≠ [] := by
      rintro rfl
      exact given same.symm.eq_nil
    rw [sound.toOption_updates nonneg (carries_nil aligned) reorderedGiven,
      sound.toOption_updates nonneg (carries_nil aligned) given, List.nil_append, List.nil_append,
      weigh_perm same]
  · intro prior start isStart
    exact sound.toOption_updates_prior isStart given

/-- Over two numbers, updates by 1 and 2 stop at 2 where only smaller hypotheses have a value. From
equal values they end in the closed form, in either order, and from the uniform prior in the vector
of both examples at once. -/
theorem updates_have_closed_form_over_two :
    let space := base ⟨2, by decide⟩
    let smaller := space.hypotheses.toList.map fun hypothesis =>
      if hypothesis.count = 2 then (0 : ℝ) else 1
    let equal := space.hypotheses.toList.map fun _ => (1 : ℝ)
    space.updates (smaller.map real) [1, 2] = .error { examples := [2], samples := none } ∧
    (∃ beliefs : List ℝ, space.updates (equal.map real) [1, 2] = .ok (beliefs.map real) ∧
      space.ClosedForm equal [1, 2] beliefs) ∧
    (space.updates (equal.map real) [2, 1]).toOption =
      (space.updates (equal.map real) [1, 2]).toOption ∧
    ∃ (start : List Exact) (answer : Explained (List Exact)),
      space.priorBeliefs .uniform = .ok (some start) ∧
      space.posteriorBeliefs .uniform [1, 2] = .ok answer ∧
      (space.updates start [1, 2]).toOption = answer.toOption := by
  intro space smaller equal
  let domain : Domain := ⟨2, by decide⟩
  let whole : Hypothesis 2 := .ofTerminal 2 (.interval 1 2)
  let first : Hypothesis 2 := .ofTerminal 2 (.interval 1 1)
  have wholeListed : whole ∈ space.hypotheses :=
    mem_ofConcepts.2 ⟨by decide, NatSet.ne_empty_of_mem (n := 1) (by decide)⟩
  have firstListed : first ∈ space.hypotheses :=
    mem_ofConcepts.2 ⟨by decide, NatSet.ne_empty_of_mem (n := 1) (by decide)⟩
  have admitted : domain.HasExamples [1, 2] := ⟨by decide, by decide⟩
  have apart : ∀ hypothesis ∈ space.hypotheses.toList, 1 ∈ hypothesis.members →
      2 ∈ hypothesis.members → hypothesis.count = 2 := by
    decide +kernel
  have smallerNonneg : ∀ value ∈ smaller, 0 ≤ value :=
    List.forall_mem_map.2 fun hypothesis _ => by positivity
  have equalNonneg : ∀ value ∈ equal, 0 ≤ value :=
    List.forall_mem_map.2 fun _ _ => zero_le_one
  obtain ⟨stops, -, -, -⟩ :=
    updates_have_closed_form (by simp [smaller, space, domain]) smallerNonneg admitted
  obtain ⟨-, ends, reorders, starts⟩ :=
    updates_have_closed_form (by simp [equal, space, domain]) equalNonneg admitted
  have named : Prior.named? "uniform" = some (Prior.uniform : Prior Exact) := rfl
  have finite : (Prior.uniform : Prior Exact).FinitelyWeighted := .of_named named
  have weighs := Prior.logPrior_uniform_terminal 2 (.interval 1 2) (some whole.count)
  obtain ⟨start, isStart⟩ :=
    exists_priorBeliefs finite (priorTotal_ne_zero finite wholeListed weighs)
  obtain ⟨answer, isAnswer, same⟩ := starts .uniform start isStart
  refine ⟨?_, ?_, reorders _ (.swap 1 2 []), start, answer, isStart, isAnswer, same⟩
  · have counted : first.count ≠ 2 := by decide
    have positive : (0 : ℝ) < if first.count = 2 then 0 else 1 := by
      rw [if_neg counted]
      exact one_pos
    refine (stops [1] 2 [] rfl ?_ ?_).2
    · exact fun _ => supports_map.2 ⟨first, firstListed, positive, by decide⟩
    · rw [supports_map]
      rintro ⟨hypothesis, listed, positive, contains⟩
      rw [apart hypothesis (Array.mem_toList_iff.2 listed) (contains 1 (by decide))
        (contains 2 (by decide)), if_pos rfl] at positive
      exact lt_irrefl _ positive
  · exact ends (supports_map.2 ⟨whole, wholeListed, one_pos, by decide⟩)

end NumberConcepts.HypothesisSpace
