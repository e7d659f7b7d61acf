import NumberConcepts.Prior
/-!
# The walk over the nodes of a concept

The weight of a concept is found in one walk over its nodes. It ends at a node without
weight, and it fails at a share that is zero or less. What follows holds of all scalars
and of any prior: `Prior.logPrior_eq_error_iff` tells the reasons of a fault, and
`Prior.logPrior_eq_logSum` and `Prior.logPrior_eq_factor` what is found without one.
-/

namespace NumberConcepts

variable {α : Type} [Scalar α]

/-! ### The factor for the size -/

namespace SizePreference

/-- The square of the distance from the preferred size, on the logarithmic scale. -/
def squaredDistance (preference : SizePreference α) (count : Int) : α :=
  let difference :=
    Scalar.log (Scalar.ofNat (max 1 count.toNat)) - Scalar.log preference.preferredSize
  difference * difference

/-- Twice the square of the spread. -/
def doubledSquare (preference : SizePreference α) : α :=
  Scalar.ofNat 2 * preference.spread * preference.spread

theorem logWeight_eq (preference : SizePreference α) (count : Int) : preference.logWeight count =
    if Scalar.beq preference.doubledSquare Scalar.zero then .error .zeroDivisor
    else .ok (-preference.squaredDistance count / preference.doubledSquare) := by
  rfl

end SizePreference

/-! ### The walk over the nodes -/

namespace Prior

/-- The kind has a weight, and a share of the total that has a logarithm. -/
structure HasShare (prior : Prior α) (size : Nat) (tag : Tag) : Prop where
  weight : Scalar.le (prior.tagWeight size tag) Scalar.zero = false
  share : Scalar.le (prior.tagWeight size tag / prior.totalWeight size) Scalar.zero = false

/-- The kind is listed, and all kinds before it have shares. -/
def Reaches (prior : Prior α) (size : Nat) (tags : List Tag) (tag : Tag) : Prop :=
  ∃ before after, tags = before ++ tag :: after ∧ ∀ other ∈ before, prior.HasShare size other

/-- The logarithms of all shares, added to a logarithm at hand. -/
def logSum (prior : Prior α) (size : Nat) (logarithm : α) (tags : List Tag) : α :=
  tags.foldl (fun sum tag =>
    sum + Scalar.log (prior.tagWeight size tag / prior.totalWeight size)) logarithm

variable {prior : Prior α} {size : Nat} {tags : List Tag}

/-- Kinds that have shares are passed. -/
theorem logShares_append (shares : ∀ tag ∈ tags, prior.HasShare size tag) (logarithm : α)
    (rest : List Tag) :
    prior.logShares size (prior.totalWeight size) logarithm (tags ++ rest) =
      prior.logShares size (prior.totalWeight size) (prior.logSum size logarithm tags) rest := by
  induction tags generalizing logarithm with
  | nil => rfl
  | cons first others inductionHypothesis =>
      obtain ⟨⟨weight, share⟩, later⟩ := List.forall_mem_cons.1 shares
      rw [List.cons_append, logShares]
      simp only [weight, Scalar.checkedLog, share]
      exact inductionHypothesis later _

theorem logShares_eq_sum (shares : ∀ tag ∈ tags, prior.HasShare size tag) (logarithm : α) :
    prior.logShares size (prior.totalWeight size) logarithm tags =
      .ok (some (prior.logSum size logarithm tags)) := by
  have passed := logShares_append shares logarithm []
  rwa [List.append_nil] at passed

/-- A kind without weight ends the walk where it is reached. -/
theorem Reaches.logShares_eq_none {tag : Tag} (reached : prior.Reaches size tags tag)
    (weightless : Scalar.le (prior.tagWeight size tag) Scalar.zero = true) (logarithm : α) :
    prior.logShares size (prior.totalWeight size) logarithm tags = .ok none := by
  obtain ⟨before, after, rfl, shares⟩ := reached
  rw [logShares_append shares, logShares]
  simp only [weightless]
  rfl

/-- A share that is not above zero is a fault where it is reached. -/
theorem Reaches.logShares_eq_error {tag : Tag} (reached : prior.Reaches size tags tag)
    (weight : Scalar.le (prior.tagWeight size tag) Scalar.zero = false)
    (share : Scalar.le (prior.tagWeight size tag / prior.totalWeight size) Scalar.zero = true)
    (logarithm : α) : prior.logShares size (prior.totalWeight size) logarithm tags =
      .error .logarithmDomain := by
  obtain ⟨before, after, rfl, shares⟩ := reached
  rw [logShares_append shares, logShares]
  simp only [weight, Scalar.checkedLog, share]
  rfl

/-- The walk reaches its end, or a kind that lacks a weight or a share. -/
theorem walk_cases (prior : Prior α) (size : Nat) (tags : List Tag) :
    (∀ tag ∈ tags, prior.HasShare size tag) ∨
      (∃ tag, prior.Reaches size tags tag ∧
        Scalar.le (prior.tagWeight size tag) Scalar.zero = true) ∨
      ∃ tag, prior.Reaches size tags tag ∧
        Scalar.le (prior.tagWeight size tag) Scalar.zero = false ∧
        Scalar.le (prior.tagWeight size tag / prior.totalWeight size) Scalar.zero = true := by
  induction tags with
  | nil => exact .inl (List.forall_mem_nil _)
  | cons first rest inductionHypothesis =>
      have now : prior.Reaches size (first :: rest) first :=
        ⟨[], rest, rfl, List.forall_mem_nil _⟩
      cases weight : Scalar.le (prior.tagWeight size first) Scalar.zero with
      | true => exact .inr (.inl ⟨first, now, weight⟩)
      | false =>
          cases share : Scalar.le (prior.tagWeight size first / prior.totalWeight size)
            Scalar.zero with
          | true => exact .inr (.inr ⟨first, now, weight, share⟩)
          | false =>
              have later : ∀ {tag}, prior.Reaches size rest tag →
                  prior.Reaches size (first :: rest) tag := by
                rintro tag ⟨before, after, rfl, shares⟩
                exact ⟨first :: before, after, rfl, List.forall_mem_cons.2 ⟨⟨weight, share⟩, shares⟩⟩
              exact inductionHypothesis.imp
                (fun shares => List.forall_mem_cons.2 ⟨⟨weight, share⟩, shares⟩)
                (.imp (fun ⟨tag, reached, found⟩ => ⟨tag, later reached, found⟩)
                  fun ⟨tag, reached, found⟩ => ⟨tag, later reached, found⟩)

/-! ### Faults -/

/-- A concept has no weight when no kind of node has any, and when the walk over its nodes reaches
one without. -/
def Weightless (prior : Prior α) (size : Nat) (concept : Concept) : Prop :=
  Scalar.le (prior.totalWeight size) Scalar.zero = true ∨
    ∃ tag, prior.Reaches size concept.tags tag ∧
      Scalar.le (prior.tagWeight size tag) Scalar.zero = true

/-- When the logarithm of the weight of a concept is a fault. -/
inductive Fails (prior : Prior α) (size : Nat) (concept : Concept) (count : Option Int) :
    Fault → Prop where
  /-- The walk reaches a node with a weight whose share is zero or less. -/
  | share {tag : Tag} (total : Scalar.le (prior.totalWeight size) Scalar.zero = false)
      (reached : prior.Reaches size concept.tags tag)
      (weight : Scalar.le (prior.tagWeight size tag) Scalar.zero = false)
      (share : Scalar.le (prior.tagWeight size tag / prior.totalWeight size) Scalar.zero = true) :
      Fails prior size concept count .logarithmDomain
  /-- All nodes have shares, but the distance from the preferred size is divided by zero. -/
  | spread {preference : SizePreference α} {number : Int}
      (total : Scalar.le (prior.totalWeight size) Scalar.zero = false)
      (shares : ∀ tag ∈ concept.tags, prior.HasShare size tag)
      (prefers : prior.sizePreference = some preference) (counts : count = some number)
      (square : Scalar.beq preference.doubledSquare Scalar.zero = true) :
      Fails prior size concept count .zeroDivisor

variable {concept : Concept} {count : Option Int}

theorem logStructure_of_total (total : Scalar.le (prior.totalWeight size) Scalar.zero = false) :
    prior.logStructure size concept =
      prior.logShares size (prior.totalWeight size) Scalar.zero concept.tags := by
  simp only [logStructure, total]
  rfl

theorem Weightless.logPrior_eq_negInf (weightless : prior.Weightless size concept)
    (count : Option Int) : prior.logPrior size concept count = .ok Scalar.negInf := by
  have none : prior.logStructure size concept = .ok none := by
    cases total : Scalar.le (prior.totalWeight size) Scalar.zero with
    | true => simp only [logStructure, total]; rfl
    | false =>
        obtain ⟨tag, reached, weight⟩ :=
          weightless.resolve_left (Bool.eq_false_iff.1 total)
        rw [logStructure_of_total total, reached.logShares_eq_none weight]
  simp only [logPrior, none]
  rfl

section Shares

variable (total : Scalar.le (prior.totalWeight size) Scalar.zero = false)
  (shares : ∀ tag ∈ concept.tags, prior.HasShare size tag)

include total shares

theorem logStructure_eq_logSum : prior.logStructure size concept =
    .ok (some (prior.logSum size Scalar.zero concept.tags)) :=
  (logStructure_of_total total).trans (logShares_eq_sum shares Scalar.zero)

/-- Without a preference, or without a number of members, the logarithms of all shares are added. -/
theorem logPrior_eq_logSum (unsized : prior.sizePreference = none ∨ count = none) :
    prior.logPrior size concept count = .ok (prior.logSum size Scalar.zero concept.tags) := by
  simp only [logPrior, logStructure_eq_logSum total shares]
  obtain noPreference | rfl := unsized
  · rw [noPreference]
    rfl
  · cases prior.sizePreference <;> rfl

/-- With both the factor for the size is added too, unless its divisor is zero. -/
theorem logPrior_eq_factor {preference : SizePreference α} {number : Int}
    (prefers : prior.sizePreference = some preference) :
    prior.logPrior size concept (some number) =
      if Scalar.beq preference.doubledSquare Scalar.zero then .error .zeroDivisor
      else .ok (prior.logSum size Scalar.zero concept.tags +
        -preference.squaredDistance number / preference.doubledSquare) := by
  simp only [logPrior, logStructure_eq_logSum total shares, prefers, preference.logWeight_eq]
  cases Scalar.beq preference.doubledSquare Scalar.zero <;> rfl

end Shares

theorem Fails.logPrior_eq_error {fault : Fault} (fails : prior.Fails size concept count fault) :
    prior.logPrior size concept count = .error fault := by
  cases fails with
  | share total reached weight share =>
      have stops := (logStructure_of_total total).trans
        (reached.logShares_eq_error weight share Scalar.zero)
      simp only [logPrior, stops]
      rfl
  | spread total shares prefers counts square =>
      rw [counts, logPrior_eq_factor total shares prefers, if_pos square]

/-- A fault has one of these reasons. -/
theorem logPrior_eq_error_iff {fault : Fault} : prior.logPrior size concept count = .error fault ↔
    prior.Fails size concept count fault := by
  refine ⟨fun failed => ?_, Fails.logPrior_eq_error⟩
  have notWeightless : ¬prior.Weightless size concept := fun weightless => by
    rw [weightless.logPrior_eq_negInf] at failed
    cases failed
  have total : Scalar.le (prior.totalWeight size) Scalar.zero = false :=
    Bool.eq_false_iff.2 (notWeightless ∘ .inl)
  obtain shares | ⟨tag, reached, weightless⟩ | ⟨tag, reached, weight, share⟩ :=
    prior.walk_cases size concept.tags
  · cases prefers : prior.sizePreference with
    | none => rw [logPrior_eq_logSum total shares (.inl prefers)] at failed; cases failed
    | some preference =>
        cases count with
        | none => rw [logPrior_eq_logSum total shares (.inr rfl)] at failed; cases failed
        | some number =>
            rw [logPrior_eq_factor total shares prefers] at failed
            split at failed
            next square => cases failed; exact .spread total shares prefers rfl square
            next => cases failed
  · exact absurd (.inr ⟨tag, reached, weightless⟩) notWeightless
  · have fails : prior.Fails size concept count .logarithmDomain :=
      .share total reached weight share
    rw [fails.logPrior_eq_error] at failed
    cases failed
    exact fails

/-- Where it is none, a concept that is not weightless has shares at all nodes. -/
theorem shares_of_logPrior_eq_ok {logarithm : α}
    (found : prior.logPrior size concept count = .ok logarithm)
    (weighted : ¬prior.Weightless size concept) :
    Scalar.le (prior.totalWeight size) Scalar.zero = false ∧
      ∀ tag ∈ concept.tags, prior.HasShare size tag := by
  have total : Scalar.le (prior.totalWeight size) Scalar.zero = false :=
    Bool.eq_false_iff.2 (weighted ∘ .inl)
  refine ⟨total, ?_⟩
  obtain shares | ⟨tag, reached, weightless⟩ | ⟨tag, reached, weight, share⟩ :=
    prior.walk_cases size concept.tags
  · exact shares
  · exact absurd (.inr ⟨tag, reached, weightless⟩) weighted
  · rw [logPrior_eq_error_iff.2 (.share total reached weight share)] at found
    cases found

end Prior

end NumberConcepts
