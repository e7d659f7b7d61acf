import NumberConcepts.Proofs.Belief.Order
import NumberConcepts.Proofs.Double
import NumberConcepts.Proofs.Random
import NumberConcepts.Proofs.Search.Derivation
import NumberConcepts.Proofs.Settings
import NumberConcepts.Simulation
/-!
# Random concepts

Drawing a concept from the grammar of valid settings cannot fail: every parameter
drawn lies in its range, and a terminal is drawn before a concept is too deep. Whatever
the source draws, the concept is a program of the grammar that fits below the depth it
starts at: `drawConcept_legal`. So there is a posterior over random concepts or the
answer that none fits, and all of its candidates are among the concepts drawn.
-/

namespace NumberConcepts

variable {α σ : Type} [RandomSource α σ] {grammar : Grammar}

/-- A value in the range of a parameter is admitted by it. -/
theorem Parameter.Ranges.admits {parameter : Parameter} {value : Int}
    (inRange : parameter.Ranges value) : parameter.Admits value.toNat := by
  obtain ⟨least, greatest⟩ := inRange
  exact ⟨by omega, by omega⟩

/-- The grammar has a terminal, with intervals inside a domain of a given size. -/
def Grammar.Offers (grammar : Grammar) (size : Nat) : Terminal → Prop
  | .primitive _ => True
  | .powerOf base => (base : Int) ∈ grammar.powerBases
  | .multipleOf step => (step : Int) ∈ grammar.multiples
  | .interval low high => 1 ≤ low ∧ low ≤ high ∧ high ≤ size
  | .endsIn digit => grammar.includeEndings = true ∧ digit ≤ 9

/-- What a grammar in range offers inside a domain is legal. -/
theorem Grammar.InRange.legal_of_offers (inRange : grammar.InRange) (domain : Domain)
    {leaf : Terminal} (offered : grammar.Offers domain.size leaf) : leaf.Legal := by
  cases leaf with
  | primitive property => trivial
  | powerOf base => exact (inRange.bases base offered).admits
  | multipleOf step => exact (inRange.steps step offered).admits
  | interval low high => exact Domain.legal_interval offered.1 offered.2.1 offered.2.2
  | endsIn digit => exact ⟨Nat.zero_le digit, offered.2⟩

namespace Simulation

/-- A terminal is drawn, and it is one that the grammar offers. -/
theorem drawTerminal_yields (bounded : RandomSource.Bounded α σ) (drawable : grammar.Drawable)
    (domain : Domain) :
    (drawTerminal α grammar domain.size : Draw σ Terminal).Yields (grammar.Offers domain.size) := by
  have families : 0 < if grammar.includeEndings then 5 else 4 := by split <;> decide
  refine (bounded.below families).bind fun family isFamily => ?_
  split
  case h_1 => exact (bounded.choice (by decide)).bind fun property _ => .pure trivial
  case h_2 =>
    refine (bounded.choice drawable.bases).bind fun base listed => ?_
    have inRange := drawable.inRange.bases base listed
    obtain ⟨natural, rfl⟩ := Int.eq_ofNat_of_zero_le (Int.le_trans (by decide) inRange.1)
    have offered : grammar.Offers domain.size (.powerOf natural) := listed
    refine .ofExcept ?_ offered
    rw [Terminal.checkPowerOf, Parameter.check_int inRange]
    rfl
  case h_3 =>
    refine (bounded.choice drawable.steps).bind fun step listed => ?_
    have inRange := drawable.inRange.steps step listed
    obtain ⟨natural, rfl⟩ := Int.eq_ofNat_of_zero_le (Int.le_trans (by decide) inRange.1)
    have offered : grammar.Offers domain.size (.multipleOf natural) := listed
    refine .ofExcept ?_ offered
    rw [Terminal.checkMultipleOf, Parameter.check_int inRange]
    rfl
  case h_4 =>
    -- Only with endings among the families are there as many of them.
    have included : grammar.includeEndings = true := by
      by_contra excluded
      rw [if_neg excluded] at isFamily
      exact absurd isFamily (by decide)
    refine (bounded.between (by decide)).bind fun digit within => ?_
    have inRange : Parameter.endingDigit.Ranges digit :=
      ⟨Int.natCast_nonneg digit, Int.ofNat_le.2 within.2⟩
    have offered : grammar.Offers domain.size (.endsIn digit) := ⟨included, within.2⟩
    refine .ofExcept ?_ offered
    rw [Terminal.checkEndsIn, Parameter.check_int inRange]
    rfl
  case h_5 =>
    refine (bounded.between domain.admissible.1).bind fun low lower => ?_
    refine (bounded.between lower.2).bind fun high upper => ?_
    exact .ofExcept (Terminal.checkInterval_eq_ok lower.1 upper.1 upper.2) ⟨lower.1, upper⟩

variable [Scalar α]

/-- The probability of a terminal is known at every depth that a draw comes to. -/
theorem stopProbability_eq_ok {depth : Int} (possible : 0 ≤ depth) :
    stopProbability depth = .ok (Scalar.ofInt depth / (Scalar.ofInt depth + Scalar.ofNat 2) : α) :=
  if_neg (by omega)

/-- A concept is drawn, the grammar offers its terminals, and it has at most as many operations
above each terminal as are left. -/
theorem drawConceptAbove_yields (bounded : RandomSource.Bounded α σ) (drawable : grammar.Drawable)
    (domain : Domain) {remaining : Nat} (possible : remaining ≤ Concept.maxDepth) :
    (drawConceptAbove α grammar domain.size remaining : Draw σ Concept).Yields fun concept =>
      (∀ leaf ∈ concept.leaves, grammar.Offers domain.size leaf) ∧ concept.depth ≤ remaining := by
  have terminal : ∀ bound : Nat, (do
      return Concept.terminal (← drawTerminal α grammar domain.size) : Draw σ Concept).Yields
        fun concept => (∀ leaf ∈ concept.leaves, grammar.Offers domain.size leaf) ∧
          concept.depth ≤ bound := by
    intro bound
    refine (drawTerminal_yields bounded drawable domain).bind fun leaf offered => .pure ⟨?_, ?_⟩
    · intro other isLeaf
      rwa [List.mem_singleton.1 isLeaf]
    · exact Nat.zero_le _
  -- Both operands are drawn with one operation less left, so that their combination is never refused.
  induction remaining with
  | zero => exact terminal 0
  | succ remaining inductionHypothesis =>
      have below := inductionHypothesis (Nat.le_of_succ_le possible)
      have unit : (Draw.unit α : Draw σ α).Yields fun _ => True := .lift fun _ => trivial
      rw [drawConceptAbove, Draw.ofExcept_bind (stopProbability_eq_ok (by omega))]
      refine unit.bind fun drawn _ => ?_
      split
      · exact terminal _
      · refine unit.bind fun coin _ => ?_
        refine below.bind fun left ⟨offeredLeft, depthLeft⟩ => ?_
        refine below.bind fun right ⟨offeredRight, depthRight⟩ => ?_
        refine .ofExcept (Concept.checkCombine_eq_ok (by omega)) ⟨?_, ?_⟩
        · intro leaf isLeaf
          exact (List.mem_append.1 isLeaf).elim (offeredLeft leaf) (offeredRight leaf)
        · simp only [Concept.depth]
          omega

/-- A legal concept is drawn, and what lies above its root counts as a part of its depth. -/
theorem drawConcept_yields (bounded : RandomSource.Bounded α σ) (drawable : grammar.Drawable)
    (domain : Domain) {depth : Int} (possible : 0 ≤ depth) :
    (drawConcept α grammar domain.size depth : Draw σ Concept).Yields fun concept =>
      concept.Legal ∧ concept.depth ≤ (Concept.maxDepth - depth).toNat := by
  have shallow : (Concept.maxDepth - depth).toNat ≤ Concept.maxDepth := by omega
  refine (drawConceptAbove_yields bounded drawable domain shallow).imp ?_
  rintro concept ⟨offered, within⟩
  have legal := fun leaf isLeaf => drawable.inRange.legal_of_offers domain (offered leaf isLeaf)
  exact ⟨⟨legal, within.trans shallow⟩, within⟩

/-! ### Concepts at the root -/

/-- At depth zero a combination is drawn, as long as no number of the unit interval is below the
probability of a terminal there. -/
theorem drawConcept_yields_above (bounded : RandomSource.Bounded α σ) (drawable : grammar.Drawable)
    (domain : Domain) (never : ∀ state : σ, Scalar.lt (RandomSource.unit state : α × σ).1
      (Scalar.ofInt 0 / (Scalar.ofInt 0 + Scalar.ofNat 2)) = false) :
    (drawConcept α grammar domain.size 0 : Draw σ Concept).Yields fun concept =>
      1 ≤ concept.depth := by
  have below : (drawConceptAbove α grammar domain.size 2 : Draw σ Concept).Yields _ :=
    drawConceptAbove_yields bounded drawable domain (by decide)
  have probability : stopProbability (Concept.maxDepth - ((2 + 1 : Nat) : Int)) =
      .ok (Scalar.ofInt 0 / (Scalar.ofInt 0 + Scalar.ofNat 2) : α) :=
    stopProbability_eq_ok (by decide)
  have unit : (Draw.unit α : Draw σ α).Yields fun drawn =>
      Scalar.lt drawn (Scalar.ofInt 0 / (Scalar.ofInt 0 + Scalar.ofNat 2)) = false := .lift never
  change (drawConceptAbove α grammar domain.size 3 : Draw σ Concept).Yields _
  rw [drawConceptAbove, Draw.ofExcept_bind probability]
  refine unit.bind fun drawn goesOn => ?_
  rw [goesOn]
  refine unit.bind fun coin _ => ?_
  refine below.bind ?_
  rintro left ⟨_, depthLeft⟩
  refine below.bind ?_
  rintro right ⟨_, depthRight⟩
  have shallow : 1 + max left.depth right.depth ≤ Concept.maxDepth := by
    rw [Concept.maxDepth]
    omega
  refine .ofExcept (Concept.checkCombine_eq_ok shallow) ?_
  exact Nat.le_add_right 1 _

/-- Without rounding, a combination is drawn at depth zero. -/
theorem drawConcept_yields_combination {σ : Type} [RandomSource Exact σ]
    (bounded : RandomSource.Bounded Exact σ)
    (nonnegative : ∀ state : σ, Scalar.le Scalar.zero (RandomSource.unit state : Exact × σ).1 = true)
    (drawable : grammar.Drawable) (domain : Domain) :
    (drawConcept Exact grammar domain.size 0 : Draw σ Concept).Yields fun concept =>
      1 ≤ concept.depth := by
  refine drawConcept_yields_above bounded drawable domain fun state => ?_
  have none : (Scalar.ofInt 0 / (Scalar.ofInt 0 + Scalar.ofNat 2) : Exact) = Scalar.zero := by
    simp [Exact.real_div_real]
  rw [none]
  exact Exact.lt_eq_false_of_le (nonnegative state)

/-- A concept drawn from a grammar at a depth of its own. -/
structure IsProgram (grammar : Grammar) (size : Nat) (depth : Int) (concept : Concept) : Prop where
  legal : concept.Legal
  /-- Below the depth that it starts at it is not too deep either. -/
  within : (concept.depth : Int) ≤ Concept.maxDepth - depth
  combined : depth = 0 → concept.isTerminal = false
  offered : ∀ leaf ∈ concept.leaves, grammar.Offers size leaf

/-- Whatever a source of random numbers draws, a program of the grammar is drawn at every depth that
concepts may have. -/
theorem drawConcept_legal {σ : Type} [RandomSource Float σ]
    (bounded : RandomSource.Bounded Float σ)
    (nonnegative : ∀ state : σ, Scalar.le Scalar.zero (RandomSource.unit state : Float × σ).1 = true)
    (drawable : grammar.Drawable) (domain : Domain) {depth : Int}
    (possible : 0 ≤ depth ∧ depth ≤ Concept.maxDepth) :
    (drawConcept Float grammar domain.size depth : Draw σ Concept).Yields
      (IsProgram grammar domain.size depth) := by
  have never : ∀ state : σ, Scalar.lt (RandomSource.unit state : Float × σ).1
      (Scalar.ofInt 0 / (Scalar.ofInt 0 + Scalar.ofNat 2)) = false := by
    intro state
    have none : (Scalar.ofInt 0 / (Scalar.ofInt 0 + Scalar.ofNat 2) : Float) = Scalar.zero := by
      decide
    rw [none]
    exact Double.not_lt_zero (nonnegative state)
  have shallow : (Concept.maxDepth - depth).toNat ≤ Concept.maxDepth := by omega
  have leaves : (drawConcept Float grammar domain.size depth : Draw σ Concept).Yields fun concept =>
      (∀ leaf ∈ concept.leaves, grammar.Offers domain.size leaf) ∧
        concept.depth ≤ (Concept.maxDepth - depth).toNat :=
    drawConceptAbove_yields bounded drawable domain shallow
  have root : (drawConcept Float grammar domain.size depth : Draw σ Concept).Yields fun concept =>
      depth = 0 → 1 ≤ concept.depth := by
    by_cases atRoot : depth = 0
    · rw [atRoot]
      exact (drawConcept_yields_above bounded drawable domain never).imp fun _ deep _ => deep
    · exact leaves.imp fun _ _ zero => absurd zero atRoot
  refine ((drawConcept_yields bounded drawable domain possible.1).and (leaves.and root)).imp ?_
  rintro concept ⟨⟨legal, _⟩, ⟨offered, within⟩, deep⟩
  refine ⟨legal, by omega, fun atRoot => ?_, offered⟩
  cases concept with
  | terminal leaf => exact absurd (deep atRoot) (Nat.not_succ_le_zero 0)
  | combine operation left right => rfl

end Simulation

/-! ### The Mersenne twister -/

section Twister

open Exact

/-- Numbers that the Mersenne twister draws from the unit interval are not negative. -/
theorem MersenneTwister.unit_nonneg (generator : MersenneTwister) :
    Scalar.le Scalar.zero (RandomSource.unit generator : Exact × MersenneTwister).1 = true := by
  have drawn : (RandomSource.unit generator : Exact × MersenneTwister).1 =
      Scalar.ofNat generator.nextUnits.1 / Scalar.ofNat (Nat.pow 2 53) := rfl
  have scale : ((Nat.pow 2 53 : Nat) : ℝ) = 2 ^ 53 := by norm_num
  rw [drawn, ofNat_eq, ofNat_eq, scale, real_div_real (by positivity), zero_eq, le_real,
    decide_eq_true_iff]
  positivity

/-- Neither are they when they are rounded to doubles. -/
theorem MersenneTwister.unit_nonneg_double (generator : MersenneTwister) :
    Scalar.le Scalar.zero (RandomSource.unit generator : Float × MersenneTwister).1 = true :=
  Double.zero_le (Double.signed_quotient _)

/-- From every state of the twister a combination over twelve numbers is drawn, also where last
digits are among the terminals. -/
theorem Simulation.drawConcept_legal_over_twelve :
    (drawConcept Float { Grammar.standard with includeEndings := true } 12 0 :
      Draw MersenneTwister Concept).Yields
        (IsProgram { Grammar.standard with includeEndings := true } 12 0) :=
  drawConcept_legal (MersenneTwister.bounded Float) MersenneTwister.unit_nonneg_double
    ⟨⟨by decide, by decide⟩, by decide, by decide⟩ ⟨12, by decide⟩ (by decide)

end Twister

/-! ### The posterior over random concepts -/

section Posteriors

variable {α σ : Type} [Scalar α] [RandomSource α σ] {grammar : Grammar} {size : Nat}

/-- A tally counts how often a concept occurs. -/
theorem SampledPosterior.getD_tally (hypotheses : List (Hypothesis size)) (concept : Concept) :
    (tally hypotheses).getD concept 0 =
      hypotheses.countP fun hypothesis => hypothesis.concept == concept := by
  -- Counting starts from an empty table, but goes on from one that has counts.
  have counted : ∀ (hypotheses : List (Hypothesis size)) (counts : Std.HashMap Concept Nat),
      (hypotheses.foldl (fun counts hypothesis => counts.insert hypothesis.concept
        (counts.getD hypothesis.concept 0 + 1)) counts).getD concept 0 =
          counts.getD concept 0 + hypotheses.countP fun hypothesis =>
            hypothesis.concept == concept := by
    intro hypotheses
    induction hypotheses with
    | nil => exact fun _ => rfl
    | cons first rest inductionHypothesis =>
        intro counts
        rw [List.foldl_cons, inductionHypothesis, Std.HashMap.getD_insert, List.countP_cons]
        by_cases same : first.concept = concept
        · simp only [same, beq_self_eq_true, if_true]
          omega
        · simp [same]
  rw [tally, counted, Std.HashMap.getD_empty, Nat.zero_add]

/-- Every candidate among random concepts was drawn, contains the examples, and has a prior weight
by how often it was drawn. -/
theorem SampledPosterior.exists_of_ofDrawn {samples : Int} {examples : List Nat}
    {drawn : List (Hypothesis size)} {posterior : Posterior α size} {entry : Ranked α size}
    (succeeds : (ofDrawn samples examples drawn).posterior = .ok posterior)
    (isEntry : entry ∈ posterior.entries) :
    entry.hypothesis ∈ drawn ∧ (∀ n ∈ examples, n ∈ entry.hypothesis.members) ∧
      ∃ count : Nat, 1 ≤ count ∧
        entry.logPrior = Scalar.log (Scalar.ofNat count / Scalar.ofInt samples) := by
  rw [ofDrawn] at succeeds
  dsimp only at succeeds
  split at succeeds
  next ranking weighed =>
    cases succeeds
    obtain ⟨hypothesis, listed, assessed⟩ := List.mem_map.1 (Posterior.toAssessment_mem weighed isEntry)
    have same : hypothesis = entry.hypothesis := congrArg Assessment.hypothesis assessed
    subst same
    obtain empty | accepted := Roster.mem_insertAll.1 listed
    · cases empty
    · obtain ⟨isDrawn, fits⟩ := List.mem_filter.1 accepted
      rw [Bool.and_eq_true, Hypothesis.containsAll, NatSet.containsAll_map_ofNat] at fits
      refine ⟨isDrawn, fits.2, _, ?_, (congrArg Assessment.logPrior assessed).symm⟩
      rw [getD_tally]
      exact List.countP_pos_iff.2 ⟨_, accepted, beq_self_eq_true _⟩
  next => cases succeeds

/-- Random concepts are drawn and weighed. All candidates are legal concepts that contain the
examples and were drawn at least once. -/
theorem HypothesisSpace.sampledPosterior_yields (bounded : RandomSource.Bounded α σ)
    (drawable : grammar.Drawable) (space : HypothesisSpace) (samples : Int) (examples : List Nat) :
    (space.sampledPosterior α grammar samples examples :
        Draw σ (SampledPosterior α space.domain.size)).Yields fun sampled =>
      ∀ posterior, sampled.posterior = .ok posterior → ∀ entry ∈ posterior.entries,
        entry.hypothesis.concept.Legal ∧ (∀ n ∈ examples, n ∈ entry.hypothesis.members) ∧
          ∃ count : Nat, 1 ≤ count ∧
            entry.logPrior = Scalar.log (Scalar.ofNat count / Scalar.ofInt samples) := by
  have one := Simulation.drawConcept_yields bounded drawable space.domain (le_refl 0)
  refine (one.times samples.toNat).bind fun drawn ⟨_, legal⟩ => .pure ?_
  intro posterior succeeds entry isEntry
  obtain ⟨isDrawn, contains, weighed⟩ := SampledPosterior.exists_of_ofDrawn succeeds isEntry
  obtain ⟨concept, listed, same⟩ := List.mem_map.1 isDrawn
  refine ⟨?_, contains, weighed⟩
  rw [← same]
  exact (legal concept listed).1

end Posteriors

end NumberConcepts
