import NumberConcepts.Proofs.Prior.Outcome
/-!
# Combinations cost more than their parts

Every node takes a share of the total weight, and no share is more than the whole. The
share of an operation is less than that, because the total also counts the weight of
terminals, and every tree ends in terminals. So a combination has less weight than each
of its parts, as long as all of its nodes have some.
-/

namespace NumberConcepts

open Exact

/-- A finite scalar that is not below zero is a number that is not negative. -/
theorem Exact.NotBelow.eq_real {a : Exact} (notBelow : a.NotBelow)
    (finite : Scalar.isFinite a = true) : a = real a.value ∧ 0 ≤ a.value := by
  obtain ⟨x, rfl⟩ := isFinite_iff.1 finite
  exact ⟨rfl, notBelow⟩

theorem Exact.NotBelow.value_pos {a : Exact} (notBelow : a.NotBelow)
    (finite : Scalar.isFinite a = true) (nonzero : a ≠ real 0) : 0 < a.value := by
  obtain ⟨isReal, nonnegative⟩ := notBelow.eq_real finite
  exact nonnegative.lt_of_ne fun zero => nonzero (by rw [isReal, ← zero])

/-- A number has a finite quotient by anything that is not zero or less, as long as it is defined. -/
theorem Exact.isFinite_real_div (x : ℝ) {divisor : Exact}
    (positive : Scalar.le divisor Scalar.zero = false) (defined : divisor ≠ undefined) :
    Scalar.isFinite (real x / divisor) = true := by
  rw [zero_eq] at positive
  cases divisor with
  | real y =>
      rw [le_real, decide_eq_false_iff_not, not_le] at positive
      rw [real_div_real positive.ne', isFinite_real]
  | posInf => rfl
  | undefined => exact absurd rfl defined
  | negInf => cases positive

namespace Concept

/-- The root is one of the nodes. -/
theorem tag_mem_tags (concept : Concept) : concept.tag ∈ concept.tags := by
  cases concept <;> exact List.mem_cons_self

/-- The kinds of nodes are those of all parts. -/
theorem map_tag_subconcepts (concept : Concept) : concept.subconcepts.map tag = concept.tags := by
  induction concept with
  | terminal leaf => rfl
  | combine operation left right first second =>
      rw [subconcepts, List.map_cons, List.map_append, first, second]
      rfl

/-- Every tree ends in terminals. -/
theorem exists_leaf_mem_tags (concept : Concept) : ∃ leaf : Terminal, leaf.tag ∈ concept.tags := by
  induction concept with
  | terminal leaf => exact ⟨leaf, List.mem_cons_self⟩
  | combine operation left right first _ =>
      obtain ⟨leaf, isLeaf⟩ := first
      exact ⟨leaf, List.mem_cons_of_mem _ (List.mem_append_left _ isLeaf)⟩

theorem forall_mem_tags {concept : Concept} {holds : Tag → Prop}
    (nodes : ∀ node ∈ concept.subconcepts, holds node.tag) : ∀ tag ∈ concept.tags, holds tag := by
  rw [← concept.map_tag_subconcepts]
  exact List.forall_mem_map.2 nodes

/-- The parts of a part are parts too. -/
theorem subconcepts_subset {concept part : Concept} (isPart : part ∈ concept.subconcepts) :
    part.subconcepts ⊆ concept.subconcepts := by
  induction concept with
  | terminal leaf => rw [List.mem_singleton.1 isPart]; exact List.Subset.refl _
  | combine operation left right ofLeft ofRight =>
      rw [subconcepts, List.mem_cons, List.mem_append] at isPart
      obtain rfl | inLeft | inRight := isPart
      · exact List.Subset.refl _
      · exact fun _ listed => List.mem_cons_of_mem _ (List.mem_append_left _ (ofLeft inLeft listed))
      · exact fun _ listed =>
          List.mem_cons_of_mem _ (List.mem_append_right _ (ofRight inRight listed))

end Concept

namespace Prior

/-- The sum of the logarithms of the shares of all nodes. -/
noncomputable def logProduct (prior : Prior Exact) (size : Nat) (concept : Concept) : ℝ :=
  (concept.tags.map fun tag => Real.log (prior.share size tag)).sum

variable {prior : Prior Exact} {size : Nat}

/-- In a domain with numbers finite weights stay finite when they are divided. -/
theorem FinitelyWeighted.isFinite_tagWeight (finite : prior.FinitelyWeighted)
    (defined : prior.divisor ≠ .fixed .undefined) (some : 0 < size) (tag : Tag) :
    Scalar.isFinite (prior.tagWeight size tag) = true := by
  obtain ⟨x, _, isReal⟩ := finite.exists_weight tag
  simp only [tagWeight, isReal]
  split
  · cases divides : prior.divisor with
    | fixed value =>
        refine Exact.isFinite_real_div x (finite.divisor value divides) ?_
        rintro (rfl : value = undefined)
        exact defined divides
    | exact =>
        have atLeastTwo : 2 ≤ size * (size + 1) := Nat.mul_le_mul some (Nat.succ_le_succ some)
        have intervals : (0 : ℝ) < (size * (size + 1) / 2 : Nat) :=
          Nat.cast_pos.2 (Nat.div_pos atLeastTwo two_pos)
        rw [IntervalDivisor.value, ofNat_eq, real_div_real intervals.ne', isFinite_real]
  · rfl

/-- The logarithms of a combination are those of its root and of both parts. -/
theorem logProduct_combine (operation : Operation) (left right : Concept) :
    prior.logProduct size (.combine operation left right) =
      Real.log (prior.share size (.combination operation)) +
        (prior.logProduct size left + prior.logProduct size right) := by
  simp only [logProduct, Concept.tags, List.map_cons, List.map_append, List.sum_cons,
    List.sum_append]

namespace Admitted

variable (admitted : prior.Admitted)
  (finite : ∀ tag, Scalar.isFinite (prior.tagWeight size tag) = true)

include admitted finite

/-- Finite weights are numbers that are not negative. -/
theorem tagWeight_eq_real (tag : Tag) :
    prior.tagWeight size tag = .real (prior.tagWeight size tag).value ∧
      0 ≤ (prior.tagWeight size tag).value :=
  (notBelow_iff.2 (admitted.notBelow_tagWeight size tag)).eq_real (finite tag)

theorem tagWeight_pos {tag : Tag} (weighted : prior.tagWeight size tag ≠ .real 0) :
    0 < (prior.tagWeight size tag).value :=
  (notBelow_iff.2 (admitted.notBelow_tagWeight size tag)).value_pos (finite tag) weighted

/-- Their total is one too. -/
theorem totalWeight_eq_value :
    prior.totalWeight size = .real (prior.totalWeight size).value := by
  rw [totalWeight_eq_real fun tag => (admitted.tagWeight_eq_real finite tag).1]
  rfl

/-- No kind has more weight than all kinds together. -/
theorem tagWeight_le_totalWeight (tag : Tag) :
    (prior.tagWeight size tag).value ≤ (prior.totalWeight size).value := by
  have numbers := admitted.tagWeight_eq_real finite
  rw [totalWeight_eq_real fun tag => (numbers tag).1]
  exact List.single_le_sum (List.forall_mem_map.2 fun other _ => (numbers other).2) _
    (List.mem_map_of_mem tag.mem_all)

/-- Where some kind has a weight so do all kinds together. -/
theorem totalWeight_pos {tag : Tag} (weighted : prior.tagWeight size tag ≠ .real 0) :
    0 < (prior.totalWeight size).value :=
  (admitted.tagWeight_pos finite weighted).trans_le (admitted.tagWeight_le_totalWeight finite tag)

/-- With finite weights the share is the quotient of two numbers. -/
theorem share_eq_div (tag : Tag) :
    prior.share size tag = (prior.tagWeight size tag).value / (prior.totalWeight size).value := by
  have isWeight : ∀ {a : Exact}, a = real a.value ∧ 0 ≤ a.value → a.IsWeight := by
    rintro a ⟨isReal, nonnegative⟩
    rw [isReal]
    exact nonnegative
  have total : 0 ≤ (prior.totalWeight size).value :=
    (admitted.tagWeight_eq_real finite tag).2.trans (admitted.tagWeight_le_totalWeight finite tag)
  exact value_div (isWeight (admitted.tagWeight_eq_real finite tag))
    (isWeight ⟨admitted.totalWeight_eq_value finite, total⟩)

theorem share_pos {tag : Tag} (weighted : prior.tagWeight size tag ≠ .real 0) :
    0 < prior.share size tag := by
  rw [admitted.share_eq_div finite]
  exact div_pos (admitted.tagWeight_pos finite weighted) (admitted.totalWeight_pos finite weighted)

/-- A kind with a weight has its share as quotient. -/
theorem div_eq_share {tag : Tag} (weighted : prior.tagWeight size tag ≠ .real 0) :
    prior.tagWeight size tag / prior.totalWeight size = .real (prior.share size tag) := by
  rw [admitted.share_eq_div finite, (admitted.tagWeight_eq_real finite tag).1,
    admitted.totalWeight_eq_value finite]
  exact real_div_real (admitted.totalWeight_pos finite weighted).ne'

/-- Without rounding every kind with a weight has a share. -/
theorem hasShare {tag : Tag} (weighted : prior.tagWeight size tag ≠ .real 0) :
    prior.HasShare size tag where
  weight := by
    rw [(admitted.tagWeight_eq_real finite tag).1, zero_eq, le_real]
    exact decide_eq_false (admitted.tagWeight_pos finite weighted).not_ge
  share := by
    rw [admitted.div_eq_share finite weighted, zero_eq, le_real]
    exact decide_eq_false (admitted.share_pos finite weighted).not_ge

/-- The logarithms of all shares are added as numbers. -/
theorem logSum_eq_real {tags : List Tag}
    (weighted : ∀ tag ∈ tags, prior.tagWeight size tag ≠ .real 0) (logarithm : ℝ) :
    prior.logSum size (.real logarithm) tags =
      .real (logarithm + (tags.map fun tag => Real.log (prior.share size tag)).sum) := by
  induction tags generalizing logarithm with
  | nil => simp [logSum]
  | cons first rest inductionHypothesis =>
      obtain ⟨now, later⟩ := List.forall_mem_cons.1 weighted
      rw [logSum, List.foldl_cons, admitted.div_eq_share finite now,
        log_real (admitted.share_pos finite now), real_add_real, ← logSum,
        inductionHypothesis later, List.map_cons, List.sum_cons, add_assoc]

/-- Two kinds of nodes have at most as much weight as all kinds together. -/
theorem tagWeight_add_le_totalWeight {first second : Tag} (different : first ≠ second) :
    (prior.tagWeight size first).value + (prior.tagWeight size second).value ≤
      (prior.totalWeight size).value := by
  have numbers := admitted.tagWeight_eq_real finite
  let weight := fun tag => (prior.tagWeight size tag).value
  have others : weight second ≤ ((Tag.all.erase first).map weight).sum :=
    List.single_le_sum (List.forall_mem_map.2 fun other _ => (numbers other).2) _
      (List.mem_map_of_mem ((List.mem_erase_of_ne different.symm).2 second.mem_all))
  rw [totalWeight_eq_real fun tag => (numbers tag).1, Exact.value,
    ← List.sum_map_erase weight first.mem_all]
  exact add_le_add_right others _

theorem share_nonneg (tag : Tag) : 0 ≤ prior.share size tag := by
  have nonnegative := (admitted.tagWeight_eq_real finite tag).2
  rw [admitted.share_eq_div finite]
  exact div_nonneg nonnegative (nonnegative.trans (admitted.tagWeight_le_totalWeight finite tag))

/-- No share is more than the whole. -/
theorem share_le_one (tag : Tag) : prior.share size tag ≤ 1 := by
  have atMost := admitted.tagWeight_le_totalWeight finite tag
  rw [admitted.share_eq_div finite]
  exact div_le_one_of_le₀ atMost ((admitted.tagWeight_eq_real finite tag).2.trans atMost)

/-- A kind with some weight leaves every other kind less than the whole. -/
theorem share_lt_one {tag other : Tag} (different : tag ≠ other)
    (weighted : prior.tagWeight size other ≠ .real 0) : prior.share size tag < 1 := by
  have positive := admitted.tagWeight_pos finite weighted
  have together := admitted.tagWeight_add_le_totalWeight finite different
  rw [admitted.share_eq_div finite, div_lt_one (admitted.totalWeight_pos finite weighted)]
  linarith

theorem log_share_nonpos (tag : Tag) : Real.log (prior.share size tag) ≤ 0 :=
  Real.log_nonpos (admitted.share_nonneg finite tag) (admitted.share_le_one finite tag)

theorem logProduct_nonpos (concept : Concept) : prior.logProduct size concept ≤ 0 := by
  induction concept with
  | terminal leaf => simpa [logProduct, Concept.tags] using admitted.log_share_nonpos finite leaf.tag
  | combine operation left right first second =>
      rw [logProduct_combine]
      exact add_nonpos (admitted.log_share_nonpos finite _) (add_nonpos first second)

/-- No concept has more weight than a part of it. -/
theorem logProduct_le_of_mem_subconcepts {concept part : Concept}
    (isPart : part ∈ concept.subconcepts) :
    prior.logProduct size concept ≤ prior.logProduct size part := by
  induction concept with
  | terminal leaf => rw [List.mem_singleton.1 isPart]
  | combine operation left right ofLeft ofRight =>
      have root := admitted.log_share_nonpos finite (.combination operation)
      have first := admitted.logProduct_nonpos finite left
      have second := admitted.logProduct_nonpos finite right
      rw [Concept.subconcepts, List.mem_cons, List.mem_append] at isPart
      obtain rfl | inLeft | inRight := isPart
      · exact le_refl _
      · have below := ofLeft inLeft
        rw [logProduct_combine]
        linarith
      · have below := ofRight inRight
        rw [logProduct_combine]
        linarith

/-- Where operation and terminals have some weight, a combination has less than each of its parts. -/
theorem logProduct_lt_of_mem {operation : Operation} {left right part : Concept}
    (weighted : ∀ tag ∈ (Concept.combine operation left right).tags,
      prior.tagWeight size tag ≠ .real 0)
    (isPart : part ∈ left.subconcepts ++ right.subconcepts) :
    prior.logProduct size (.combine operation left right) < prior.logProduct size part := by
  have root : Real.log (prior.share size (.combination operation)) < 0 := by
    obtain ⟨leaf, isLeaf⟩ := left.exists_leaf_mem_tags
    have different : Tag.combination operation ≠ leaf.tag := by cases leaf <;> exact nofun
    refine Real.log_neg (admitted.share_pos finite (weighted _ List.mem_cons_self))
      (admitted.share_lt_one finite different (weighted _ ?_))
    exact List.mem_cons_of_mem _ (List.mem_append_left _ isLeaf)
  have first := admitted.logProduct_nonpos finite left
  have second := admitted.logProduct_nonpos finite right
  rw [logProduct_combine]
  obtain inLeft | inRight := List.mem_append.1 isPart
  · have below := admitted.logProduct_le_of_mem_subconcepts finite inLeft
    linarith
  · have below := admitted.logProduct_le_of_mem_subconcepts finite inRight
    linarith

/-- Without a number of members the logarithm of the weight is that of the shares of all nodes. -/
theorem logPrior_eq_logProduct {concept : Concept}
    (weighted : ∀ node ∈ concept.subconcepts, prior.tagWeight size node.tag ≠ .real 0) :
    prior.logPrior size concept none = .ok (.real (prior.logProduct size concept)) := by
  have nodes : ∀ tag ∈ concept.tags, prior.tagWeight size tag ≠ .real 0 :=
    Concept.forall_mem_tags weighted
  have total : Scalar.le (prior.totalWeight size) Scalar.zero = false := by
    rw [admitted.totalWeight_eq_value finite, zero_eq, le_real]
    exact decide_eq_false (admitted.totalWeight_pos finite (nodes _ concept.tag_mem_tags)).not_ge
  rw [logPrior_eq_logSum total (fun tag listed => admitted.hasShare finite (nodes tag listed))
    (.inr rfl), zero_eq, admitted.logSum_eq_real finite nodes, zero_add, logProduct]

theorem logPrior_eq_negInf {concept : Concept} (weightless : prior.totalWeight size = .real 0 ∨
      ∃ node ∈ concept.subconcepts, prior.tagWeight size node.tag = .real 0)
    (count : Option Int) : prior.logPrior size concept count = .ok .negInf := by
  have zero : ∀ {a : Exact}, a = .real 0 → Scalar.le a Scalar.zero = true := by
    rintro _ rfl
    simp
  refine Weightless.logPrior_eq_negInf (weightless.imp zero ?_) count
  rintro ⟨node, isPart, noWeight⟩
  obtain shares | reached | ⟨tag, _, weight, share⟩ := prior.walk_cases size concept.tags
  · have listed : node.tag ∈ concept.tags := by
      rw [← concept.map_tag_subconcepts]
      exact List.mem_map_of_mem isPart
    exact absurd (zero noWeight) (Bool.eq_false_iff.1 (shares _ listed).weight)
  · exact reached
  · -- Without rounding no kind with a weight lacks a share.
    have weighted : prior.tagWeight size tag ≠ .real 0 := Bool.eq_false_iff.1 weight ∘ zero
    exact absurd share (Bool.eq_false_iff.1 (admitted.hasShare finite weighted).share)

end Admitted

/-- What a combination costs, without a factor for its size. -/
structure Charges (prior : Prior Exact) (size : Nat) (operation : Operation)
    (left right : Concept) : Prop where
  weightless : prior.logPrior size (.combine operation left right) none = .ok .negInf ↔
    prior.totalWeight size = .real 0 ∨
      ∃ node ∈ (Concept.combine operation left right).subconcepts,
        prior.tagWeight size node.tag = .real 0
  /-- With a weight its logarithm is a number, and a lower one than that of each of its parts. -/
  dearer : prior.logPrior size (.combine operation left right) none ≠ .ok .negInf →
    ∃ logarithm, prior.logPrior size (.combine operation left right) none = .ok (.real logarithm) ∧
      ∀ part ∈ left.subconcepts ++ right.subconcepts, ∃ other,
        prior.logPrior size part none = .ok (.real other) ∧ logarithm < other

/-- With finite weights a combination has no weight, or less than each of its parts. -/
theorem FinitelyWeighted.charges (finite : prior.FinitelyWeighted)
    (defined : prior.divisor ≠ .fixed .undefined) (some : 0 < size) (operation : Operation)
    (left right : Concept) : prior.Charges size operation left right := by
  have admitted := finite.admitted
  have weights := finite.isFinite_tagWeight defined some
  let whole := Concept.combine operation left right
  by_cases weightless : prior.totalWeight size = .real 0 ∨
      ∃ node ∈ whole.subconcepts, prior.tagWeight size node.tag = .real 0
  · have noWeight := admitted.logPrior_eq_negInf weights weightless none
    exact ⟨iff_of_true noWeight weightless, absurd noWeight⟩
  · have weighted : ∀ node ∈ whole.subconcepts, prior.tagWeight size node.tag ≠ .real 0 :=
      fun node isPart noWeight => weightless (.inr ⟨node, isPart, noWeight⟩)
    have found := admitted.logPrior_eq_logProduct weights weighted
    refine ⟨iff_of_false (by rw [found]; exact nofun) weightless, fun _ => ⟨_, found, ?_⟩⟩
    intro part isPart
    have inWhole : part.subconcepts ⊆ whole.subconcepts :=
      Concept.subconcepts_subset (List.mem_cons_of_mem _ isPart)
    exact ⟨_, admitted.logPrior_eq_logProduct weights fun node listed =>
      weighted node (inWhole listed), admitted.logProduct_lt_of_mem weights
        (Concept.forall_mem_tags weighted) isPart⟩

/-- The prior with weights by type charges the union of the powers of two with the odd primes more
than the powers of two and more than the odd primes. -/
theorem typeWeighted_charges :
    (typeWeighted : Prior Exact).FinitelyWeighted ∧
      (typeWeighted : Prior Exact).divisor ≠ .fixed .undefined ∧ 0 < 100 ∧
      (typeWeighted : Prior Exact).Charges 100 .union (.terminal (.powerOf 2))
        (.combine .intersect (.terminal (.primitive .prime)) (.terminal (.primitive .odd))) := by
  have named : Prior.named? "type-weighted" = some (typeWeighted : Prior Exact) := rfl
  have defined : (typeWeighted : Prior Exact).divisor ≠ .fixed .undefined := nofun
  exact ⟨.of_named named, defined, by decide,
    FinitelyWeighted.charges (.of_named named) defined (by decide) _ _ _⟩

end Prior

end NumberConcepts
