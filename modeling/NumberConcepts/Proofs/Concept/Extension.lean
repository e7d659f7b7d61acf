import NumberConcepts.Concept.Extension
import NumberConcepts.Proofs.NatSet
import NumberConcepts.Proofs.Number.Division
import NumberConcepts.Proofs.Number.Powers
import NumberConcepts.Proofs.Number.Primes
/-!
# Members of concepts

Each family of terminals generates its extension in its own way. Whatever the way,
the members of a legal terminal are the numbers of the domain that belong to it, and
so it is for concepts: `Concept.mem_extension`.
-/

namespace NumberConcepts

/-- The numbers with a property are those that its test accepts. -/
theorem Primitive.accepts_iff {property : Primitive} {n : Nat} :
    property.accepts n = true ↔ (Terminal.primitive property).Holds n := by
  cases property with
  | prime => exact Number.isPrime_natCast.trans Nat.prime_def
  | square => exact Number.isSquare_iff
  | even => rw [accepts, beq_iff_eq, Terminal.Holds, Nat.dvd_iff_mod_eq_zero]
  | odd =>
      rw [accepts, beq_iff_eq, Terminal.Holds, Nat.dvd_iff_mod_eq_zero]
      omega

namespace Terminal

variable {n size : Nat}

/-- The extension of a base holds its powers within the domain. -/
theorem mem_extension_powerOf {base : Nat} (large : 2 ≤ base) :
    n ∈ (powerOf base).extension size ↔ n ≤ size ∧ ∃ exponent, base ^ exponent = n := by
  simp only [extension, NatSet.mem_ofList, List.mem_map]
  constructor
  · rintro ⟨x, listed, rfl⟩
    obtain ⟨upper, exponent, power⟩ := (Number.mem_powersUpTo (by omega)).1 listed
    refine ⟨by omega, exponent, ?_⟩
    rw [← power, ← Int.natCast_pow, Int.toNat_natCast]
  · rintro ⟨upper, exponent, rfl⟩
    refine ⟨((base ^ exponent : Nat) : Int), ?_, Int.toNat_natCast _⟩
    exact (Number.mem_powersUpTo (by omega)).2 ⟨by omega, exponent, (Int.natCast_pow _ _).symm⟩

/-- The extension of a step holds its positive multiples within the domain. -/
theorem mem_extension_multipleOf {step : Nat} (positive : 1 ≤ step) :
    n ∈ (multipleOf step).extension size ↔ (1 ≤ n ∧ n ≤ size) ∧ step ∣ n := by
  simp only [extension, NatSet.mem_ofList, List.mem_map]
  constructor
  · rintro ⟨x, listed, rfl⟩
    obtain ⟨above, upper, divides⟩ := (Number.mem_multiplesUpTo (by omega)).1 listed
    refine ⟨by omega, ?_⟩
    rw [← Int.natCast_dvd_natCast, Int.toNat_of_nonneg (Int.le_of_lt above)]
    exact divides
  · rintro ⟨bounded, divides⟩
    refine ⟨n, ?_, Int.toNat_natCast n⟩
    exact (Number.mem_multiplesUpTo (by omega)).2
      ⟨by omega, by omega, Int.natCast_dvd_natCast.2 divides⟩

/-- The extension of an interval holds the numbers between its bounds within the domain. -/
theorem mem_extension_interval {low high : Nat} :
    n ∈ (interval low high).extension size ↔ low ≤ n ∧ n ≤ high ∧ n ≤ size := by
  rw [extension, NatSet.mem_interval, Nat.le_min]

/-- The extension of a digit holds the numbers of the domain that end in it. -/
theorem mem_extension_endsIn {digit : Nat} :
    n ∈ (endsIn digit).extension size ↔ (1 ≤ n ∧ n ≤ size) ∧ n % 10 = digit := by
  rw [extension, NatSet.mem_filterUpTo, Number.endsWith, beq_iff_eq]
  norm_cast

/-- The members of a legal terminal are the numbers of the domain that belong to it. -/
theorem mem_extension {leaf : Terminal} (legal : leaf.Legal) :
    n ∈ leaf.extension size ↔ (1 ≤ n ∧ n ≤ size) ∧ leaf.Holds n := by
  cases leaf with
  | primitive property => rw [extension, NatSet.mem_filterUpTo, Primitive.accepts_iff]
  | powerOf base =>
      have large : 2 ≤ base := legal.1
      rw [mem_extension_powerOf large]
      constructor
      · rintro ⟨upper, exponent, rfl⟩
        exact ⟨⟨Nat.pow_pos (by omega), upper⟩, exponent, rfl⟩
      · rintro ⟨⟨_, upper⟩, power⟩
        exact ⟨upper, power⟩
  | multipleOf step =>
      have large : 2 ≤ step := legal.1
      exact mem_extension_multipleOf (by omega)
  | interval low high =>
      have positive : 1 ≤ low := legal.1.1
      rw [mem_extension_interval, Holds]
      omega
  | endsIn digit => exact mem_extension_endsIn

end Terminal

/-- The members of a concept of legal terminals are the numbers of the domain that belong to it. -/
theorem Concept.mem_extension {concept : Concept} {n size : Nat}
    (legal : ∀ leaf ∈ concept.leaves, leaf.Legal) :
    n ∈ concept.extension size ↔ (1 ≤ n ∧ n ≤ size) ∧ concept.Holds n := by
  induction concept with
  | terminal leaf => exact Terminal.mem_extension (legal leaf (List.mem_singleton_self leaf))
  | combine operation left right leftHypothesis rightHypothesis =>
      have inLeft := leftHypothesis fun leaf isLeaf => legal leaf (List.mem_append_left _ isLeaf)
      have inRight := rightHypothesis fun leaf isLeaf => legal leaf (List.mem_append_right _ isLeaf)
      cases operation with
      | union =>
          rw [extension, Operation.apply, NatSet.mem_union, inLeft, inRight, Holds, and_or_left]
      | intersect =>
          rw [extension, Operation.apply, NatSet.mem_inter, inLeft, inRight, Holds,
            and_and_and_comm, and_self]

end NumberConcepts
