import Mathlib.Data.List.Basic
import NumberConcepts.Domain
/-!
# Examples of a domain

The check of examples passes exactly what it is given when there are examples
and all of them are numbers of the domain; whatever it passes are such numbers, and
a stray is a fault. Intervals between numbers of the domain are legal.
-/

namespace NumberConcepts.Domain

/-- An interval of numbers of a domain is legal. -/
theorem legal_interval {domain : Domain} {low high : Nat} (positive : 1 ≤ low)
    (ordered : low ≤ high) (upper : high ≤ domain.size) : (Terminal.interval low high).Legal := by
  have bound : domain.size ≤ largestDomain := domain.admissible.2
  refine ⟨⟨positive, ?_⟩, ⟨?_, ?_⟩, ordered⟩
  · exact Nat.le_trans (Nat.le_trans ordered upper) bound
  · exact Nat.le_trans positive ordered
  · exact Nat.le_trans upper bound

/-- A domain has the numbers from one to its size. -/
theorem mem_numbers {domain : Domain} {n : Nat} :
    n ∈ domain.numbers ↔ 1 ≤ n ∧ n ≤ domain.size := by
  rw [numbers, List.mem_map]
  constructor
  · rintro ⟨m, listed, rfl⟩
    have below := List.mem_range.1 listed
    omega
  · rintro ⟨positive, upper⟩
    exact ⟨n - 1, List.mem_range.2 (by omega), by omega⟩

theorem nodup_numbers (domain : Domain) : domain.numbers.Nodup :=
  List.Pairwise.map _ (fun _ _ => mt Nat.succ.inj) List.nodup_range

theorem length_numbers (domain : Domain) : domain.numbers.length = domain.size := by
  rw [numbers, List.length_map, List.length_range]

/-- Examples of a domain: there are some, and all of them are numbers of the domain. -/
structure HasExamples (domain : Domain) (examples : List Nat) : Prop where
  given : examples ≠ []
  inside : ∀ n ∈ examples, 1 ≤ n ∧ n ≤ domain.size

/-- A value stands for a number when it is that integer. -/
theorem member?_eq_some_iff {domain : Domain} {value : Datum} {n : Nat} :
    domain.member? value = some n ↔ value = .int n ∧ 1 ≤ n ∧ n ≤ domain.size := by
  constructor
  · intro isMember
    cases value with
    | int given =>
        rw [member?] at isMember
        split at isMember
        next inside =>
          obtain rfl := Option.some.inj isMember
          exact ⟨congrArg Datum.int (by omega), by omega, by omega⟩
        next => cases isMember
    | _ => cases isMember
  · rintro ⟨rfl, lower, upper⟩
    rw [member?, if_pos (by omega), Int.toNat_natCast]

/-- A check that passes has found no stray. -/
theorem validate_eq_ok_iff {domain : Domain} {values : List Datum} {numbers : List Nat} :
    domain.validate values = .ok numbers ↔
      (∀ value ∈ values, (domain.member? value).isSome) ∧
        values.filterMap domain.member? = numbers := by
  have noStrays : (values.filter fun value => (domain.member? value).isNone).isEmpty = true ↔
      ∀ value ∈ values, (domain.member? value).isSome := by
    rw [List.isEmpty_iff, List.filter_eq_nil_iff]
    simp only [Bool.not_eq_true, Option.isNone_eq_false_iff]
  rw [validate, ← noStrays]
  split
  next none => simp [none]
  next some => simp [some]

/-- Examples that pass the check are examples of the domain. -/
theorem hasExamples_of_validateSome {domain : Domain} {values : List Datum} {numbers : List Nat}
    (passes : domain.validateSome values = .ok numbers) : domain.HasExamples numbers := by
  rw [validateSome] at passes
  split at passes
  next => cases passes
  next some =>
    obtain ⟨areMembers, rfl⟩ := validate_eq_ok_iff.1 passes
    constructor
    · obtain ⟨value, listed⟩ := List.exists_mem_of_ne_nil values (by simpa using some)
      obtain ⟨n, isNumber⟩ := Option.isSome_iff_exists.1 (areMembers value listed)
      exact List.ne_nil_of_mem (List.mem_filterMap.2 ⟨value, listed, isNumber⟩)
    · intro n listed
      obtain ⟨value, _, isNumber⟩ := List.mem_filterMap.1 listed
      exact (member?_eq_some_iff.1 isNumber).2

/-- Natural numbers as data of unknown shape. -/
def asData (numbers : List Nat) : List Datum := numbers.map fun n : Nat => .int n

/-- Numbers of a domain pass its check. -/
theorem validate_eq_ok {domain : Domain} {numbers : List Nat}
    (inside : ∀ n ∈ numbers, 1 ≤ n ∧ n ≤ domain.size) :
    domain.validate (asData numbers) = .ok numbers := by
  have member : ∀ n ∈ numbers, domain.member? (.int n) = some n := fun n listed =>
    member?_eq_some_iff.2 ⟨rfl, inside n listed⟩
  rw [validate_eq_ok_iff, asData, List.forall_mem_map, List.filterMap_map]
  constructor
  · intro n listed
    rw [member n listed]
    rfl
  · exact (List.filterMap_congr member).trans List.filterMap_some

/-- Integers that are examples of a domain: there are some, and all of them lie in the domain. -/
def Accepts (domain : Domain) (given : List Int) : Prop :=
  given ≠ [] ∧ ∀ n ∈ given, 1 ≤ n ∧ n ≤ domain.size

instance (domain : Domain) (given : List Int) : Decidable (domain.Accepts given) :=
  inferInstanceAs (Decidable (_ ∧ _))

/-- Such integers are natural numbers. -/
theorem Accepts.exists_examples {domain : Domain} {given : List Int} (accepts : domain.Accepts given) :
    ∃ examples : List Nat, examples.map Int.ofNat = given ∧ domain.HasExamples examples := by
  obtain ⟨some, inside⟩ := accepts
  refine ⟨given.map Int.toNat, ?_, by simpa using some, List.forall_mem_map.2 ?_⟩
  · rw [List.map_map]
    refine (List.map_congr_left fun n listed => ?_).trans (List.map_id given)
    have positive := (inside n listed).1
    exact Int.toNat_of_nonneg (by omega)
  · intro n listed
    have bounds := inside n listed
    omega

/-- Examples of a domain pass its check. -/
theorem HasExamples.validateSome_eq_ok {domain : Domain} {examples : List Nat}
    (admitted : domain.HasExamples examples) :
    domain.validateSome (asData examples) = .ok examples := by
  have nonempty : (asData examples).isEmpty = false := by simp [asData, admitted.given]
  rw [validateSome, nonempty]
  exact validate_eq_ok admitted.inside

end NumberConcepts.Domain
