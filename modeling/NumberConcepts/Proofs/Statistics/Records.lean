import Mathlib.Algebra.Order.Field.Rat
import NumberConcepts.Proofs.Sequence
import NumberConcepts.Proofs.Statistics.Groups
import NumberConcepts.Statistics.Records
/-!
# Records grouped by a number

Keys that are numbers are compared as the numbers they are, whatever their kind, so the
summaries of records are rows of what the records say: `summarizeRead_eq_ok`.
-/

namespace NumberConcepts.Statistics

open Exact

/-! ### Keys -/

/-- The number that a truth value, an integer or a finite float is; zero for everything else. -/
def number (value : Datum) : ℚ :=
  match ratio? value with
  | some (numerator, denominator) => numerator / denominator
  | none => 0

/-- The value is a number. -/
def IsNumber (value : Datum) : Prop := (ratio? value).isSome = true

theorem denominator_pos {value : Datum} {numerator : Int} {denominator : Nat}
    (isRatio : ratio? value = some (numerator, denominator)) : 0 < denominator := by
  unfold ratio? at isRatio
  split at isRatio
  next => cases isRatio; exact Nat.one_pos
  next => cases isRatio; exact Nat.one_pos
  next =>
    split at isRatio
    next => cases isRatio; exact Nat.pow_pos Nat.two_pos
    next => cases isRatio
  next => cases isRatio

theorem ratioLess_eq {a b : Int} {c d : Nat} (positive : 0 < c) (positive' : 0 < d) :
    ratioLess (a, c) (b, d) = decide ((a : ℚ) / c < b / d) := by
  have positive : (0 : ℚ) < c := Nat.cast_pos.2 positive
  have positive' : (0 : ℚ) < d := Nat.cast_pos.2 positive'
  rw [ratioLess, decide_eq_decide, div_lt_div_iff₀ positive positive']
  exact_mod_cast Iff.rfl

/-- Keys that are numbers are compared as numbers. -/
theorem compared_numbers : ComparedBy IsNumber number sameKey keyPrecedes := by
  constructor
  all_goals
    intro a b isNumber isNumber'
    obtain ⟨⟨numerator, denominator⟩, isRatio⟩ := Option.isSome_iff_exists.1 isNumber
    obtain ⟨⟨numerator', denominator'⟩, isRatio'⟩ := Option.isSome_iff_exists.1 isNumber'
    have positive := denominator_pos isRatio
    have positive' := denominator_pos isRatio'
    rw [number, number, isRatio, isRatio']
  · unfold sameKey
    split
    next => cases isRatio
    next => cases isRatio
    next =>
      simp only [isRatio, isRatio', ratioLess_eq positive positive',
        ratioLess_eq positive' positive]
      rw [Bool.eq_iff_iff]
      simp only [Bool.and_eq_true, Bool.not_eq_true', decide_eq_false_iff_not, not_lt,
        decide_eq_true_iff]
      exact and_comm.trans le_antisymm_iff.symm
  · unfold keyPrecedes
    split
    next => cases isRatio
    next =>
      simp only [isRatio, isRatio', ratioLess_eq positive' positive]
      rw [Bool.eq_iff_iff]
      simp

/-! ### Entries -/

/-- The scalar that a float is. -/
noncomputable def exactFloat (value : Float) : Exact :=
  if (ratio? (.float value)).isSome then real (number (.float value))
  else if value.isNaN then .undefined
  else if value < 0.0 then .negInf
  else .posInf

/-- A value without rounding. -/
noncomputable def readExact : Datum → Except Fault Exact
  | .bool value => .ok (real (number (.bool value)))
  | .int value => .ok (real (number (.int value)))
  | value => (toFloat value).map exactFloat

/-- A record has a number under one name and a value under another. -/
structure Carries (keyName valueName : String) (record : Datum) : Prop where
  key : ∃ key, record.field? keyName = some key ∧ IsNumber key
  value : ∃ value x, record.field? valueName = some value ∧ readExact value = .ok x

/-- The key of a record. -/
def keyOf (keyName : String) (record : Datum) : Datum := (record.field? keyName).getD .null

/-- The value of a record without rounding. -/
noncomputable def valueOf (valueName : String) (record : Datum) : Exact :=
  match readExact ((record.field? valueName).getD .null) with
  | .ok value => value
  | .error _ => .undefined

/-- What a record says: the number that is its key, and its value. -/
noncomputable def saying (keyName valueName : String) (record : Datum) : ℚ × Exact :=
  (number (keyOf keyName record), valueOf valueName record)

variable {keyName valueName : String} {record : Datum} {records : List Datum}

theorem IsNumber.checkKey_eq {key : Datum} (isNumber : IsNumber key) : checkKey key = .ok key := by
  cases key with
  | list | record => cases isNumber
  | null | bool | int | float | text => rfl

theorem Carries.isNumber (carries : Carries keyName valueName record) :
    IsNumber (keyOf keyName record) := by
  obtain ⟨key, found, isNumber⟩ := carries.key
  rwa [keyOf, found]

theorem Carries.entryOf_eq (carries : Carries keyName valueName record) :
    entryOf readExact keyName valueName record =
      .ok (keyOf keyName record, valueOf valueName record) := by
  obtain ⟨key, found, isNumber⟩ := carries.key
  obtain ⟨value, x, found', read⟩ := carries.value
  simp only [entryOf, requiredField, keyOf, valueOf, found, found', bind, Except.bind,
    isNumber.checkKey_eq, read, Option.getD_some]
  rfl

theorem ordered_of_numbers {keys : List Datum} (areNumbers : ∀ key ∈ keys, IsNumber key) :
    ordered keys = true := by
  rw [ordered, List.all_eq_true.2 areNumbers, Bool.or_true, Bool.true_or]

/-- Records with numbers for keys are summarized in rows, each under the key of a record. -/
theorem summarizeRead_eq_ok (carry : ∀ record ∈ records, Carries keyName valueName record) :
    ∃ summaries, summarizeRead readExact keyName valueName records = .ok summaries ∧
      summaries.map (.ranked number) = rows (records.map (saying keyName valueName)) ∧
      ∀ summary ∈ summaries, summary.key ∈ records.map (keyOf keyName) := by
  let entries := records.map fun record => (keyOf keyName record, valueOf valueName record)
  have read : records.mapM (entryOf readExact keyName valueName) = .ok entries :=
    Sequence.mapM_ok fun record listed => (carry record listed).entryOf_eq
  let known := fun key => IsNumber key ∧ key ∈ records.map (keyOf keyName)
  have compared : ComparedBy known number sameKey keyPrecedes :=
    ⟨fun first second => compared_numbers.same first.1 second.1,
      fun first second => compared_numbers.precedes first.1 second.1⟩
  have areKnown : ∀ entry ∈ entries, known entry.1 := List.forall_mem_map.2 fun record listed =>
    ⟨(carry record listed).isNumber, List.mem_map_of_mem listed⟩
  obtain ⟨keys, represents, found⟩ := exists_groups_eq compared areKnown
  have inOrder : ordered ((groups sameKey entries).map Prod.fst) = true := by
    rw [found, List.map_map]
    exact ordered_of_numbers
      (List.forall_mem_map.2 fun key inKeys => (represents.known key inKeys).1)
  refine ⟨summarize sameKey keyPrecedes entries, ?_, ?_, fun summary listed => ?_⟩
  · simp only [summarizeRead, read, bind, Except.bind, inOrder, if_true]
    rfl
  · rw [summarize_eq_rows compared areKnown, List.map_map]
    rfl
  · exact (known_of_mem_summarize compared areKnown summary listed).2

/-- Summaries under integers that are the same as numbers are the same. -/
theorem eq_of_map_ranked_eq {first second : List (GroupSummary Datum Exact)}
    (same : first.map (GroupSummary.ranked number) = second.map (GroupSummary.ranked number))
    (integers : ∀ summary ∈ first ++ second, ∃ n, summary.key = .int n) : first = second := by
  let back := fun summary : GroupSummary ℚ Exact => summary.ranked fun key => Datum.int key.num
  have restored : ∀ summaries : List (GroupSummary Datum Exact),
      (∀ summary ∈ summaries, ∃ n, summary.key = .int n) →
      (summaries.map (GroupSummary.ranked number)).map back = summaries := by
    intro summaries areIntegers
    rw [List.map_map]
    conv_rhs => rw [← List.map_id summaries]
    refine List.map_congr_left fun summary listed => ?_
    obtain ⟨n, isInteger⟩ := areIntegers summary listed
    obtain ⟨key, _, _, _, _⟩ := summary
    obtain rfl : key = .int n := isInteger
    simp [back, GroupSummary.ranked, number, ratio?]
  obtain ⟨integers, integers'⟩ := List.forall_mem_append.1 integers
  rw [← restored first integers, same, restored second integers']

end NumberConcepts.Statistics
