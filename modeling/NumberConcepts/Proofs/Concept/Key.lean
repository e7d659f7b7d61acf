import Std.Data.String.ToNat
import NumberConcepts.Concept.Tree
/-!
# Unique readability of written forms

No written form continues another one: where two concepts are written with
anything behind them and the texts agree, the concepts agree and so does what
stands behind. `Concept.key_injective` is the case with nothing behind.
-/

namespace NumberConcepts

/-- Digits end where the first other character stands, so a number followed by one is read back. -/
private theorem digits_append_inj {m n : Nat} {stop : Char} {s t : List Char}
    (noDigit : stop.isDigit = false)
    (same : Nat.toDigits 10 m ++ stop :: s = Nat.toDigits 10 n ++ stop :: t) : m = n ∧ s = t := by
  have front : ∀ (k : Nat) (rest : List Char),
      (Nat.toDigits 10 k ++ stop :: rest).takeWhile Char.isDigit = Nat.toDigits 10 k := by
    intro k rest
    have allDigits : ∀ c ∈ Nat.toDigits 10 k, c.isDigit = true :=
      fun c member => Nat.isDigit_of_mem_toDigits (by decide) (by decide) member
    rw [List.takeWhile_append_of_pos allDigits, List.takeWhile_cons_of_neg (by simp [noDigit]),
      List.append_nil]
  have digits : Nat.toDigits 10 m = Nat.toDigits 10 n := by
    rw [← front m s, same, front n t]
  have tails : stop :: s = stop :: t := List.append_cancel_left (digits ▸ same)
  refine ⟨?_, (List.cons.inj tails).2⟩
  apply Nat.repr_injective
  rw [Nat.repr_eq_ofList_toDigits, digits, ← Nat.repr_eq_ofList_toDigits]

/-- A number in parentheses behind a word is read back. -/
private theorem word_number_append_inj {word : String} {m n : Nat} {s t : List Char}
    (same : (word ++ toString m ++ ")").toList ++ s = (word ++ toString n ++ ")").toList ++ t) :
    m = n ∧ s = t := by
  simp only [String.toList_append, List.append_assoc, List.append_cancel_left_eq,
    Nat.toString_eq_repr, Nat.toList_repr] at same
  exact digits_append_inj (by decide) same

/-- No written form of a terminal continues another. -/
theorem Terminal.key_append_inj {a b : Terminal} {s t : List Char}
    (same : a.key.toList ++ s = b.key.toList ++ t) : a = b ∧ s = t := by
  cases a <;> cases b
  case primitive.primitive first second =>
    cases first <;> cases second <;> simp_all [key, Primitive.name]
  case powerOf.powerOf first second =>
    obtain ⟨rfl, behind⟩ := word_number_append_inj same
    exact ⟨rfl, behind⟩
  case multipleOf.multipleOf first second =>
    obtain ⟨rfl, behind⟩ := word_number_append_inj same
    exact ⟨rfl, behind⟩
  case endsIn.endsIn first second =>
    obtain ⟨rfl, behind⟩ := word_number_append_inj same
    exact ⟨rfl, behind⟩
  case interval.interval low high low' high' =>
    simp only [key, String.toList_append, List.append_assoc, List.append_cancel_left_eq,
      Nat.toString_eq_repr, Nat.toList_repr] at same
    obtain ⟨rfl, upper⟩ := digits_append_inj (by decide) same
    obtain ⟨rfl, behind⟩ := digits_append_inj (by decide) upper
    exact ⟨rfl, behind⟩
  -- Terminals of two kinds are told apart within their first letters.
  case primitive.powerOf property _ | primitive.multipleOf property _ | primitive.endsIn property _
      | powerOf.primitive _ property | multipleOf.primitive _ property
      | endsIn.primitive _ property =>
    cases property <;> simp [key, Primitive.name] at same
  case primitive.interval property _ _ | interval.primitive _ _ property =>
    cases property <;> simp [key, Primitive.name] at same
  all_goals simp [key] at same

/-- No written form of a combination continues that of a terminal, nor the other way round. -/
private theorem combination_append_ne {operation : Operation} {leaf : Terminal}
    {s t : List Char} : operation.name.toList ++ '(' :: s ≠ leaf.key.toList ++ t := by
  intro same
  cases leaf with
  | primitive property =>
      cases operation <;> cases property <;>
        simp [Operation.name, Terminal.key, Primitive.name] at same
  | _ => cases operation <;> simp [Operation.name, Terminal.key] at same

namespace Concept

/-- The written form of a combination, character by character. -/
private theorem toList_key_combine (operation : Operation) (left right : Concept) :
    (combine operation left right).key.toList = operation.name.toList ++
      '(' :: (left.key.toList ++ ',' :: ' ' :: (right.key.toList ++ [')'])) := by
  simp [key]

/-- No written form of a concept continues another. -/
theorem key_append_inj {a b : Concept} {s t : List Char}
    (same : a.key.toList ++ s = b.key.toList ++ t) : a = b ∧ s = t := by
  induction a generalizing b s t with
  | terminal leaf =>
      cases b with
      | terminal leaf' =>
          obtain ⟨rfl, behind⟩ := Terminal.key_append_inj same
          exact ⟨rfl, behind⟩
      | combine operation left right =>
          rw [toList_key_combine, List.append_assoc, List.cons_append] at same
          exact absurd same.symm combination_append_ne
  | combine operation left right leftHypothesis rightHypothesis =>
      cases b with
      | terminal leaf =>
          rw [toList_key_combine, List.append_assoc, List.cons_append] at same
          exact absurd same combination_append_ne
      | combine operation' left' right' =>
          simp only [toList_key_combine, List.append_assoc, List.cons_append] at same
          have operations : operation = operation' := by
            cases operation <;> cases operation' <;> simp [Operation.name] at same ⊢
          subst operations
          obtain ⟨rfl, afterLeft⟩ := leftHypothesis (List.cons.inj (List.append_cancel_left same)).2
          obtain ⟨rfl, afterRight⟩ := rightHypothesis (List.cons.inj (List.cons.inj afterLeft).2).2
          exact ⟨rfl, (List.cons.inj afterRight).2⟩

/-- Concepts with the same written form are the same. -/
theorem key_injective {a b : Concept} (same : a.key = b.key) : a = b :=
  (key_append_inj (s := []) (t := []) (by rw [same])).1

/-- Of two concepts one is written before the other. -/
theorem key_lt_or_gt {a b : Concept} (different : a ≠ b) : a.key < b.key ∨ b.key < a.key := by
  by_cases before : a.key < b.key
  · exact .inl before
  · refine .inr (Decidable.byContradiction fun notAfter => different ?_)
    exact key_injective (String.le_antisymm (String.not_lt.1 notAfter) (String.not_lt.1 before))

end Concept

end NumberConcepts
