import Mathlib.Data.List.Basic
import NumberConcepts.Text.Integer
/-!
# Lists of integers read back

`Lists` says that a text holds integers in decimal, with runs of commas and white space
before, between and behind them. Words are found whole because each ends where a
separator stands, and a word that writes an integer is read as that integer, so
reading gives back what is listed: `readIntegers?_of_lists`. What `writeIntegers`
writes is such a text.
-/

namespace NumberConcepts.Text

/-! ### Words -/

section Words

variable {separates : Char → Bool} {c next : Char} {gap word rest : List Char}

theorem splitWords_cons_of_separates (separator : separates c = true) (rest : List Char) :
    splitWords separates (c :: rest) = splitWords separates rest := by
  rw [splitWords.eq_def]
  exact if_pos separator

/-- A character before a separator or the end of the text is a word of its own. -/
theorem splitWords_cons_of_ends (inside : separates c = false)
    (ends : ∀ c ∈ rest.head?, separates c = true) :
    splitWords separates (c :: rest) = [c] :: splitWords separates rest := by
  have notSeparator : ¬ separates c = true := by simp [inside]
  rw [splitWords.eq_def]
  dsimp only
  rw [if_neg notSeparator]
  split
  next _ words separator _ found => rw [found]; exact if_pos (ends _ rfl)
  next => rfl

/-- A character before another one that does not separate begins its word. -/
theorem splitWords_cons_of_inside (inside : separates c = false) (joined : separates next = false)
    {words : List (List Char)} (found : splitWords separates (next :: rest) = word :: words) :
    splitWords separates (c :: next :: rest) = (c :: word) :: words := by
  have notSeparator : ¬ separates c = true := by simp [inside]
  have notSeparator' : ¬ separates next = true := by simp [joined]
  rw [splitWords.eq_def]
  dsimp only
  rw [if_neg notSeparator, found]
  exact if_neg notSeparator'

/-- Separators before a text do not show in its words. -/
theorem splitWords_gap_append (isGap : ∀ c ∈ gap, separates c = true) (rest : List Char) :
    splitWords separates (gap ++ rest) = splitWords separates rest := by
  induction gap with
  | nil => rfl
  | cons c others inductionHypothesis =>
      obtain ⟨now, later⟩ := List.forall_mem_cons.1 isGap
      rw [List.cons_append, splitWords_cons_of_separates now, inductionHypothesis later]

/-- A word that a separator or the end of the text follows is found whole. -/
theorem splitWords_word_append (given : word ≠ []) (isWord : ∀ c ∈ word, separates c = false)
    (ends : ∀ c ∈ rest.head?, separates c = true) :
    splitWords separates (word ++ rest) = word :: splitWords separates rest := by
  induction word with
  | nil => exact absurd rfl given
  | cons c others inductionHypothesis =>
      obtain ⟨now, later⟩ := List.forall_mem_cons.1 isWord
      cases others with
      | nil => exact splitWords_cons_of_ends now ends
      | cons next behind =>
          exact splitWords_cons_of_inside now (later next List.mem_cons_self)
            (inductionHypothesis (List.cons_ne_nil _ _) later)

end Words

/-! ### Numerals -/

/-- The word is a numeral of the number in decimal, perhaps with zeros in front, and no longer than
may be read. -/
structure IsNumeral (word : List Char) (n : Nat) : Prop where
  given : word ≠ []
  digits : ∀ c ∈ word, c.isDigit = true
  few : word.length ≤ maxDigits
  value : Nat.ofDigitChars 10 word 0 = n

/-- The word is a numeral of the integer, with a sign where it is negative and perhaps with one
where it is not. -/
inductive Writes : List Char → Int → Prop where
  | unsigned {word : List Char} {n : Nat} : IsNumeral word n → Writes word n
  | plus {word : List Char} {n : Nat} : IsNumeral word n → Writes ('+' :: word) n
  | minus {word : List Char} {n : Nat} : IsNumeral word n → Writes ('-' :: word) (-n)

/-- Digits are the first script of the digits that are read. -/
theorem digitValue?_of_isDigit {c : Char} (isDigit : c.isDigit = true) :
    digitValue? c = some (c.toNat - '0'.toNat) := by
  obtain ⟨least, greatest⟩ := Char.isDigit_iff_toNat.1 isDigit
  have inRange : (decide (0x30 ≤ c.toNat) && decide (c.toNat < 0x30 + 10)) = true := by
    rw [Bool.and_eq_true, decide_eq_true_iff, decide_eq_true_iff]
    exact ⟨least, Nat.lt_succ_of_le greatest⟩
  have first : digitZeros.find? (fun start => start ≤ c.toNat && c.toNat < start + 10) =
      some 0x30 :=
    List.find?_cons_of_pos inRange
  rw [digitValue?, first]
  rfl

/-- No digit and no sign separates integers. -/
theorem separatesIntegers_eq_false {c : Char} (inside : c.isDigit = true ∨ c = '+' ∨ c = '-') :
    separatesIntegers c = false := by
  have bounds : 0x2b ≤ c.toNat ∧ c.toNat ≤ 0x39 ∧ c.toNat ≠ 0x2c := by
    rcases inside with isDigit | rfl | rfl
    · obtain ⟨least, greatest⟩ := Char.isDigit_iff_toNat.1 isDigit
      have lower : 0x30 ≤ c.toNat := least
      have upper : c.toNat ≤ 0x39 := greatest
      omega
    · decide
    · decide
  have noComma : c ≠ ',' := by
    rintro rfl
    exact absurd rfl bounds.2.2
  have noWhite : isWhite c = false := by
    simp [isWhite, inRanges, whitespaceRanges]
    omega
  have noSpace : isSpace c = false := by
    simp [isSpace, noWhite]
    omega
  simp [separatesIntegers, noComma, noSpace]

variable {word : List Char} {n : Nat}

theorem readDigits?_of_digits (digits : ∀ c ∈ word, c.isDigit = true) :
    readDigits? word = some (word.map fun c => c.toNat - '0'.toNat) := by
  induction word with
  | nil => rfl
  | cons c rest inductionHypothesis =>
      obtain ⟨now, later⟩ := List.forall_mem_cons.1 digits
      have noUnderscore : c ≠ '_' := by
        rintro rfl
        cases now
      rw [readDigits?]
      · rw [digitValue?_of_isDigit now, inductionHypothesis later]
        rfl
      · rintro _ _ rfl
        exact absurd rfl noUnderscore

/-- A numeral is read as its number. -/
theorem readNatural?_of_isNumeral (numeral : IsNumeral word n) : readNatural? word = some n := by
  cases word with
  | nil => exact absurd rfl numeral.given
  | cons c rest =>
      obtain ⟨now, later⟩ := List.forall_mem_cons.1 numeral.digits
      have value : ofDigits ((c :: rest).map fun c => c.toNat - '0'.toNat) = n := by
        rw [← numeral.value, ofDigits, List.foldl_map, Nat.ofDigitChars_eq_foldl]
      have few : ((c :: rest).map fun c => c.toNat - '0'.toNat).length ≤ maxDigits := by
        rw [List.length_map]
        exact numeral.few
      rw [List.map_cons] at value few
      simp only [readNatural?, digitValue?_of_isDigit now, readDigits?_of_digits later, bind,
        Option.bind, if_pos few, value]

/-- A written integer is read. -/
theorem readInteger?_of_writes {x : Int} (writes : Writes word x) : readInteger? word = some x := by
  cases writes with
  | unsigned numeral =>
      cases word with
      | nil => exact absurd rfl numeral.given
      | cons c rest =>
          have isDigit := numeral.digits c List.mem_cons_self
          rw [readInteger?, readNatural?_of_isNumeral numeral]
          · rfl
          -- A digit is no sign.
          all_goals
            intro _ same
            obtain ⟨rfl, _⟩ := List.cons.inj same
            cases isDigit
  | plus numeral =>
      rw [readInteger?, readNatural?_of_isNumeral numeral]
      rfl
  | minus numeral =>
      rw [readInteger?, readNatural?_of_isNumeral numeral]
      rfl

/-- The number has no more digits than may be read. -/
def FewDigits (n : Nat) : Prop := (Nat.toDigits 10 n).length ≤ maxDigits

/-- An integer with few digits is written as a numeral with its sign. -/
theorem writes_toString {x : Int} (few : FewDigits x.natAbs) : Writes (toString x).toList x := by
  have numeral : ∀ {n : Nat}, FewDigits n → IsNumeral n.repr.toList n := fun {n} few => by
    rw [Nat.toList_repr]
    exact ⟨Nat.toDigits_ne_nil,
      fun c inside => Nat.isDigit_of_mem_toDigits (by decide) (by decide) inside, few,
      Nat.ofDigitChars_ten_toDigits⟩
  rw [Int.toString_eq_repr, Int.repr_eq_if]
  split
  next positive =>
    obtain ⟨n, rfl⟩ := Int.eq_ofNat_of_zero_le positive
    exact .unsigned (numeral few)
  next negative =>
    obtain ⟨n, same⟩ := Int.eq_ofNat_of_zero_le (a := -x) (by omega)
    obtain rfl : x = -(n : Int) := by omega
    rw [Int.natAbs_neg] at few
    rw [String.toList_append, Int.neg_neg]
    exact .minus (numeral few)

/-! ### Lists -/

/-- The text holds the integers in order. Before each, between two of them and behind the last stand
separators, at least one where an integer follows another. -/
inductive Lists : List Char → List Int → Prop where
  | none {gap : List Char} : (∀ c ∈ gap, separatesIntegers c = true) → Lists gap []
  | next {gap word rest : List Char} {x : Int} {xs : List Int} :
      (∀ c ∈ gap, separatesIntegers c = true) → Writes word x →
      (∀ c ∈ rest.head?, separatesIntegers c = true) → Lists rest xs →
      Lists (gap ++ (word ++ rest)) (x :: xs)

/-- A written integer has characters, and none of them is a separator. -/
theorem Writes.isWord {x : Int} (writes : Writes word x) :
    word ≠ [] ∧ ∀ c ∈ word, separatesIntegers c = false := by
  have digits : ∀ {word n}, IsNumeral word n → ∀ c ∈ word, separatesIntegers c = false :=
    fun numeral c inside => separatesIntegers_eq_false (.inl (numeral.digits c inside))
  cases writes with
  | unsigned numeral => exact ⟨numeral.given, digits numeral⟩
  | plus numeral =>
      exact ⟨List.cons_ne_nil _ _,
        List.forall_mem_cons.2 ⟨separatesIntegers_eq_false (.inr (.inl rfl)), digits numeral⟩⟩
  | minus numeral =>
      exact ⟨List.cons_ne_nil _ _,
        List.forall_mem_cons.2 ⟨separatesIntegers_eq_false (.inr (.inr rfl)), digits numeral⟩⟩

/-- What a text lists is read from it, in order and with all repetitions. -/
theorem readIntegers?_of_lists {text : String} {xs : List Int} (lists : Lists text.toList xs) :
    readIntegers? text = some xs := by
  rw [readIntegers?]
  generalize text.toList = chars at lists
  induction lists with
  | @none gap isGap =>
      rw [← List.append_nil gap, splitWords_gap_append isGap]
      rfl
  | next isGap writes ends _ inductionHypothesis =>
      obtain ⟨given, isWord⟩ := writes.isWord
      rw [splitWords_gap_append isGap, splitWords_word_append given isWord ends, List.mapM_cons,
        readInteger?_of_writes writes, inductionHypothesis]
      rfl

/-- A further separator before a text does not change what it lists. -/
theorem Lists.cons_separator {c : Char} {text : List Char} {xs : List Int}
    (separator : separatesIntegers c = true) (lists : Lists text xs) : Lists (c :: text) xs := by
  cases lists with
  | none isGap => exact .none (List.forall_mem_cons.2 ⟨separator, isGap⟩)
  | next isGap writes ends rest =>
      exact .next (List.forall_mem_cons.2 ⟨separator, isGap⟩) writes ends rest

/-- A written integer may begin a text. -/
theorem Writes.lists {rest : List Char} {x : Int} {xs : List Int} (writes : Writes word x)
    (ends : ∀ c ∈ rest.head?, separatesIntegers c = true) (lists : Lists rest xs) :
    Lists (word ++ rest) (x :: xs) :=
  .next (List.forall_mem_nil _) writes ends lists

/-- Integers with few digits are listed by the text that is written for them. -/
theorem lists_writeIntegers (xs : List Int) (few : ∀ x ∈ xs, FewDigits x.natAbs) :
    Lists (writeIntegers xs).toList xs := by
  rw [writeIntegers, String.toList_intercalate, List.map_map]
  induction xs with
  | nil => exact .none (List.forall_mem_nil _)
  | cons x others inductionHypothesis =>
      obtain ⟨now, later⟩ := List.forall_mem_cons.1 few
      have written := writes_toString now
      cases others with
      | nil =>
          rw [List.map_singleton, List.intercalate_singleton, Function.comp_apply,
            ← List.append_nil (toString x).toList]
          exact written.lists (fun _ absent => nomatch absent) (.none (List.forall_mem_nil _))
      | cons next behind =>
          have comma : separatesIntegers ',' = true := rfl
          rw [List.map_cons, List.map_cons, List.intercalate_cons_cons, ← List.map_cons,
            Function.comp_apply, List.append_assoc]
          refine written.lists (fun c first => ?_)
            ((inductionHypothesis later).cons_separator comma)
          exact Option.some.inj first ▸ comma

end NumberConcepts.Text
