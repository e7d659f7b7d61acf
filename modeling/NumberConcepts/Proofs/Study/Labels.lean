import NumberConcepts.Domain
import NumberConcepts.Proofs.Text.Integer
import NumberConcepts.Study.SurveyReport
import NumberConcepts.Study.SweepReport
/-!
# Labels of recorded examples

Sweeps and surveys record their examples as one text. Reading examples undoes this, and more
generally reads whatever a text lists.
-/

namespace NumberConcepts

/-- Examples are read from any text that lists them. -/
theorem readExamples_of_lists {text : String} {xs : List Int} (lists : Text.Lists text.toList xs) :
    readExamples text = .ok xs := by
  rw [readExamples, Text.readIntegers?_of_lists lists]

/-- The fields of a record hold a text from which the examples can be read. -/
def Fields.Label (fields : Fields) (examples : List Nat) : Prop :=
  ∃ label, fields.lookup "examples" = some (.text label) ∧
    readExamples label = .ok (examples.map Int.ofNat)

/-- The written form of examples with few digits, recorded as a text, is a label of them. -/
theorem Fields.label_of_lookup {fields : Fields} {examples : List Nat}
    (recorded : fields.lookup "examples" =
      some (.text (Text.writeIntegers (examples.map Int.ofNat))))
    (few : ∀ n ∈ examples, Text.FewDigits n) : fields.Label examples := by
  refine ⟨_, recorded, readExamples_of_lists (Text.lists_writeIntegers _ ?_)⟩
  exact List.forall_mem_map.2 few

/-- Integers are read back from every text that lists them, in particular from what is written for
them and from the labels that sweeps and surveys record. -/
theorem readExamples_undoes_listing :
    (∀ (text : String) (xs : List Int), Text.Lists text.toList xs → readExamples text = .ok xs) ∧
    (∀ xs : List Int, (∀ x ∈ xs, Text.FewDigits x.natAbs) →
      readExamples (Text.writeIntegers xs) = .ok xs) ∧
    (∀ trial : SweepTrial Float, (∀ n ∈ trial.examples, Text.FewDigits n) →
      Fields.Label trial.fields trial.examples) ∧
    ∀ (size : Nat) (entry : SurveyEntry Float size),
      (∀ n ∈ entry.trajectory.examples, Text.FewDigits n) →
      Fields.Label entry.fields entry.trajectory.examples := by
  refine ⟨fun text xs => readExamples_of_lists, fun xs few => ?_, fun trial few => ?_,
    fun size entry few => ?_⟩
  · exact readExamples_of_lists (Text.lists_writeIntegers xs few)
  · exact Fields.label_of_lookup rfl few
  · exact Fields.label_of_lookup rfl few

/-- A text with several kinds of separators, what is written for some integers, and the label of a
trial. -/
theorem readExamples_undoes_listing_of_sixteens :
    readExamples " ,\t-5,, +16\u3000016," = .ok [-5, 16, 16] ∧
    readExamples (Text.writeIntegers [16, -8, 0, 16]) = .ok [16, -8, 0, 16] ∧
    Fields.Label (SweepTrial.fields ⟨⟨"even", 50, [16, 8], 2, none⟩, 0⟩) [16, 8] := by
  obtain ⟨listed, written, labelled, _⟩ := readExamples_undoes_listing
  refine ⟨listed _ _ ?_, written _ ?_, labelled _ ?_⟩
  · have separates : ∀ c ∈ [' ', ',', '\t', '\u3000'], Text.separatesIntegers c = true :=
      List.all_eq_true.1 (by decide +kernel)
    have five : Text.IsNumeral ['5'] 5 := ⟨by decide, List.all_eq_true.1 rfl, by decide, rfl⟩
    have sixteen : Text.IsNumeral ['1', '6'] 16 :=
      ⟨by decide, List.all_eq_true.1 rfl, by decide, rfl⟩
    have sixteen' : Text.IsNumeral ['0', '1', '6'] 16 :=
      ⟨by decide, List.all_eq_true.1 rfl, by decide, rfl⟩
    have chars : " ,\t-5,, +16\u3000016,".toList =
        [' ', ',', '\t'] ++ (['-', '5'] ++ ([',', ',', ' '] ++ (['+', '1', '6'] ++
          (['\u3000'] ++ (['0', '1', '6'] ++ [',']))))) := by
      decide
    rw [chars]
    refine .next (by simp [separates]) (.minus five) (by simp [separates]) ?_
    refine .next (by simp [separates]) (.plus sixteen) (by simp [separates]) ?_
    refine .next (by simp [separates]) (.unsigned sixteen') (by simp [separates]) ?_
    exact .none (by simp [separates])
  · simp only [List.forall_mem_cons, Text.FewDigits]
    decide
  · simp only [List.forall_mem_cons, Text.FewDigits]
    decide

end NumberConcepts
