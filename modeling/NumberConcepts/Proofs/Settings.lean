import NumberConcepts.Proofs.Search.Pool
import NumberConcepts.Settings.Reading
/-!
# What the checks of settings guarantee

Settings are `Valid` when all of their bounds hold. The standard ones are, and so is
whatever is read from a document: a check that passes is followed back to the checks of its
parts. The grammar of valid settings has only parameters in their ranges, and some
base and some step among them.
-/

namespace NumberConcepts

/-- A grammar to draw terminals from: its parameters lie in their ranges, and there is a base and a
step. -/
structure Grammar.Drawable (grammar : Grammar) : Prop where
  inRange : grammar.InRange
  bases : grammar.powerBases ≠ []
  steps : grammar.multiples ≠ []

/-! ### Checks that pass -/

namespace Checked

variable {β γ : Type}

@[simp] theorem map_eq_valid {f : β → γ} {checked : Checked β} {result : γ} :
    checked.map f = .valid result ↔ ∃ value, checked = .valid value ∧ f value = result := by
  cases checked <;> simp [map]

@[simp] theorem functor_map_eq_valid {f : β → γ} {checked : Checked β} {result : γ} :
    f <$> checked = .valid result ↔ ∃ value, checked = .valid value ∧ f value = result :=
  map_eq_valid

@[simp] theorem seq_eq_valid {functions : Checked (β → γ)} {values : Checked β} {result : γ} :
    functions <*> values = .valid result ↔
      ∃ f value, functions = .valid f ∧ values = .valid value ∧ f value = result := by
  change (both functions values).map _ = _ ↔ _
  cases functions <;> cases values <;> simp [both, map]

@[simp] theorem andThen_eq_valid {checked : Checked β} {next : β → Checked γ} {result : γ} :
    checked.andThen next = .valid result ↔
      ∃ value, checked = .valid value ∧ next value = .valid result := by
  cases checked <;> simp [andThen]

@[simp] theorem inside_eq_valid {name : String} {checked : Checked β} {value : β} :
    checked.inside name = .valid value ↔ checked = .valid value := by
  cases checked <;> simp [inside]

end Checked

namespace Lax

/-- A number that passes lies within its bounds. -/
theorem bounds_of_bounded {least : Nat} {greatest : Option Int} {value : Datum} {n : Nat}
    (passes : bounded least greatest value = .valid n) :
    least ≤ n ∧ ∀ bound ∈ greatest, (n : Int) ≤ bound := by
  obtain ⟨given, _, checks⟩ := Checked.andThen_eq_valid.1 passes
  split at checks
  next => cases checks
  next notAbove =>
    split at checks
    next => cases checks
    next notBelow =>
      cases checks
      refine ⟨by omega, fun bound isBound => ?_⟩
      rw [isBound] at notAbove
      have within : ¬ bound < given := by simpa using notAbove
      omega

/-- A field holds its default or what its reader passes, so it has a property that both have. -/
theorem field_satisfies {β : Type} (property : β → Prop) {fields : List (String × Datum)}
    {name : String} {read : Datum → Checked β} {default result : β}
    (passes : field fields name read default = .valid result) (holds : property default)
    (reads : ∀ value result, read value = .valid result → property result) : property result := by
  rw [field] at passes
  cases given : fields.lookup name with
  | none =>
      rw [given] at passes
      cases passes
      exact holds
  | some value =>
      rw [given] at passes
      exact reads value result (Checked.inside_eq_valid.1 passes)

end Lax

/-! ### Valid settings -/

/-- The bounds of a pair lie in the range of a parameter, in order. -/
def Parameter.Spans (parameter : Parameter) (bounds : Int × Int) : Prop :=
  parameter.least ≤ bounds.1 ∧ bounds.1 ≤ bounds.2 ∧ bounds.2 ≤ parameter.greatest

instance (parameter : Parameter) (bounds : Int × Int) : Decidable (parameter.Spans bounds) :=
  inferInstanceAs (Decidable (_ ∧ _))

/-- The bounds of settings for a grammar hold. -/
structure GrammarSettings.Valid (settings : GrammarSettings) : Prop where
  powerBases : Parameter.powerBase.Spans settings.powerBases
  multiples : Parameter.multipleStep.Spans settings.multiples
  maxDepth : settings.maxDepth ≤ Concept.maxDepth

/-- The bounds of settings for a study hold. -/
structure StudySettings.Valid (settings : StudySettings) : Prop where
  repeats : 1 ≤ settings.repeats
  samples : 1 ≤ settings.samples
  topCount : 1 ≤ settings.topCount

/-- All bounds of settings hold. -/
structure Settings.Valid {α : Type} (settings : Settings α) : Prop where
  grammar : settings.grammar.Valid
  depth : settings.search.maxDepth ≤ settings.grammar.maxDepth
  results : 1 ≤ settings.search.maxResults
  study : settings.study.Valid

namespace Settings

theorem valid_defaultGrammar : defaultGrammar.Valid where
  powerBases := by decide
  multiples := by decide
  maxDepth := by decide

theorem valid_defaultStudy : defaultStudy.Valid where
  repeats := by decide
  samples := by decide
  topCount := by decide

/-- The standard settings are valid. -/
theorem valid_standard {α : Type} [Scalar α] : (standard : Settings α).Valid where
  grammar := valid_defaultGrammar
  depth := (by decide : defaultSearch.maxDepth ≤ defaultGrammar.maxDepth)
  results := (by decide : 1 ≤ defaultSearch.maxResults)
  study := valid_defaultStudy

theorem spans_of_withinRange {name : String} {parameter : Parameter} {bounds : Int × Int}
    (passes : withinRange name parameter bounds = .valid ()) : parameter.Spans bounds := by
  rw [withinRange] at passes
  split at passes
  next within => exact within
  next => cases passes

/-- A depth that passes is one that concepts can have. -/
theorem depth_of_bounded {value : Datum} {depth : Nat}
    (passes : Lax.bounded 0 (some 3) value = .valid depth) : depth ≤ Concept.maxDepth := by
  have upper := (Lax.bounds_of_bounded passes).2 3 rfl
  rw [Concept.maxDepth]
  omega

/-- A count that passes is positive. -/
theorem positive_of_bounded {value : Datum} {count : Nat}
    (passes : Lax.bounded 1 none value = .valid count) : 1 ≤ count := by
  exact_mod_cast (Lax.bounds_of_bounded passes).1

/-- What is read for a grammar is valid. -/
theorem valid_of_readGrammar {value : Datum} {settings : GrammarSettings}
    (passes : readGrammar value = .valid settings) : settings.Valid := by
  simp only [readGrammar, Checked.andThen_eq_valid, Checked.seq_eq_valid, Checked.map_eq_valid,
    Checked.functor_map_eq_valid] at passes
  -- The record is filled field by field; only the spans are checked again at the end.
  obtain ⟨_, _, _, ⟨_, _, ⟨_, _, ⟨_, _, ⟨_, _, rfl⟩, _, rfl⟩, isDepth, rfl⟩, _, rfl⟩, _, powerBases, _,
    multiples, rfl⟩ := passes
  exact ⟨spans_of_withinRange powerBases, spans_of_withinRange multiples,
    Lax.field_satisfies (· ≤ Concept.maxDepth) isDepth valid_defaultGrammar.maxDepth
      fun _ _ => depth_of_bounded⟩

/-- What is read for a search asks for some concepts. -/
theorem results_of_readSearch {value : Datum} {settings : SearchSettings}
    (passes : readSearch value = .valid settings) : 1 ≤ settings.maxResults := by
  simp only [readSearch, Checked.andThen_eq_valid, Checked.seq_eq_valid,
    Checked.functor_map_eq_valid] at passes
  obtain ⟨_, _, _, _, ⟨_, _, ⟨_, _, ⟨_, _, rfl⟩, _, rfl⟩, isResults, rfl⟩, _, rfl⟩ := passes
  exact Lax.field_satisfies (1 ≤ ·) isResults (by decide) fun _ _ => positive_of_bounded

/-- What is read for a study is valid. -/
theorem valid_of_readStudy {value : Datum} {settings : StudySettings}
    (passes : readStudy value = .valid settings) : settings.Valid := by
  simp only [readStudy, Checked.andThen_eq_valid, Checked.seq_eq_valid,
    Checked.functor_map_eq_valid] at passes
  obtain ⟨_, _, _, _, ⟨_, _, ⟨_, _, ⟨_, _, ⟨_, _, rfl⟩, _, rfl⟩, isRepeats, rfl⟩, isSamples, rfl⟩,
    isTopCount, rfl⟩ := passes
  have positive : ∀ value count, Lax.bounded 1 none value = .valid count → 1 ≤ count :=
    fun _ _ => positive_of_bounded
  exact ⟨Lax.field_satisfies (1 ≤ ·) isRepeats valid_defaultStudy.repeats positive,
    Lax.field_satisfies (1 ≤ ·) isSamples valid_defaultStudy.samples positive,
    Lax.field_satisfies (1 ≤ ·) isTopCount valid_defaultStudy.topCount positive⟩

/-- The fields of a record give valid settings, if they pass. -/
theorem valid_of_readFields {fields : List (String × Datum)} {prior : Checked (Prior Float)}
    {settings : Settings Float} (passes : readFields fields prior = .valid settings) :
    settings.Valid := by
  simp only [readFields, Checked.andThen_eq_valid, Checked.seq_eq_valid,
    Checked.functor_map_eq_valid] at passes
  obtain ⟨_, ⟨_, _, ⟨_, _, ⟨_, _, ⟨_, _, ⟨_, _, ⟨_, _, ⟨_, _, rfl⟩, isGrammar, rfl⟩, isSearch, rfl⟩, _,
    rfl⟩, isStudy, rfl⟩, _, rfl⟩, _, rfl⟩, deepEnough⟩ := passes
  rw [withinDepth] at deepEnough
  split at deepEnough
  next => cases deepEnough
  next notDeeper =>
    cases deepEnough
    exact {
      grammar := Lax.field_satisfies GrammarSettings.Valid isGrammar valid_defaultGrammar
        fun _ _ => valid_of_readGrammar
      depth := not_lt.1 notDeeper
      results := Lax.field_satisfies (1 ≤ ·.maxResults) isSearch (by decide)
        fun _ _ => results_of_readSearch
      study := Lax.field_satisfies StudySettings.Valid isStudy valid_defaultStudy
        fun _ _ => valid_of_readStudy }

/-- Settings that are read are valid. -/
theorem valid_of_read {document : Datum} {settings : Settings Float}
    (succeeds : read document = .ok settings) : settings.Valid := by
  cases document with
  | null =>
      cases succeeds
      exact valid_standard
  | record fields =>
      have accepts : ∃ prior, accept (readFields fields prior) = .ok settings := by
        rw [read] at succeeds
        split at succeeds
        next =>
          obtain ⟨prior, _, accepted⟩ := Sequence.exists_of_bind_ok succeeds
          exact ⟨prior, accepted⟩
        next => exact ⟨_, succeeds⟩
      obtain ⟨prior, accepted⟩ := accepts
      cases passes : readFields fields prior with
      | flawed flaws =>
          rw [passes] at accepted
          cases accepted
      | valid value =>
          rw [passes] at accepted
          cases accepted
          exact valid_of_readFields passes
  | _ => cases succeeds

variable {α : Type} {settings : Settings α}

/-- The grammar of valid settings has only parameters in their ranges. -/
theorem Valid.inRange (valid : settings.Valid) : settings.searchGrammar.InRange where
  bases := by
    intro base listed
    obtain ⟨least, _, greatest⟩ := valid.grammar.powerBases
    obtain ⟨lower, upper⟩ := Grammar.mem_span.1 listed
    exact ⟨least.trans lower, upper.trans greatest⟩
  steps := by
    intro step listed
    obtain ⟨least, _, greatest⟩ := valid.grammar.multiples
    obtain ⟨lower, upper⟩ := Grammar.mem_span.1 listed
    exact ⟨least.trans lower, upper.trans greatest⟩

/-- Terminals of every family can be drawn from the grammar of valid settings. -/
theorem Valid.drawable (valid : settings.Valid) : settings.searchGrammar.Drawable where
  inRange := valid.inRange
  bases := List.ne_nil_of_mem (Grammar.mem_span.2 ⟨le_refl _, valid.grammar.powerBases.2.1⟩)
  steps := List.ne_nil_of_mem (Grammar.mem_span.2 ⟨le_refl _, valid.grammar.multiples.2.1⟩)

end Settings

end NumberConcepts
