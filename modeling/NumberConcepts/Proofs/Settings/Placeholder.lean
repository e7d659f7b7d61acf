import Mathlib.Data.List.TakeDrop
import Mathlib.Data.List.TakeWhile
import NumberConcepts.Settings.Placeholder
/-!
# Placeholders are replaced where they stand

A placeholder reaches from its opening brace to the first closing one, and `contents?` says
what stands between. So a text in which each opening brace is closed again can be expanded
without what follows it: `expandChars_append`. In particular what is put in for a
placeholder is passed by, whatever stands around it.
-/

namespace NumberConcepts.Placeholder

section Characters

variable {environment : Environment} {text rest inner name default after : List Char} {c : Char}

/-! ### Bodies -/

/-- The name and the default that stand between braces. -/
def contents? (inner : List Char) : Option (List Char × Option (List Char)) :=
  match inner.span (· != ':') with
  | ([], _) => none
  | (name, []) => some (name, none)
  | (name, ':' :: '-' :: default) => some (name, some default)
  | _ => none

/-- A search stops behind the characters that it passes. -/
theorem span_append {passes : Char → Bool} (passed : ∀ d ∈ name, passes d = true)
    (stops : ∀ d ∈ rest.head?, passes d = false) : (name ++ rest).span passes = (name, rest) := by
  rw [List.span_eq_takeWhile_dropWhile, List.takeWhile_append_of_pos passed,
    List.dropWhile_append_of_pos passed]
  cases rest with
  | nil => rw [List.takeWhile_nil, List.dropWhile_nil, List.append_nil]
  | cons d others =>
      have stop : ¬ passes d = true := by simp [stops d rfl]
      rw [List.takeWhile_cons_of_neg stop, List.dropWhile_cons_of_neg stop, List.append_nil]

/-- The name ends where a colon stands. -/
theorem exists_name (inner : List Char) :
    ∃ name rest, inner = name ++ rest ∧ (∀ d ∈ name, d ≠ ':') ∧ ∀ d ∈ rest.head?, d = ':' := by
  refine ⟨inner.takeWhile (· != ':'), inner.dropWhile (· != ':'), ?_, ?_, ?_⟩
  · exact List.takeWhile_append_dropWhile.symm
  · intro d inName
    simpa using List.mem_takeWhile_imp inName
  · intro d first
    have stopped := List.head?_dropWhile_not (· != ':') inner
    rw [Option.mem_def.1 first] at stopped
    simpa using stopped

theorem span_name (isName : ∀ d ∈ name, d ≠ ':') (colon : ∀ d ∈ rest.head?, d = ':') :
    (name ++ rest).span (· != ':') = (name, rest) := by
  refine span_append (fun d inName => ?_) fun d first => ?_
  · simp [isName d inName]
  · simp [colon d first]

/-- Between braces the name ends where a colon or the closing brace stands. -/
theorem span_inner (closed : '\x7d' ∉ name) (isName : ∀ d ∈ name, d ≠ ':')
    (colon : ∀ d ∈ rest.head?, d = ':') :
    (name ++ (rest ++ '\x7d' :: after)).span (fun d => d != '\x7d' && d != ':') =
      (name, rest ++ '\x7d' :: after) := by
  refine span_append (fun d inName => ?_) fun d first => ?_
  · have noBrace : d ≠ '\x7d' := ne_of_mem_of_not_mem inName closed
    simp [noBrace, isName d inName]
  · rw [List.head?_append, Option.mem_def, Option.or_eq_some_iff] at first
    obtain isColon | ⟨_, isBrace⟩ := first
    · simp [colon d isColon]
    · obtain rfl := Option.some.inj isBrace
      rfl

/-- The default ends where the closing brace stands. -/
theorem span_default (closed : '\x7d' ∉ default) :
    (default ++ '\x7d' :: after).span (· != '\x7d') = (default, '\x7d' :: after) := by
  refine span_append (fun d inDefault => ?_) fun d first => ?_
  · simpa using ne_of_mem_of_not_mem inDefault closed
  · obtain rfl := Option.some.inj first
    rfl

theorem contents?_name (given : name ≠ []) (isName : ∀ d ∈ name, d ≠ ':') :
    contents? name = some (name, none) := by
  have alone : (name ++ []).span (· != ':') = (name, []) :=
    span_name isName fun d absent => nomatch absent
  rw [List.append_nil] at alone
  rw [contents?, alone]
  cases name with
  | nil => exact absurd rfl given
  | cons d others => rfl

theorem contents?_default (given : name ≠ []) (isName : ∀ d ∈ name, d ≠ ':')
    (default : List Char) :
    contents? (name ++ ':' :: '-' :: default) = some (name, some default) := by
  have named : (name ++ ':' :: '-' :: default).span (· != ':') = (name, ':' :: '-' :: default) :=
    span_name isName fun d first => (Option.some.inj first).symm
  rw [contents?, named]
  cases name with
  | nil => exact absurd rfl given
  | cons d others => rfl

/-- The body of a placeholder is what stands before the first closing brace. -/
theorem body?_append_cons (closed : '\x7d' ∉ inner) (after : List Char) :
    body? (inner ++ '\x7d' :: after) =
      (contents? inner).map fun (name, default) => (name, default, after) := by
  obtain ⟨name, rest, rfl, isName, colon⟩ := exists_name inner
  obtain ⟨notInName, notInRest⟩ := not_or.1 (mt List.mem_append.2 closed)
  rw [body?, contents?, List.append_assoc, span_inner notInName isName colon,
    span_name isName colon]
  obtain _ | ⟨d, others⟩ := name
  · rfl
  obtain _ | ⟨e, more⟩ := rest
  · rfl
  obtain rfl : e = ':' := colon e rfl
  obtain _ | ⟨mark, default⟩ := more
  · rfl
  by_cases isMark : mark = '-'
  · subst isMark
    have notInDefault : '\x7d' ∉ default := fun inside =>
      notInRest (List.mem_cons_of_mem _ (List.mem_cons_of_mem _ inside))
    simp only [List.cons_append, span_default notInDefault, Option.map_some]
  · simp [isMark]

/-- What a search leaves over is part of the text. -/
theorem mem_of_span {passes : Char → Bool} (searched : text.span passes = (name, rest))
    (inside : c ∈ rest) : c ∈ text := by
  rw [List.span_eq_takeWhile_dropWhile, Prod.mk.injEq] at searched
  exact (List.dropWhile_suffix passes).subset (searched.2 ▸ inside)

/-- Without a closing brace there is no placeholder. -/
theorem body?_eq_none (opened : '\x7d' ∉ text) : body? text = none := by
  rw [body?]
  split
  next => rfl
  next searched => exact absurd (mem_of_span searched List.mem_cons_self) opened
  next afterMark searched =>
    split
    next searchedToo =>
      have inside := mem_of_span searchedToo List.mem_cons_self
      have behindMark := List.mem_cons_of_mem ':' (List.mem_cons_of_mem '-' inside)
      exact absurd (mem_of_span searched behindMark) opened
    next => rfl
  next => rfl

/-! ### Scanning -/

/-- The name and the default of the placeholder at the beginning of a text, and what follows it. -/
def placeholder? : List Char → Option (List Char × Option (List Char) × List Char)
  | '$' :: '\x7b' :: rest => body? rest
  | _ => none

theorem placeholder?_eq_none (opens : ∀ inside, text ≠ '$' :: '\x7b' :: inside) :
    placeholder? text = none := by
  rw [placeholder?]
  exact opens

/-- A text begins with a placeholder where braces stand behind a dollar sign, the first closing one
ends it, and between them are a name and perhaps a default. -/
theorem placeholder?_eq_some_iff {default : Option (List Char)} :
    placeholder? text = some (name, default, after) ↔
      ∃ inner, '\x7d' ∉ inner ∧ text = '$' :: '\x7b' :: (inner ++ '\x7d' :: after) ∧
        contents? inner = some (name, default) := by
  constructor
  · intro found
    rw [placeholder?.eq_def] at found
    split at found
    next rest =>
      by_cases closed : '\x7d' ∈ rest
      · obtain ⟨inner, behind, rfl, isFirst⟩ := List.eq_append_cons_of_mem closed
        rw [body?_append_cons isFirst] at found
        obtain ⟨⟨_, _⟩, known, same⟩ := Option.map_eq_some_iff.1 found
        cases same
        exact ⟨inner, isFirst, rfl, known⟩
      · rw [body?_eq_none closed] at found
        cases found
    next => cases found
  · rintro ⟨inner, closed, rfl, found⟩
    rw [placeholder?, body?_append_cons closed, found]
    rfl

theorem suffix_of_placeholder? {default : Option (List Char)}
    (found : placeholder? text = some (name, default, after)) : after <:+ text := by
  obtain ⟨inner, _, rfl, _⟩ := placeholder?_eq_some_iff.1 found
  exact ⟨'$' :: '\x7b' :: (inner ++ ['\x7d']), by simp⟩

theorem length_lt_of_placeholder? {default : Option (List Char)}
    (found : placeholder? text = some (name, default, after)) : after.length < text.length := by
  obtain ⟨inner, _, rfl, _⟩ := placeholder?_eq_some_iff.1 found
  simp only [List.length_cons, List.length_append]
  omega

/-- The text from one position on is expanded as its beginning says. -/
theorem expandWithin_succ_cons (fuel : Nat) (c : Char) (rest : List Char) :
    expandWithin environment (fuel + 1) (c :: rest) =
      match placeholder? (c :: rest) with
      | some (name, default, after) =>
        value environment name default ++ expandWithin environment fuel after
      | none => c :: expandWithin environment fuel rest := by
  by_cases opens : ∃ inside, c :: rest = '$' :: '\x7b' :: inside
  · obtain ⟨inside, same⟩ := opens
    cases same
    cases found : body? inside <;> simp only [expandWithin, placeholder?, found]
  · rw [placeholder?_eq_none fun inside same => opens ⟨inside, same⟩, expandWithin]
    rintro inside rfl rfl
    exact opens ⟨inside, rfl⟩

/-- More fuel than characters is of no use. -/
theorem expandWithin_eq_of_length_le {fuel more : Nat} (enough : text.length ≤ fuel)
    (enough' : text.length ≤ more) :
    expandWithin environment fuel text = expandWithin environment more text := by
  induction fuel generalizing more text with
  | zero =>
      rw [List.length_eq_zero_iff.1 (Nat.le_zero.1 enough)]
      cases more <;> rfl
  | succ fuel inductionHypothesis =>
      cases text with
      | nil => cases more <;> rfl
      | cons c rest =>
          obtain _ | more := more
          · cases enough'
          rw [List.length_cons, Nat.add_le_add_iff_right] at enough enough'
          rw [expandWithin_succ_cons, expandWithin_succ_cons]
          split
          next name default after found =>
            have shorter : after.length ≤ rest.length :=
              Nat.le_of_lt_succ (length_lt_of_placeholder? found)
            rw [inductionHypothesis (shorter.trans enough) (shorter.trans enough')]
          next => rw [inductionHypothesis enough enough']

/-- The characters of a text with all placeholders replaced. -/
def expandChars (environment : Environment) (text : List Char) : List Char :=
  expandWithin environment text.length text

theorem expandChars_of_placeholder? {default : Option (List Char)}
    (found : placeholder? text = some (name, default, after)) :
    expandChars environment text = value environment name default ++
      expandChars environment after := by
  have shorter := length_lt_of_placeholder? found
  obtain _ | ⟨c, rest⟩ := text
  · cases shorter
  rw [expandChars, List.length_cons, expandWithin_succ_cons, found]
  exact congrArg _ (expandWithin_eq_of_length_le (Nat.le_of_lt_succ shorter) le_rfl)

theorem expandChars_cons (none : placeholder? (c :: rest) = none) :
    expandChars environment (c :: rest) = c :: expandChars environment rest := by
  rw [expandChars, List.length_cons, expandWithin_succ_cons, none, expandChars]

/-! ### Texts side by side -/

/-- Behind each opening of a placeholder stands a closing brace. -/
def Closed (text : List Char) : Prop :=
  ∀ before after, text = before ++ '$' :: '\x7b' :: after → '\x7d' ∈ after

/-- Side by side the texts open a placeholder that neither of them opens. -/
def Joins (text more : List Char) : Prop :=
  text.getLast? = some '$' ∧ more.head? = some '\x7b'

theorem Closed.of_suffix (closed : Closed text) (suffix : after <:+ text) : Closed after := by
  obtain ⟨before, rfl⟩ := suffix
  rintro start behind rfl
  exact closed (before ++ start) behind (List.append_assoc ..).symm

theorem Joins.of_suffix {more : List Char} (joins : Joins after more) (suffix : after <:+ text) :
    Joins text more := by
  obtain ⟨before, rfl⟩ := suffix
  exact ⟨by rw [List.getLast?_append, joins.1, Option.some_or], joins.2⟩

/-- A placeholder at the beginning of a closed text does not depend on what follows the text. -/
theorem placeholder?_append {more : List Char} (closed : Closed text) (apart : ¬ Joins text more)
    (given : text ≠ []) :
    placeholder? (text ++ more) =
      (placeholder? text).map fun (name, default, after) => (name, default, after ++ more) := by
  by_cases opens : ∃ inside, text = '$' :: '\x7b' :: inside
  · obtain ⟨inside, rfl⟩ := opens
    obtain ⟨inner, behind, rfl, isFirst⟩ := List.eq_append_cons_of_mem (closed [] inside rfl)
    simp only [List.cons_append, placeholder?, List.append_assoc, body?_append_cons isFirst,
      Option.map_map]
    rfl
  · rw [placeholder?_eq_none fun inside same => opens ⟨inside, same⟩, Option.map_none]
    refine placeholder?_eq_none fun inside same => ?_
    obtain _ | ⟨c, _ | ⟨d, rest⟩⟩ := text
    · exact given rfl
    · obtain ⟨rfl, rfl⟩ := List.cons.inj same
      exact apart ⟨rfl, rfl⟩
    · rw [List.cons_append, List.cons_append, List.cons.injEq, List.cons.injEq] at same
      obtain ⟨rfl, rfl, _⟩ := same
      exact opens ⟨rest, rfl⟩

/-- A closed text is expanded without what follows it, unless the two open a placeholder
together. -/
theorem expandChars_append {more : List Char} (closed : Closed text) (apart : ¬ Joins text more) :
    expandChars environment (text ++ more) =
      expandChars environment text ++ expandChars environment more := by
  induction size : text.length using Nat.strongRecOn generalizing text with
  | ind size inductionHypothesis =>
      subst size
      obtain _ | ⟨c, rest⟩ := text
      · rfl
      have follows := placeholder?_append closed apart (List.cons_ne_nil c rest)
      cases found : placeholder? (c :: rest) with
      | none =>
          rw [found, List.cons_append] at follows
          have suffix : rest <:+ c :: rest := List.suffix_cons c rest
          rw [List.cons_append, expandChars_cons follows, expandChars_cons found,
            inductionHypothesis _ (Nat.lt_succ_self _) (closed.of_suffix suffix)
              (mt (Joins.of_suffix · suffix) apart) rfl, List.cons_append]
      | some placeholder =>
          obtain ⟨name, default, after⟩ := placeholder
          rw [found] at follows
          have suffix := suffix_of_placeholder? found
          rw [expandChars_of_placeholder? follows, expandChars_of_placeholder? found,
            inductionHypothesis _ (length_lt_of_placeholder? found) (closed.of_suffix suffix)
              (mt (Joins.of_suffix · suffix) apart) rfl, List.append_assoc]

/-- A text that ends with a closing brace is closed. -/
theorem closed_of_getLast? (ends : text.getLast? = some '\x7d') : Closed text := by
  rintro before after rfl
  rw [List.getLast?_append, List.getLast?_cons_cons, List.getLast?_cons, Option.some_or] at ends
  cases last : after.getLast? with
  | none =>
      rw [last] at ends
      cases ends
  | some d =>
      rw [last] at ends
      obtain rfl : d = '\x7d' := Option.some.inj ends
      exact List.mem_of_getLast? last

end Characters

/-! ### References -/

/-- A reference to a variable, perhaps with a default. -/
structure Reference where
  name : String
  default : Option String
  isName : name ≠ "" ∧ ∀ c ∈ name.toList, c ≠ '\x7d' ∧ c ≠ ':'
  isDefault : ∀ text ∈ default, '\x7d' ∉ text.toList

namespace Reference

variable (reference : Reference)

/-- What stands between the braces. -/
def inner : String :=
  match reference.default with
  | some text => reference.name ++ ":-" ++ text
  | none => reference.name

/-- The placeholder. -/
def written : String := "$\x7b" ++ reference.inner ++ "\x7d"

/-- What the placeholder stands for. -/
def meaning (environment : Environment) : String :=
  (environment.lookup reference.name).getD (reference.default.getD "")

theorem contents?_inner : contents? reference.inner.toList =
    some (reference.name.toList, reference.default.map String.toList) := by
  have given : reference.name.toList ≠ [] := mt String.toList_eq_nil_iff.1 reference.isName.1
  have isName : ∀ c ∈ reference.name.toList, c ≠ ':' := fun c inside =>
    (reference.isName.2 c inside).2
  rw [inner]
  cases reference.default with
  | none => exact contents?_name given isName
  | some text =>
      dsimp only
      rw [String.toList_append, String.toList_append, List.append_assoc]
      exact contents?_default given isName text.toList

theorem not_mem_inner : '\x7d' ∉ reference.inner.toList := by
  have notInName : '\x7d' ∉ reference.name.toList := fun inside =>
    (reference.isName.2 _ inside).1 rfl
  rw [inner]
  cases given : reference.default with
  | none => exact notInName
  | some text =>
      have notInDefault := reference.isDefault text given
      simp only [String.toList_append, List.mem_append, not_or]
      exact ⟨⟨notInName, by decide⟩, notInDefault⟩

theorem toList_written :
    reference.written.toList = '$' :: '\x7b' :: (reference.inner.toList ++ ['\x7d']) := by
  rw [written, String.toList_append, String.toList_append]
  rfl

/-- A placeholder alone is replaced by what it stands for. -/
theorem expandText_written (environment : Environment) :
    expandText environment reference.written = reference.meaning environment := by
  have found : placeholder? reference.written.toList =
      some (reference.name.toList, reference.default.map String.toList, []) :=
    placeholder?_eq_some_iff.2
      ⟨_, reference.not_mem_inner, reference.toList_written, reference.contents?_inner⟩
  change String.ofList (expandChars environment reference.written.toList) = _
  have nothing : expandChars environment [] = [] := rfl
  rw [expandChars_of_placeholder? found, nothing, List.append_nil, value, String.ofList_toList,
    meaning]
  cases environment.lookup reference.name with
  | some found => exact String.ofList_toList
  | none =>
      cases reference.default with
      | some text => exact String.ofList_toList
      | none => rfl

end Reference

/-- A closed text is expanded without what follows it, unless the two open a placeholder
together. -/
theorem expandText_append (environment : Environment) {text more : String}
    (closed : Closed text.toList) (apart : ¬ Joins text.toList more.toList) :
    expandText environment (text ++ more) =
      expandText environment text ++ expandText environment more := by
  change String.ofList (expandChars environment (text ++ more).toList) = _
  rw [String.toList_append, expandChars_append closed apart, String.ofList_append]
  rfl

/-- A placeholder behind a closed text is replaced by what it stands for, whatever follows. -/
theorem expandText_written_between (environment : Environment) (reference : Reference)
    {before : String} (closed : Closed before.toList) (after : String) :
    expandText environment (before ++ (reference.written ++ after)) =
      expandText environment before ++
        (reference.meaning environment ++ expandText environment after) := by
  have ends : reference.written.toList.getLast? = some '\x7d' := by
    rw [reference.toList_written, ← List.cons_append, ← List.cons_append, List.getLast?_concat]
  have apart : ¬ Joins before.toList (reference.written ++ after).toList := by
    rintro ⟨_, brace⟩
    rw [String.toList_append, reference.toList_written] at brace
    cases brace
  have apart' : ¬ Joins reference.written.toList after.toList := by
    rintro ⟨dollar, _⟩
    rw [ends] at dollar
    cases dollar
  rw [expandText_append environment closed apart,
    expandText_append environment (closed_of_getLast? ends) apart', reference.expandText_written]

end NumberConcepts.Placeholder

/-! ### Data -/

namespace NumberConcepts.Datum

mutual

/-- The value with all its texts left blank: its shape, the names of its fields, and what is no
text. -/
def outline : Datum → Datum
  | .text _ => .text ""
  | .list items => .list (outlineOfItems items)
  | .record fields => .record (outlineOfFields fields)
  | .null => .null
  | .bool value => .bool value
  | .int value => .int value
  | .float value => .float value

/-- The outlines of the values of a list. -/
def outlineOfItems : List Datum → List Datum
  | [] => []
  | item :: rest => outline item :: outlineOfItems rest

/-- The outlines of the values of fields. -/
def outlineOfFields : List (String × Datum) → List (String × Datum)
  | [] => []
  | (name, value) :: rest => (name, outline value) :: outlineOfFields rest

end

end NumberConcepts.Datum

namespace NumberConcepts.Placeholder

open Datum

mutual

/-- Each text of a value is expanded by itself. -/
theorem texts_expand (environment : Environment) :
    ∀ value : Datum, (expand environment value).texts = value.texts.map (expandText environment)
  | .text _ => by simp only [expand, texts, List.map_cons, List.map_nil]
  | .list items => by simp only [expand, texts, textsOfItems_expandItems environment items]
  | .record fields => by simp only [expand, texts, textsOfFields_expandFields environment fields]
  | .null | .bool _ | .int _ | .float _ => by simp only [expand, texts, List.map_nil]

theorem textsOfItems_expandItems (environment : Environment) :
    ∀ items : List Datum, textsOfItems (expandItems environment items) =
      (textsOfItems items).map (expandText environment)
  | [] => by simp only [expandItems, textsOfItems, List.map_nil]
  | item :: rest => by
      simp only [expandItems, textsOfItems, List.map_append, texts_expand environment item,
        textsOfItems_expandItems environment rest]

theorem textsOfFields_expandFields (environment : Environment) :
    ∀ fields : List (String × Datum), textsOfFields (expandFields environment fields) =
      (textsOfFields fields).map (expandText environment)
  | [] => by simp only [expandFields, textsOfFields, List.map_nil]
  | (name, value) :: rest => by
      simp only [expandFields, textsOfFields, List.map_append, texts_expand environment value,
        textsOfFields_expandFields environment rest]

end

mutual

/-- Nothing but the texts of a value is expanded. -/
theorem outline_expand (environment : Environment) :
    ∀ value : Datum, (expand environment value).outline = value.outline
  | .text _ => by simp only [expand, outline]
  | .list items => by simp only [expand, outline, outlineOfItems_expandItems environment items]
  | .record fields => by
      simp only [expand, outline, outlineOfFields_expandFields environment fields]
  | .null | .bool _ | .int _ | .float _ => by simp only [expand]

theorem outlineOfItems_expandItems (environment : Environment) :
    ∀ items : List Datum,
      outlineOfItems (expandItems environment items) = outlineOfItems items
  | [] => by simp only [expandItems]
  | item :: rest => by
      simp only [expandItems, outlineOfItems, outline_expand environment item,
        outlineOfItems_expandItems environment rest]

theorem outlineOfFields_expandFields (environment : Environment) :
    ∀ fields : List (String × Datum),
      outlineOfFields (expandFields environment fields) = outlineOfFields fields
  | [] => by simp only [expandFields]
  | (name, value) :: rest => by
      simp only [expandFields, outlineOfFields, outline_expand environment value,
        outlineOfFields_expandFields environment rest]

end

/-- Expansion is local. A text whose placeholders are closed is expanded without what follows it, a
placeholder stands for the same wherever it is put and is not looked at again, and in other values
each text is expanded by itself and nothing else changes. -/
theorem expand_local (environment : Environment) :
    (∀ text more : String, Closed text.toList → ¬ Joins text.toList more.toList →
      expandText environment (text ++ more) =
        expandText environment text ++ expandText environment more) ∧
    (∀ (reference : Reference) (before after : String), Closed before.toList →
      expandText environment (before ++ (reference.written ++ after)) =
        expandText environment before ++
          (reference.meaning environment ++ expandText environment after)) ∧
    ∀ value : Datum, (expand environment value).texts = value.texts.map (expandText environment) ∧
      (expand environment value).outline = value.outline :=
  ⟨fun _ _ => expandText_append environment,
    fun reference _ after closed => expandText_written_between environment reference closed after,
    fun value => ⟨texts_expand environment value, outline_expand environment value⟩⟩

/-- Beside texts that are no placeholders, a placeholder is replaced by a value that looks like one,
and the brace behind its default stays. -/
theorem expand_local_for_nested :
    let environment : Environment := [("A", "$\x7bB\x7d"), ("B", "b")]
    expandText environment ("$\x7bA:b\x7d$\x7b\x7d" ++ "$\x7bB\x7d") =
      "$\x7bA:b\x7d$\x7b\x7db" ∧
    expandText environment ("$\x7b\x7d" ++ ("$\x7bA:-$\x7bB\x7d" ++ "\x7d")) =
      "$\x7b\x7d$\x7bB\x7d\x7d" := by
  intro environment
  obtain ⟨append, between, _⟩ := expand_local environment
  let reference : Reference :=
    ⟨"A", some "$\x7bB", ⟨by decide, List.forall_mem_singleton.2 (by decide)⟩, by decide⟩
  constructor
  · rw [append _ _ (closed_of_getLast? (by decide)) fun joins => absurd joins.1 (by decide)]
    decide +kernel
  · have written : "$\x7bA:-$\x7bB\x7d" = reference.written := by decide
    rw [written, between reference _ _ (closed_of_getLast? (by decide))]
    decide +kernel

end NumberConcepts.Placeholder
