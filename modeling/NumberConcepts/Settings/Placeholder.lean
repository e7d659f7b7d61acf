import NumberConcepts.Datum
/-!
# Placeholders

A text may hold placeholders for the values of variables: a dollar sign and a
name in braces, perhaps with a default after a colon and a dash. What is put in
is not looked at again.
-/

namespace NumberConcepts.Placeholder

/-- Variables with their values. -/
abbrev Environment := List (String × String)

/-- The body of a placeholder after its opening brace: the name, the default if there is one, and
what follows the closing brace. -/
def body? (text : List Char) : Option (List Char × Option (List Char) × List Char) :=
  match text.span fun c => c != '\x7d' && c != ':' with
  | ([], _) => none
  | (name, '\x7d' :: rest) => some (name, none, rest)
  | (name, ':' :: '-' :: afterMark) =>
    match afterMark.span (· != '\x7d') with
    | (default, '\x7d' :: rest) => some (name, some default, rest)
    | _ => none
  | _ => none

/-- What a placeholder stands for: the value of the variable, or the default, or nothing. -/
def value (environment : Environment) (name : List Char) (default : Option (List Char)) :
    List Char :=
  match environment.lookup (String.ofList name) with
  | some found => found.toList
  | none => default.getD []

/-- The text with all placeholders replaced, from left to right; at most `fuel` characters and
placeholders are passed. -/
def expandWithin (environment : Environment) : Nat → List Char → List Char
  | 0, text => text
  | _ + 1, [] => []
  | fuel + 1, '$' :: '\x7b' :: rest =>
    match body? rest with
    | some (name, default, after) =>
      value environment name default ++ expandWithin environment fuel after
    | none => '$' :: expandWithin environment fuel ('\x7b' :: rest)
  | fuel + 1, c :: rest => c :: expandWithin environment fuel rest

/-- The text with all placeholders replaced. -/
def expandText (environment : Environment) (text : String) : String :=
  let chars := text.toList
  String.ofList (expandWithin environment chars.length chars)

mutual

/-- The value with the placeholders in all its texts replaced; names of fields stay. -/
def expand (environment : Environment) : Datum → Datum
  | .text text => .text (expandText environment text)
  | .list items => .list (expandItems environment items)
  | .record fields => .record (expandFields environment fields)
  | .null => .null
  | .bool value => .bool value
  | .int value => .int value
  | .float value => .float value

/-- The values of a list, expanded. -/
def expandItems (environment : Environment) : List Datum → List Datum
  | [] => []
  | item :: rest => expand environment item :: expandItems environment rest

/-- The fields of a record, expanded. -/
def expandFields (environment : Environment) : List (String × Datum) → List (String × Datum)
  | [] => []
  | (name, value) :: rest => (name, expand environment value) :: expandFields environment rest

end

/-- The names of the variables that a text mentions; at most `fuel` characters and placeholders are
passed. -/
def namesWithin : Nat → List Char → List String
  | 0, _ => []
  | _ + 1, [] => []
  | fuel + 1, '$' :: '\x7b' :: rest =>
    match body? rest with
    | some (name, _, after) => String.ofList name :: namesWithin fuel after
    | none => namesWithin fuel ('\x7b' :: rest)
  | fuel + 1, _ :: rest => namesWithin fuel rest

/-- The names of the variables that the texts of a value mention. -/
def names (value : Datum) : List String :=
  value.texts.flatMap fun text => namesWithin text.toList.length text.toList

end NumberConcepts.Placeholder
