import NumberConcepts.Datum.Display
/-!
# Tables

Records under named columns, written as lines with commas between the cells. A
cell that holds a comma, a quote or the end of a line stands in quotes, and each
quote in it is written twice.
-/

namespace NumberConcepts

/-- Rows of cells under named columns. -/
structure Table where
  columns : List String
  /-- The rows, each with a cell for every column. -/
  rows : List (List Datum)

namespace Table

/-- The table of some records, with a column for each name in the order in which the names first
occur. A record without such a field has an empty cell there. -/
def ofRecords (records : List Fields) : Table :=
  let columns := (records.flatMap fun fields => fields.map Prod.fst).eraseDups
  { columns
    rows := records.map fun fields => columns.map fun name => (fields.lookup name).getD .null }

/-- Characters that a cell may hold only in quotes. -/
def needsQuotes (c : Char) : Bool := c == ',' || c == '"' || c == '\n' || c == '\r'

/-- A text with its quotes doubled. -/
def doubleQuotes : List Char → List Char
  | [] => []
  | c :: rest => if c = '"' then '"' :: '"' :: doubleQuotes rest else c :: doubleQuotes rest

/-- The written form of a text in a cell. -/
def quoteCell (text : String) : String :=
  if text.toList.any needsQuotes then
    "\"" ++ String.ofList (doubleQuotes text.toList) ++ "\""
  else
    text

/-- The written form of a cell; no value leaves it empty. -/
def cell : Datum → String
  | .null => ""
  | value => quoteCell value.plain

/-- The line with the names of the columns. -/
def header (table : Table) : String := ",".intercalate (table.columns.map quoteCell)

/-- The lines below it. -/
def lines (table : Table) : List String :=
  table.rows.map fun row => ",".intercalate (row.map cell)

end Table

end NumberConcepts
