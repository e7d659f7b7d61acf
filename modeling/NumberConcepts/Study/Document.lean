import NumberConcepts.Datum.Json
import NumberConcepts.Location
import NumberConcepts.Study.Table
/-!
# Documents

What a study leaves behind: tables and lists of records, each to be written to a
file of its own.
-/

namespace NumberConcepts

/-- A text to be written to a file. -/
structure Document where
  kind : String
  /-- What it is called when it has been saved, if that is worth saying. -/
  title : Option String
  location : Location
  header : Option String
  rows : List String

namespace Document

/-- A table as a document. -/
def ofTable (kind : String) (title : Option String) (location : Location) (table : Table) :
    Document :=
  { kind, title, location, header := some table.header, rows := table.lines }

/-- Records as a document, one on each line. -/
def ofRecords (kind : String) (title : Option String) (location : Location)
    (records : List Fields) : Document :=
  { kind, title, location, header := none
    rows := records.map fun fields => Json.write (.record fields) }

/-- All lines. -/
def lines (document : Document) : List String := document.header.toList ++ document.rows

/-- The text of the file. -/
def text (document : Document) : String :=
  String.join (document.lines.map fun line => line ++ "\n")

/-- What is said when the document has been saved. -/
def notice? (document : Document) : Option String :=
  document.title.map fun title => "Saved " ++ title ++ " to " ++ document.location.text

end Document

end NumberConcepts
