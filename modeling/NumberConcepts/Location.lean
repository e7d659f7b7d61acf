/-!
# Locations of files

A location is a sequence of names that leads to a file, written with slashes
between the names. Single dots and empty names lead nowhere and are dropped, so
every location has one written form.
-/

namespace NumberConcepts

/-- The way to a file. -/
structure Location where
  /-- The slashes in front, if it does not start from the directory at hand. -/
  root : String
  names : List String
deriving DecidableEq, Repr

namespace Location

/-- The slashes in front of a written location: two are kept apart from one, but more are not. -/
def rootOf (text : String) : String :=
  if text.startsWith "/" then
    if text.startsWith "//" && !text.startsWith "///" then "//" else "/"
  else
    ""

/-- The location that a text denotes. -/
def ofText (text : String) : Location where
  root := rootOf text
  names := ((text.split '/').toList.map fun name => name.toString).filter fun name =>
    name ≠ "" && name ≠ "."

/-- The written form; a single dot stands for the directory at hand. -/
def text (location : Location) : String :=
  if location.root = "" && location.names.isEmpty then "."
  else location.root ++ "/".intercalate location.names

/-- The location of a file in a directory. -/
def child (directory : Location) (name : String) : Location :=
  { directory with names := directory.names ++ [name] }

/-- The directory of a file. -/
def directory (file : Location) : Location := { file with names := file.names.dropLast }

end Location

end NumberConcepts
