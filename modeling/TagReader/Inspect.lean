/-
# The inspection form of values

Some messages and reports show a whole value with its name and fields, as in
`Point x: 1, y: 2` with the fields in braces.  This file holds the few pieces of that form:
records, lists and quoted names.
-/
namespace TagReader
namespace Inspect

/-- Texts with a comma and a blank between them. -/
def commas (parts : List String) : String := ", ".intercalate parts

/-- One field of a record. -/
def field (f : String × String) : String := f.1 ++ ": " ++ f.2

/-- A record with all its fields. -/
def record (name : String) (fields : List (String × String)) : String :=
  name ++ " \x7b " ++ commas (fields.map field) ++ " \x7d"

/-- A record that shows only some of its fields. -/
def partialRecord (name : String) (fields : List (String × String)) : String :=
  name ++ " \x7b " ++ commas (fields.map field ++ [".."]) ++ " \x7d"

/-- A value wrapped in a name. -/
def wrapped (name content : String) : String := name ++ "(" ++ content ++ ")"

/-- A list of numbers. -/
def numbers (ns : List Nat) : String := "[" ++ commas (ns.map toString) ++ "]"

/-- A name in quotation marks.  Only plain names are shown this way, so nothing is escaped. -/
def quoted (name : String) : String := "\"" ++ name ++ "\""

end Inspect
end TagReader
