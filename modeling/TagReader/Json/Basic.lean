/-
# Structured values

Settings and a few other values are kept as structured text: null, truth values, numbers,
strings, lists and records.  This file has the type of such values and the rules by which
parts of them are read.

* A whole number within bounds is read only from a whole number; `1.0` is none.
* A record is read from a record, whose surplus keys are ignored, or from a list of its fields
  in order.  A field that is missing, or beyond the end of the list, may have a default; null
  is not missing.  A list must not be longer than the record.
-/
namespace TagReader

/-- A structured value. -/
inductive Json where
  | null
  | bool (b : Bool)
  /-- A whole number. -/
  | whole (n : Int)
  /-- A number that is written with a fraction or an exponent. -/
  | fraction
  | string (s : String)
  | list (items : List Json)
  | record (fields : List (String × Json))
  deriving Inhabited

namespace Json

/-- Reads a whole number within bounds. -/
def int? (least most : Int) : Json → Option Int
  | whole n => if least ≤ n ∧ n ≤ most then some n else none
  | _ => none

/-- Reads a natural number up to a bound. -/
def nat? (most : Nat) (j : Json) : Option Nat := (j.int? 0 most).map Int.toNat

/-- Reads a byte. -/
def byte? (j : Json) : Option UInt8 := (j.nat? 255).map UInt8.ofNat

/-- Reads a list of bytes. -/
def bytes? : Json → Option (List UInt8)
  | list items => items.mapM byte?
  | _ => none

/-- The fields of a record in the order of their names, each one there or missing. -/
def fields? (names : List String) : Json → Option (List (Option Json))
  | record fields => some (names.map fun name => fields.lookup name)
  | list items =>
    if items.length ≤ names.length then
      some ((List.range names.length).map fun i => items[i]?)
    else none
  | _ => none

/-- Reads a field that must be there. -/
def required {α : Type} (read : Json → Option α) (field : Option Json) : Option α :=
  field.bind read

/-- Reads a field, or takes a default if it is missing. -/
def defaulted {α : Type} (default : α) (read : Json → Option α) (field : Option Json) : Option α :=
  match field with
  | some j => read j
  | none => some default

/-- A list of bytes as a structured value. -/
def ofBytes (bs : List UInt8) : Json := list (bs.map fun b => whole b.toNat)

end Json
end TagReader
