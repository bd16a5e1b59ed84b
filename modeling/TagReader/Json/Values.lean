/-
# Values kept as structured text

How settings, identifiers, keys and value blocks are read from structured values and turned
into them.
-/
import TagReader.Classic.ValueBlock
import TagReader.Engine.Basic
import TagReader.Json.Basic
import TagReader.Key
import TagReader.Uid

namespace TagReader

namespace Settings

/-- Reads settings; what is missing has its default. -/
def ofJson? (j : Json) : Option Settings :=
  match j.fields? ["timeout_ms", "retries"] with
  | some [timeout, retries] => do
    let t ← Json.defaulted defaultTimeoutMs (Json.nat? (UInt64.size - 1)) timeout
    let r ← Json.defaulted defaultRetries (Json.nat? (UInt32.size - 1)) retries
    pure ⟨t, r⟩
  | _ => none

/-- Settings as a record. -/
def toJson (s : Settings) : Json :=
  .record [("timeout_ms", .whole s.timeoutMs), ("retries", .whole s.retries)]

end Settings

namespace Uid

/-- Reads an identifier from a list of bytes. -/
def ofJson? (j : Json) : Option Uid := j.bytes?.map Uid.mk

/-- An identifier as a list of bytes. -/
def toJson (u : Uid) : Json := .ofBytes u.bytes

end Uid

namespace SectorKey

/-- Reads a key from a list of six bytes. -/
def ofJson? (j : Json) : Option SectorKey := j.bytes?.bind (Octets.ofBytes? 6)

/-- A key as a list of bytes. -/
def toJson (k : SectorKey) : Json := .ofBytes k.bytes

end SectorKey

namespace Classic.ValueBlock

/-- Reads the contents of a value block; both fields must be there. -/
def ofJson? (j : Json) : Option ValueBlock :=
  match j.fields? ["value", "address"] with
  | some [value, address] => do
    let v ← Json.required (Json.int? Int32.minValue.toInt Int32.maxValue.toInt) value
    let a ← Json.required Json.byte? address
    pure ⟨Int32.ofInt v, a⟩
  | _ => none

/-- The contents of a value block as a record. -/
def toJson (v : ValueBlock) : Json :=
  .record [("value", .whole v.value.toInt), ("address", .whole v.address.toNat)]

end Classic.ValueBlock

end TagReader
