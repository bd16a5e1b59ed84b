/-
# Tag identifiers

A `Uid` identifies a tag.  Its bytes are kept in the order in which the reader reports them;
ISO15693 readers report the least significant byte first, and `Uid.reversed` gives the order
that is printed on the tag.
-/
import TagReader.Inspect
import TagReader.Hex

namespace TagReader

/-- The identifier of a tag, of any length. -/
structure Uid where
  /-- Its bytes, as reported. -/
  bytes : Bytes
deriving DecidableEq

namespace Uid

/-- The same identifier with its bytes in reverse order. -/
def reversed (u : Uid) : Uid := ⟨u.bytes.reverse⟩

/-- Digits only. -/
def hex (u : Uid) : String := Hex.compact u.bytes

/-- The form in which identifiers are shown: `E0:04:01`. -/
def display (u : Uid) : String := Hex.separated ':' u.bytes

/-- How an identifier is shown in reports. -/
def inspect (u : Uid) : String :=
  Inspect.wrapped "Uid" (Inspect.numbers (u.bytes.map UInt8.toNat))

/-- Identifiers are ordered byte by byte, and a shorter one comes before its extensions. -/
def order (u v : Uid) : Ordering := compare u.bytes v.bytes

end Uid

end TagReader
