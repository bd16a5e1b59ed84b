/-
# Lists of tags

A reader reports the tags in its field as a list of identifiers.  There are two layouts, both
with the number of tags in front: one gives the length of each identifier before its bytes,
the other has identifiers of eight bytes throughout.
-/
import TagReader.Payload
import TagReader.Uid

namespace TagReader
namespace TagList

/-- A list in the layout with a length before each identifier. -/
def encode (uids : List Uid) : Bytes :=
  UInt8.ofNat uids.length ::
    uids.flatMap fun u => UInt8.ofNat u.bytes.length :: u.bytes

/-- Reads `n` identifiers with their lengths, from position `i` on. -/
def entries (p : Bytes) : (n i : Nat) → Except Fault (List Uid)
  | 0, _ => .ok []
  | n + 1, i => do
    let bs ← Payload.prefixed p i
    let rest ← entries p n (i + 1 + bs.length)
    pure (⟨bs⟩ :: rest)

/-- Reads a list in the layout with a length before each identifier. -/
def decode (p : Bytes) : Except Fault (List Uid) := do
  let n ← Payload.byte p 0
  entries p n.toNat 1

/-- The length of an identifier in the other layout. -/
def fixedLength : Nat := 8

/-- A list in the layout with identifiers of eight bytes. -/
def encodeFixed (uids : List (Octets fixedLength)) : Bytes :=
  UInt8.ofNat uids.length :: uids.flatMap Octets.bytes

/-- Reads a list in the layout with identifiers of eight bytes. -/
def decodeFixed (p : Bytes) : Except Fault (List Uid) := do
  let n ← Payload.byte p 0
  (List.range n.toNat).mapM fun i => do
    let bs ← Payload.slice p (1 + i * fixedLength) fixedLength
    pure ⟨bs⟩

end TagList
end TagReader
