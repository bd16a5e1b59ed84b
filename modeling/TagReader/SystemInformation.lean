/-
# System information of ISO15693 tags

A tag reports its identifier and, as far as it knows them, some facts about itself.  A byte
of flags in front says which of them follow: the data storage format, the application family,
the size of the memory and the reference of the chip, in this order.  The memory is given as
the number of blocks less one and the size of a block less one.
-/
import TagReader.Payload
import TagReader.Uid

namespace TagReader

/-- The size of a tag's memory. -/
structure MemorySize where
  /-- The number of blocks, less one. -/
  lastBlock : UInt8
  /-- The bytes of a block, less one; only the low five bits count. -/
  lastByte : UInt8
deriving DecidableEq

namespace MemorySize

/-- The number of blocks. -/
def blocks (m : MemorySize) : Nat := m.lastBlock.toNat + 1

/-- The number of bytes of a block. -/
def blockSize (m : MemorySize) : Nat := (m.lastByte &&& 0x1F).toNat + 1

end MemorySize

/-- What a tag reports about itself. -/
structure SystemInformation where
  /-- Its identifier, least significant byte first. -/
  uid : Uid
  /-- The identifier of the data storage format. -/
  storageFormat : Option UInt8
  /-- The identifier of the application family. -/
  family : Option UInt8
  /-- The size of the memory. -/
  memory : Option MemorySize
  /-- The reference of the chip. -/
  reference : Option UInt8
deriving DecidableEq

namespace SystemInformation

/-- The number of bytes of the identifier. -/
def uidLength : Nat := 8

/-- Reads one byte at `i` if it is there by the flags, and says where the next field is. -/
def field (p : Bytes) (present : Bool) (i : Nat) : Except Fault (Option UInt8 × Nat) :=
  if present then do
    let b ← Payload.byte p i
    pure (some b, i + 1)
  else pure (none, i)

/-- Reads a report. -/
def decode (p : Bytes) : Except Fault SystemInformation := do
  let flags ← Payload.byte p 0
  let uid ← Payload.slice p 1 uidLength
  let has := fun (bit : UInt8) => flags &&& bit != 0
  let (storageFormat, i) ← field p (has 0x01) (1 + uidLength)
  let (family, i) ← field p (has 0x02) i
  let (lastBlock, i) ← field p (has 0x04) i
  let (lastByte, i) ← field p (has 0x04) i
  let (reference, _) ← field p (has 0x08) i
  let memory := do some ⟨← lastBlock, ← lastByte⟩
  pure ⟨⟨uid⟩, storageFormat, family, memory, reference⟩

/-- The flags that say which fields follow; `reserved` gives the four bits without a meaning. -/
def flags (info : SystemInformation) (reserved : UInt8) : UInt8 :=
  (reserved &&& 0xF0) ||| (if info.storageFormat.isSome then 0x01 else 0) |||
    (if info.family.isSome then 0x02 else 0) ||| (if info.memory.isSome then 0x04 else 0) |||
    (if info.reference.isSome then 0x08 else 0)

/-- The report that says this. -/
def encode (info : SystemInformation) (reserved : UInt8) : Bytes :=
  info.flags reserved :: info.uid.bytes ++ info.storageFormat.toList ++ info.family.toList ++
    (info.memory.map fun m => [m.lastBlock, m.lastByte]).getD [] ++ info.reference.toList

end SystemInformation
end TagReader
