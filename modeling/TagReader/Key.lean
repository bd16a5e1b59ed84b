/-
# Keys of MIFARE Classic tags

A sector of a Classic tag has two keys of six bytes, A and B.  A key is sent along with a
command or lies in one of the 32 slots of the reader's EEPROM.
-/
import TagReader.Fault

namespace TagReader

/-- A key of six bytes. -/
abbrev SectorKey : Type := Octets 6

namespace SectorKey

/-- The key that tags leave the factory with. -/
def factory : SectorKey := Octets.fill 6 0xFF

/-- Six bytes as a key. -/
def ofBytes (bs : Bytes) : Except Fault SectorKey :=
  match Octets.ofBytes? 6 bs with
  | some k => .ok k
  | none => .error (.validation s!"key must be 6 bytes, got {bs.length}")

end SectorKey

/-- A slot of the reader's EEPROM for a key. -/
structure KeySlot where
  /-- The number of the slot. -/
  index : UInt8
  /-- There are slots up to number 31. -/
  index_le : index ≤ 31
deriving DecidableEq

/-- The slot with a given number. -/
def KeySlot.ofIndex (index : UInt8) : Except Fault KeySlot :=
  if h : index ≤ 31 then .ok ⟨index, h⟩
  else .error (.validation s!"eeprom key index {index.toNat} out of range 0..=31")

/-- Which of the two keys of a sector. -/
inductive KeySide where
  | a
  | b
deriving DecidableEq

/-- How a key is called in notes. -/
def KeySide.label : KeySide → String
  | a => "key A"
  | b => "key B"

/-- Where the reader takes a key from. -/
inductive KeySource where
  /-- The key comes with the command. -/
  | explicit (key : SectorKey)
  /-- The key lies in the reader's EEPROM. -/
  | stored (slot : KeySlot)
deriving DecidableEq

end TagReader
