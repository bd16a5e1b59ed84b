/-
# ISO15693 tags

The standard commands for tags of the vicinity range.  All of them but the inventory are
addressed: they carry the identifier of the tag, which always has eight bytes.
-/
import TagReader.SystemInformation
import TagReader.TagList
import TagReader.Talk

namespace TagReader
namespace Iso15693

/-- The identifier of a tag of this standard. -/
abbrev Address : Type := Octets 8

/-- An identifier as an address. -/
def address (uid : Uid) : Except Fault Address :=
  match Octets.ofBytes? 8 uid.bytes with
  | some a => .ok a
  | none => .error (.validation s!"iso15693 uid must be 8 bytes, got {uid.bytes.length}")

/-- The request mode of commands to one tag. -/
def addressed : UInt8 := 0xA0

/-- The request mode of commands to whatever tag is there. -/
def unaddressed : UInt8 := 0x80

/-- The commands for these tags. -/
inductive Request where
  /-- List the tags in the field. -/
  | inventory
  /-- Silence a tag. -/
  | stayQuiet (tag : Address)
  /-- Read a block. -/
  | readBlock (tag : Address) (block : UInt8)
  /-- Write a block. -/
  | writeBlock (tag : Address) (block : UInt8) (data : Bytes)
  /-- Make a block read only. -/
  | lockBlock (tag : Address) (block : UInt8)
  /-- Read several blocks; their number is given less one. -/
  | readBlocks (tag : Address) (first further : UInt8)
  /-- What the tag knows about itself. -/
  | systemInformation (tag : Address)
deriving DecidableEq

/-- The control byte of these commands. -/
def control : UInt8 := 0xB0

/-- A command to one tag. -/
def command (code : UInt8) (tag : Address) : Command := ⟨control, addressed, code :: tag.bytes⟩

/-- The command for a request. -/
def Request.command : Request → Command
  | inventory => ⟨control, unaddressed, [0x01]⟩
  | stayQuiet tag => Iso15693.command 0x02 tag
  | readBlock tag block => (Iso15693.command 0x20 tag).byte block
  | writeBlock tag block data => ((Iso15693.command 0x21 tag).byte block).bytes data
  | lockBlock tag block => (Iso15693.command 0x22 tag).byte block
  | readBlocks tag first further => ((Iso15693.command 0x23 tag).byte first).byte further
  | systemInformation tag => Iso15693.command 0x2B tag

/-- An identifier as an address, before anything is asked. -/
def addressing (uid : Uid) : Talk Address := Dialogue.ofExcept (address uid)

/-- The identifiers of the tags in the field, least significant byte first. -/
def inventory : Talk (List Uid) := do
  match ← Talk.exchangeOptional Request.inventory.command with
  | some p => Dialogue.ofExcept (TagList.decodeFixed p)
  | none => pure []

/-- Silences a tag until the field is reset. -/
def stayQuiet (uid : Uid) : Talk Unit := do
  let tag ← addressing uid
  Talk.order (Request.stayQuiet tag).command

/-- The contents of a block. -/
def readBlock (uid : Uid) (block : UInt8) : Talk Bytes := do
  let tag ← addressing uid
  Talk.exchange (Request.readBlock tag block).command

/-- The most bytes that a block of any tag has. -/
def maxBlockSize : Nat := 32

/-- Writes a block. -/
def writeBlock (uid : Uid) (block : UInt8) (data : Bytes) : Talk Unit := do
  if data.isEmpty ∨ maxBlockSize < data.length then
    .fail (.validation s!"block data must be 1..={maxBlockSize} bytes, got {data.length}")
  let tag ← addressing uid
  Talk.order (Request.writeBlock tag block data).command

/-- Makes a block read only for ever. -/
def lockBlock (uid : Uid) (block : UInt8) : Talk Unit := do
  let tag ← addressing uid
  Talk.order (Request.lockBlock tag block).command

/-- Reads `n` blocks from `first` on, at least one and at most 256. -/
def readBlocks (uid : Uid) (first : UInt8) (n : Nat) : Talk Bytes := do
  if n < 1 ∨ 256 < n then
    .fail (.validation s!"block count must be 1..=256, got {n}")
  let tag ← addressing uid
  Talk.exchange (Request.readBlocks tag first (UInt8.ofNat (n - 1))).command

/-- What a tag knows about itself. -/
def systemInformation (uid : Uid) : Talk SystemInformation := do
  let tag ← addressing uid
  let p ← Talk.exchange (Request.systemInformation tag).command
  Dialogue.ofExcept (SystemInformation.decode p)

end Iso15693
end TagReader
