/-
# ISO14443B tags

The request of the standard, and the commands of ST for their SR176 and SRIX tags.

A session with tags of ST remembers two things.  The chip number of the tag that was selected
last is needed to set its lock register.  The size of a block, two bytes on an SR176 and four
on an SRIX, cannot be asked for: a write tries the size that was right last time, and after a
refusal by the reader the other one, which it then remembers.
-/
import TagReader.Talk
import TagReader.Uid

namespace TagReader

/-- A tag's answer to the request of ISO14443B. -/
structure Atqb where
  /-- The pseudo-unique identifier. -/
  pupi : Octets 4
  /-- Application data. -/
  applicationData : Octets 4
  /-- Protocol info. -/
  protocolInfo : Octets 3
deriving DecidableEq

/-- Reads an answer: 0x50, identifier, application data, protocol info. -/
def Atqb.ofBytes (p : Bytes) : Except Fault Atqb := do
  Payload.ensure p 12
  let first ← Payload.byte p 0
  if first ≠ 0x50 then
    throw (.format ("atqb must start with 0x50, got " ++ Hex.code first))
  pure ⟨← Payload.octets 4 p 1, ← Payload.octets 4 p 5, ← Payload.octets 3 p 9⟩

namespace Iso14443b

/-- The two sizes of a block on tags of ST. -/
inductive BlockSize where
  /-- Two bytes, on an SR176. -/
  | two
  /-- Four bytes, on an SRIX. -/
  | four
deriving DecidableEq

namespace BlockSize

/-- The size as a byte. -/
def byte : BlockSize → UInt8
  | two => 2
  | four => 4

/-- The other size. -/
def other : BlockSize → BlockSize
  | two => four
  | four => two

end BlockSize

/-- The commands for these tags. -/
inductive Request where
  /-- Ask for tags of an application family, zero for all. -/
  | reqB (family : UInt8)
  /-- Select a tag of ST. -/
  | select
  /-- The identifier of an SRIX. -/
  | uid
  /-- Read blocks. -/
  | read (first n : UInt8)
  /-- Write blocks; the data are cut or padded to the blocks. -/
  | write (first n : UInt8) (size : BlockSize) (data : Bytes)
  /-- Deactivate the tag. -/
  | completion
  /-- Read the lock register. -/
  | protection
  /-- Write the lock register of a chip. -/
  | protect (chip lock : UInt8)
deriving DecidableEq

/-- The control byte of the standard's own commands. -/
def control : UInt8 := 0xC0

/-- The control byte of the commands of ST. -/
def controlSt : UInt8 := 0xC1

/-- A command of ST: all of them share a code and differ in the first parameter. -/
def commandSt (code : UInt8) : Command := ⟨controlSt, 0x02, [code]⟩

/-- The bytes that a write of `n` blocks carries. -/
def blockData (n : UInt8) (size : BlockSize) (data : Bytes) : Bytes :=
  Bytes.fit (n.toNat * size.byte.toNat) data

/-- The command for a request. -/
def Request.command : Request → Command
  | reqB family => ⟨control, 0x05, [family]⟩
  | select => commandSt 0x0E
  | uid => commandSt 0x0B
  | read first n => ((commandSt 0x88).byte first).byte n
  | write first n size data =>
    ((((commandSt 0x89).byte first).byte n).byte size.byte).bytes (blockData n size data)
  | completion => commandSt 0x0F
  | protection => commandSt 0x18
  | protect chip lock => ((commandSt 0x19).byte chip).byte lock

/-- What is remembered of the tags seen so far. -/
structure Session where
  /-- The chip number of the tag that was selected last. -/
  chip : Option UInt8 := none
  /-- The size that a write tries first. -/
  size : BlockSize := .two
deriving DecidableEq

namespace Session

/-- Whether the last write that went through was to an SRIX. -/
def isSrix (s : Session) : Bool := s.size == .four

/-- Selects a tag of ST; yields its chip number, or none if no tag answers. -/
def select (s : Session) : Talk (Option UInt8 × Session) := do
  let p ← Talk.exchangeOptional Request.select.command
  match ← Talk.decoded (Payload.byte · 0) p with
  | some chip => pure (some chip, { s with chip := some chip })
  | none => pure (none, s)

/-- One write with blocks of a given size. -/
def writeCall (first n : UInt8) (size : BlockSize) (data : Bytes) : Call :=
  ⟨(Request.write first n size data).command, none⟩

/-- The note that a write is tried with the other size. -/
def otherSizeText (size : BlockSize) (status : UInt8) : String :=
  s!"st write with {size.byte.toNat} byte blocks failed (" ++ Hex.code status ++
    s!"), trying {size.other.byte.toNat}"

/-- Writes `n` blocks from `first` on. -/
def write (s : Session) (first n : UInt8) (data : Bytes) : Talk Session :=
  .ask (writeCall first n s.size data) fun
    | .ok _ => .done s
    | .error (.readerStatus status) =>
      .note ⟨.debug, otherSizeText s.size status⟩ <|
        .ask (writeCall first n s.size.other data) fun
          | .ok _ => .done { s with size := s.size.other }
          | .error f => .fail f
    | .error f => .fail f

/-- Writes the lock register of the tag that was selected last. -/
def protect (s : Session) (lock : UInt8) : Talk Unit :=
  match s.chip with
  | some chip => Talk.order (Request.protect chip lock).command
  | none => .fail (.validation "no st tag selected")

end Session

/-- Asks for tags of an application family; none if no tag answers. -/
def reqB (family : UInt8) : Talk (Option Atqb) := do
  let p ← Talk.exchangeOptional (Request.reqB family).command
  Talk.decoded Atqb.ofBytes p

/-- Reads the reply to a read of `n` blocks, which begins with the size of a block. -/
def decodeBlocks (n : UInt8) (p : Bytes) : Except Fault Bytes := do
  let size ← Payload.byte p 0
  Payload.slice p 1 (size.toNat * n.toNat)

/-- Reads `n` blocks from `first` on. -/
def read (first n : UInt8) : Talk Bytes := do
  let p ← Talk.exchange (Request.read first n).command
  Dialogue.ofExcept (decodeBlocks n p)

/-- The identifier of an SRIX; none for tags without that command. -/
def getUid : Talk (Option Uid) := do
  let p ← Talk.exchangeOptional Request.uid.command
  Talk.decoded (fun p => do pure ⟨← Payload.prefixed p 0⟩) p

/-- The identifier of an SRIX, or the first four blocks of an SR176 in its place; none if the
reader refuses both. -/
def readUid : Talk (Option Uid) := do
  match ← getUid with
  | some uid => pure (some uid)
  | none =>
    .ask ⟨(Request.read 0 4).command, none⟩ fun
      | .ok p => do
        let bs ← (Dialogue.ofExcept (decodeBlocks 4 p) : Talk Bytes)
        pure (some ⟨bs⟩)
      | .error (.readerStatus _) => .done none
      | .error f => .fail f

/-- Deactivates the tag. -/
def completion : Talk Unit := Talk.order Request.completion.command

/-- The lock register, the second byte of the reply. -/
def protection : Talk UInt8 := do
  let p ← Talk.exchange Request.protection.command
  Dialogue.ofExcept (Payload.byte p 1)

end Iso14443b
end TagReader
