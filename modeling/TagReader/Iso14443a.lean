/-
# ISO14443A tags

The commands for tags of this standard, with the primitives for MIFARE Classic tags that a
reader offers at this level: keys, authentication, blocks and value operations.  Raw messages
can be passed through to the active tag at two layers of the standard.
-/
import TagReader.Activation
import TagReader.Key
import TagReader.TagList
import TagReader.Talk
import TagReader.UltralightC.Handshake

namespace TagReader
namespace Iso14443a

/-- A change of a value block. -/
inductive Change where
  | increment
  | decrement
deriving DecidableEq

/-- The layer at which a raw message is passed through. -/
inductive Layer where
  /-- ISO14443-3 frames. -/
  | three
  /-- ISO14443-4 blocks. -/
  | four
deriving DecidableEq

/-- The commands for these tags. -/
inductive Request where
  /-- Activate an idle tag. -/
  | activateIdle
  /-- Wake up and activate a tag. -/
  | activateWakeup (uid : Uid)
  /-- Load a key that comes along. -/
  | loadKey (key : SectorKey)
  /-- Load a key from the EEPROM. -/
  | loadStoredKey (slot : KeySlot)
  /-- Store a key in the EEPROM. -/
  | storeKey (slot : KeySlot) (key : SectorKey)
  /-- Authenticate a block with the loaded key. -/
  | authenticate (side : KeySide) (block : UInt8) (uid : Uid)
  /-- Read a block of 16 bytes. -/
  | readBlock (block : UInt8)
  /-- Write a block of 16 bytes. -/
  | writeBlock (block : UInt8) (data : Octets 16)
  /-- Write a page of 4 bytes. -/
  | writePage (page : UInt8) (data : Octets 4)
  /-- Change a value block; the result stays in the tag's buffer unless it is to be stored. -/
  | changeValue (change : Change) (store : Bool) (block : UInt8) (amount : Int32)
  /-- Store the tag's buffer. -/
  | transfer (block : UInt8)
  /-- Put the tag to sleep. -/
  | halt
  /-- List the tags in the field. -/
  | listCards
  /-- Ask for idle tags. -/
  | reqA
  /-- Ask for all tags. -/
  | wupA
  /-- First level anticollision. -/
  | anticollision
  /-- First level select. -/
  | select (uid : Octets 4)
  /-- Ask for the answer to select. -/
  | rats
  /-- Pass a raw message through. -/
  | passThrough (layer : Layer) (message : Bytes) (short : message.length < 256)
deriving DecidableEq

/-- The control byte of these commands. -/
def control : UInt8 := 0xA0

/-- A command of this family. -/
def command (code : UInt8) : Command := ⟨control, code, []⟩

/-- The command for a request. -/
def Request.command : Request → Command
  | activateIdle => Iso14443a.command 0x90
  | activateWakeup uid => (Iso14443a.command 0x91).bytes uid.bytes
  | loadKey key => (Iso14443a.command 0x19).bytes key.bytes
  | loadStoredKey slot => (Iso14443a.command 0x0B).byte slot.index
  | storeKey slot key => ((Iso14443a.command 0x0C).byte slot.index).bytes key.bytes
  | authenticate .a block uid => ((Iso14443a.command 0x60).byte block).bytes uid.bytes
  | authenticate .b block uid => ((Iso14443a.command 0x61).byte block).bytes uid.bytes
  | readBlock block => (Iso14443a.command 0x30).byte block
  | writeBlock block data => ((Iso14443a.command 0xA0).byte block).bytes data.bytes
  | writePage page data => ((Iso14443a.command 0xA2).byte page).bytes data.bytes
  | changeValue change store block amount =>
    let code := match change with
      | .increment => 0xC1
      | .decrement => 0xC0
    (((Iso14443a.command code).byte (if store then 0x00 else 0x01)).byte block).int32 amount
  | transfer block => (Iso14443a.command 0xB0).byte block
  | halt => Iso14443a.command 0x50
  | listCards => Iso14443a.command 0xD0
  | reqA => Iso14443a.command 0x26
  | wupA => Iso14443a.command 0x52
  | anticollision => (Iso14443a.command 0x93).byte 0x00
  | select uid => ((Iso14443a.command 0x93).byte 0x70).bytes uid.bytes
  | rats => Iso14443a.command 0xE0
  | passThrough .three message _ => (Iso14443a.command 0xD1).counted message
  | passThrough .four message _ => (Iso14443a.command 0xD2).counted message

/-! ## Finding and activating tags -/

/-- Activates an idle tag; none if no tag answers. -/
def activateIdle : Talk (Option Target) := do
  let p ← Talk.exchangeOptional Request.activateIdle.command
  Talk.decoded Target.ofReport p

/-- Wakes up and activates the halted tag with an identifier; none if it does not answer. -/
def activateWakeup (uid : Uid) : Talk (Option Target) := do
  let p ← Talk.exchangeOptional (Request.activateWakeup uid).command
  Talk.decoded Target.ofReport p

/-- The identifiers of the tags in the field. -/
def showCards : Talk (List Uid) := do
  match ← Talk.exchangeOptional Request.listCards.command with
  | some p => Dialogue.ofExcept (TagList.decode p)
  | none => pure []

/-- Whether an idle tag answers. -/
def reqA : Talk Bool := do
  let p ← Talk.exchangeOptional Request.reqA.command
  pure p.isSome

/-- What the tags in the field answer; none if no tag does. -/
def wupA : Talk (Option Atqa) := do
  let p ← Talk.exchangeOptional Request.wupA.command
  Talk.decoded (fun p => do Atqa.ofBytes (← Payload.slice p 0 2)) p

/-- The exclusive or of the bytes of an identifier, which follows it on the air. -/
def checkByte (uid : Octets 4) : UInt8 := uid.bytes.foldl (· ^^^ ·) 0

/-- Reads the result of an anticollision: four bytes, and their check byte if it is there. -/
def decodeAnticollision (p : Bytes) : Except Fault (Octets 4) := do
  let uid ← Payload.octets 4 p 0
  match p[4]? with
  | some bcc =>
    if bcc ≠ checkByte uid then
      throw (.format
        ("bcc mismatch: expected " ++ Hex.code (checkByte uid) ++ ", got " ++ Hex.code bcc))
    pure uid
  | none => pure uid

/-- First level anticollision: four bytes of the identifier. -/
def anticollision : Talk (Octets 4) := do
  let p ← Talk.exchange Request.anticollision.command
  Dialogue.ofExcept (decodeAnticollision p)

/-- First level select: the select acknowledge. -/
def select (uid : Octets 4) : Talk UInt8 := do
  let p ← Talk.exchange (Request.select uid).command
  Dialogue.ofExcept (Payload.byte p 0)

/-- Reads an answer to select, which counts itself in its first byte. -/
def decodeAts (p : Bytes) : Except Fault Bytes := do
  let len ← Payload.byte p 0
  Payload.slice p 0 len.toNat

/-- The answer to select. -/
def rats : Talk Bytes := do
  let p ← Talk.exchange Request.rats.command
  Dialogue.ofExcept (decodeAts p)

/-- Puts the active tag to sleep. -/
def halt : Talk Unit := Talk.order Request.halt.command

/-! ## Blocks, pages and values -/

/-- The fault for data of a wrong size. -/
def wrongSize (expected : Nat) (data : Bytes) : Fault :=
  .validation s!"data must be {expected} bytes long, got {data.length}"

/-- Reads a block of 16 bytes. -/
def readBlock (block : UInt8) : Talk (Octets 16) := do
  let p ← Talk.exchange (Request.readBlock block).command
  Dialogue.ofExcept (Payload.octets 16 p 0)

/-- Writes a block of 16 bytes. -/
def writeBlock (data : Bytes) (block : UInt8) : Talk Unit :=
  match Octets.ofBytes? 16 data with
  | some d => Talk.order (Request.writeBlock block d).command
  | none => .fail (wrongSize 16 data)

/-- Writes a page of 4 bytes. -/
def writePage (data : Bytes) (page : UInt8) : Talk Unit :=
  match Octets.ofBytes? 4 data with
  | some d => Talk.order (Request.writePage page d).command
  | none => .fail (wrongSize 4 data)

/-- Changes a value block. -/
def changeValue (change : Change) (amount : Int32) (block : UInt8) (store : Bool) : Talk Unit :=
  Talk.order (Request.changeValue change store block amount).command

/-- Stores the tag's buffer in a block. -/
def transfer (block : UInt8) : Talk Unit := Talk.order (Request.transfer block).command

/-! ## Keys -/

/-- Loads a key into the reader's key register. -/
def loadKey (source : KeySource) : Talk Unit :=
  match source with
  | .explicit key => Talk.order (Request.loadKey key).command
  | .stored slot => Talk.order (Request.loadStoredKey slot).command

/-- Stores a key in the reader's EEPROM. -/
def storeKey (slot : KeySlot) (key : SectorKey) : Talk Unit :=
  Talk.order (Request.storeKey slot key).command

/-- Authenticates a block of a Classic tag: loads the key, then authenticates with it.  These
are two exchanges. -/
def authenticate (side : KeySide) (uid : Uid) (source : KeySource) (block : UInt8) :
    Talk Unit := do
  loadKey source
  Dialogue.say .debug
    (s!"authenticate block {block.toNat} of " ++ uid.display ++ " with " ++ side.label)
  Talk.order (Request.authenticate side block uid).command

/-! ## Raw messages -/

/-- Passes a raw message through to the active tag and yields its answer. -/
def passThrough (layer : Layer) (message : Bytes) : Talk Bytes :=
  if h : message.length < 256 then do
    let p ← Talk.exchange (Request.passThrough layer message h).command
    Dialogue.ofExcept (Payload.prefixed p 0)
  else .fail (Command.uncountable message)

/-- One try of the Ultralight C authentication with the active tag. -/
def authenticateUltralightC (s : UltralightC.Session) (nonce : Block) : Talk Bool :=
  (s.attempt nonce).expand (passThrough .three)

end Iso14443a
end TagReader
