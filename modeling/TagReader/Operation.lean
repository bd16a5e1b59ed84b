/-
# All operations

Everything that a caller can ask of a reader, as a value: one type of operations for each
command family, and `Operation` for all of them.  What an operation yields is a `Finding`.

`Operation.talk` gives the dialogue of an operation.  The one thing that outlives an
operation is the session with tags of ST, so the dialogue starts from such a session and
yields the one to go on with; an operation that fails leaves it as it was
(`Operation.perform`).
-/
import TagReader.Icode
import TagReader.Iso14443b
import TagReader.Mifare.Macros
import TagReader.Picopass
import TagReader.Reader

namespace TagReader

/-- What an operation yields. -/
inductive Finding where
  /-- It is done. -/
  | done
  /-- There is nothing there. -/
  | nothing
  | flag (b : Bool)
  | number (n : Nat)
  | bytes (bs : Bytes)
  | uid (u : Uid)
  | uids (us : List Uid)
  | target (t : Target)
  | atqa (a : Atqa)
  | atqb (a : Atqb)
  | version (v : FirmwareVersion)
  | information (i : SystemInformation)

/-- A finding, or nothing. -/
def Finding.ofOption {α : Type} (f : α → Finding) : Option α → Finding
  | some a => f a
  | none => nothing

/-- Operations on the reader itself, and plain exchanges. -/
inductive ReaderOperation where
  | exchange (c : Command)
  | exchangeOptional (c : Command)
  | exchangeWithin (c : Command) (bound : Nat)
  | exchangeBytes (body : Bytes)
  | versionBytes
  | version
  | probe
  | serial

/-- Operations on ISO14443A tags. -/
inductive Iso14443aOperation where
  | activateIdle
  | activateWakeup (uid : Uid)
  | showCards
  | readBlock (block : UInt8)
  | writeBlock (data : Bytes) (block : UInt8)
  | writePage (data : Bytes) (page : UInt8)
  | changeValue (change : Iso14443a.Change) (amount : Int32) (block : UInt8) (store : Bool)
  | transfer (block : UInt8)
  | halt
  | loadKey (source : KeySource)
  | storeKey (slot : KeySlot) (key : SectorKey)
  | authenticate (side : KeySide) (uid : Uid) (source : KeySource) (block : UInt8)
  | reqA
  | wupA
  | anticollision
  | select (uid : Octets 4)
  | rats
  | passThrough (layer : Iso14443a.Layer) (message : Bytes)
  | authenticateUltralightC (session : UltralightC.Session) (nonce : Block)

/-- Operations on ISO14443B tags. -/
inductive Iso14443bOperation where
  | reqB (family : UInt8)
  | select
  | read (first n : UInt8)
  | getUid
  | readUid
  | write (first n : UInt8) (data : Bytes)
  | completion
  | protect (lock : UInt8)
  | protection

/-- Operations on ISO15693 tags. -/
inductive Iso15693Operation where
  | inventory
  | stayQuiet (uid : Uid)
  | readBlock (uid : Uid) (block : UInt8)
  | writeBlock (uid : Uid) (block : UInt8) (data : Bytes)
  | lockBlock (uid : Uid) (block : UInt8)
  | readBlocks (uid : Uid) (first : UInt8) (n : Nat)
  | systemInformation (uid : Uid)

/-- Operations on ICODE tags. -/
inductive IcodeOperation where
  | randomNumber (uid : Option Uid)
  | setPassword (uid : Option Uid) (id : Icode.PasswordId) (password : Bytes)
  | writePassword (uid : Uid) (id : Icode.PasswordId) (password : Bytes)
  | lockPassword (uid : Uid) (id : Icode.PasswordId)
  | joinPasswords (uid : Uid)
  | protectPage (uid : Uid) (page : UInt8) (protection : Icode.Protection)
  | lockPage (uid : Uid) (page : UInt8)
  | blockStatus (uid : Uid) (first n : UInt8)
  | destroy (uid : Uid)
  | hide (uid : Uid)

/-- Operations on Picopass cards. -/
inductive PicopassOperation where
  | getUid
  | cards

/-- MIFARE macros. -/
inductive MifareOperation where
  | readUltralight (offset len : Nat)
  | readUltralightAll
  | readUltralightUserData
  | readUltralightC (first n : UInt8) (options : Mifare.Options)
  | readUltralightCUserData
  | writeUltralight (data : Bytes) (mask : UInt16)
  | writeUltralightUserData (data : Bytes)
  | writeUltralightC (data : Bytes) (first n : UInt8) (options : Mifare.Options)
  | writeUltralightCUserData (data : Bytes)
  | readSector (sector : UInt8) (auth : Mifare.SectorAuth) (mask : UInt16)
  | writeSector (data : Bytes) (sector : UInt8) (auth : Mifare.SectorAuth) (mask : UInt16)
  | writeTrailers (mask : UInt64) (trailers : List (Octets 16))
  | authenticateUltralightC (key : Bytes) (nonce : Block)

/-- Everything that a caller can ask. -/
inductive Operation where
  | reader (op : ReaderOperation)
  | iso14443a (op : Iso14443aOperation)
  | iso14443b (op : Iso14443bOperation)
  | iso15693 (op : Iso15693Operation)
  | icode (op : IcodeOperation)
  | picopass (op : PicopassOperation)
  | mifare (op : MifareOperation)

/-! ## The dialogue of an operation -/

namespace Talk

variable {α : Type}

/-- A dialogue whose value is wrapped as a finding. -/
def find (f : α → Finding) (t : Talk α) : Talk Finding := f <$> t

/-- A dialogue of which only the end matters. -/
def finish (t : Talk Unit) : Talk Finding := t.find fun _ => .done

/-- A dialogue whose value may be missing. -/
def findOption (f : α → Finding) (t : Talk (Option α)) : Talk Finding := t.find (.ofOption f)

end Talk

/-- The dialogue of an operation on the reader itself. -/
def ReaderOperation.talk : ReaderOperation → Talk Finding
  | exchange c => (Talk.exchange c).find .bytes
  | exchangeOptional c => (Talk.exchangeOptional c).findOption .bytes
  | exchangeWithin c bound => (Talk.exchangeWithin bound c).find .bytes
  | exchangeBytes body => (Reader.exchangeBytes body).find .bytes
  | versionBytes => Reader.versionBytes.find .bytes
  | version => Reader.version.find .version
  | probe => Reader.probe.find .version
  | serial => Reader.serial.find .uid

/-- The dialogue of an operation on ISO14443A tags. -/
def Iso14443aOperation.talk : Iso14443aOperation → Talk Finding
  | activateIdle => Iso14443a.activateIdle.findOption .target
  | activateWakeup uid => (Iso14443a.activateWakeup uid).findOption .target
  | showCards => Iso14443a.showCards.find .uids
  | readBlock block => (Iso14443a.readBlock block).find fun o => .bytes o.bytes
  | writeBlock data block => (Iso14443a.writeBlock data block).finish
  | writePage data page => (Iso14443a.writePage data page).finish
  | changeValue change amount block store =>
    (Iso14443a.changeValue change amount block store).finish
  | transfer block => (Iso14443a.transfer block).finish
  | halt => Iso14443a.halt.finish
  | loadKey source => (Iso14443a.loadKey source).finish
  | storeKey slot key => (Iso14443a.storeKey slot key).finish
  | authenticate side uid source block => (Iso14443a.authenticate side uid source block).finish
  | reqA => Iso14443a.reqA.find .flag
  | wupA => Iso14443a.wupA.findOption .atqa
  | anticollision => Iso14443a.anticollision.find fun o => .bytes o.bytes
  | select uid => (Iso14443a.select uid).find fun sak => .number sak.toNat
  | rats => Iso14443a.rats.find .bytes
  | passThrough layer message => (Iso14443a.passThrough layer message).find .bytes
  | authenticateUltralightC session nonce =>
    (Iso14443a.authenticateUltralightC session nonce).find .flag

/-- The dialogue of an operation on ISO14443B tags, and the session to go on with. -/
def Iso14443bOperation.talk (s : Iso14443b.Session) :
    Iso14443bOperation → Talk (Finding × Iso14443b.Session)
  | reqB family => do pure (← (Iso14443b.reqB family).findOption .atqb, s)
  | select => do
    let (chip, s) ← s.select
    pure (.ofOption (fun c => .number c.toNat) chip, s)
  | read first n => do pure (← (Iso14443b.read first n).find .bytes, s)
  | getUid => do pure (← Iso14443b.getUid.findOption .uid, s)
  | readUid => do pure (← Iso14443b.readUid.findOption .uid, s)
  | write first n data => do pure (.done, ← s.write first n data)
  | completion => do pure (← Iso14443b.completion.finish, s)
  | protect lock => do pure (← (s.protect lock).finish, s)
  | protection => do pure (← Iso14443b.protection.find fun b => .number b.toNat, s)

/-- The dialogue of an operation on ISO15693 tags. -/
def Iso15693Operation.talk : Iso15693Operation → Talk Finding
  | inventory => Iso15693.inventory.find .uids
  | stayQuiet uid => (Iso15693.stayQuiet uid).finish
  | readBlock uid block => (Iso15693.readBlock uid block).find .bytes
  | writeBlock uid block data => (Iso15693.writeBlock uid block data).finish
  | lockBlock uid block => (Iso15693.lockBlock uid block).finish
  | readBlocks uid first n => (Iso15693.readBlocks uid first n).find .bytes
  | systemInformation uid => (Iso15693.systemInformation uid).find .information

/-- The dialogue of an operation on ICODE tags. -/
def IcodeOperation.talk : IcodeOperation → Talk Finding
  | randomNumber uid => (Icode.randomNumber uid).find fun w => .number w.toNat
  | setPassword uid id password => (Icode.setPassword uid id password).finish
  | writePassword uid id password => (Icode.writePassword uid id password).finish
  | lockPassword uid id => (Icode.lockPassword uid id).finish
  | joinPasswords uid => (Icode.joinPasswords uid).finish
  | protectPage uid page protection => (Icode.protectPage uid page protection).finish
  | lockPage uid page => (Icode.lockPage uid page).finish
  | blockStatus uid first n => (Icode.blockStatus uid first n).find .bytes
  | destroy uid => (Icode.destroy uid).finish
  | hide uid => (Icode.hide uid).finish

/-- The dialogue of an operation on Picopass cards. -/
def PicopassOperation.talk : PicopassOperation → Talk Finding
  | getUid => Picopass.getUid.findOption .uid
  | cards => Picopass.cards.find .uids

/-- The dialogue of a MIFARE macro. -/
def MifareOperation.talk : MifareOperation → Talk Finding
  | readUltralight offset len => (Mifare.readUltralight offset len).find .bytes
  | readUltralightAll => Mifare.readUltralightAll.find .bytes
  | readUltralightUserData => Mifare.readUltralightUserData.find .bytes
  | readUltralightC first n options => (Mifare.readUltralightC first n options).find .bytes
  | readUltralightCUserData => Mifare.readUltralightCUserData.find .bytes
  | writeUltralight data mask => (Mifare.writeUltralight data mask).find .uid
  | writeUltralightUserData data => (Mifare.writeUltralightUserData data).find .uid
  | writeUltralightC data first n options =>
    (Mifare.writeUltralightC data first n options).find .uid
  | writeUltralightCUserData data => (Mifare.writeUltralightCUserData data).find .uid
  | readSector sector auth mask => (Mifare.readSector sector auth mask).find .bytes
  | writeSector data sector auth mask => (Mifare.writeSector data sector auth mask).find .uid
  | writeTrailers mask trailers => (Mifare.writeTrailers mask trailers).find .uid
  | authenticateUltralightC key nonce => (Mifare.authenticateUltralightC key nonce).find .flag

namespace Operation

/-- The dialogue of an operation, from a session with tags of ST to the next one. -/
def talk (s : Iso14443b.Session) : Operation → Talk (Finding × Iso14443b.Session)
  | reader op => do pure (← op.talk, s)
  | iso14443a op => do pure (← op.talk, s)
  | iso14443b op => op.talk s
  | iso15693 op => do pure (← op.talk, s)
  | icode op => do pure (← op.talk, s)
  | picopass op => do pure (← op.talk, s)
  | mifare op => do pure (← op.talk, s)

/-- Performs an operation over an engine.  A failed one leaves the session as it was. -/
def perform {σ : Type} (e : Engine σ) (op : Operation) (s : Iso14443b.Session) (t : σ) :
    Outcome σ Finding × Iso14443b.Session :=
  match e.conduct (op.talk s) t with
  | ⟨.ok (finding, s'), t', notes⟩ => (⟨.ok finding, t', notes⟩, s')
  | ⟨.error f, t', notes⟩ => (⟨.error f, t', notes⟩, s)

end Operation
end TagReader
