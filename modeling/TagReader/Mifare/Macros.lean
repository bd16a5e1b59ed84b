/-
# MIFARE macros

A macro activates a tag, authenticates where that is needed and moves data, all in one round
trip.  Write macros report the identifier of the tag that was written.

* Ultralight tags have 16 pages of four bytes, Ultralight C tags have 48; both keep user data
  from page 4 on.
* Sectors of Classic tags are read and written by block, after authentication with a key of
  the sector.

Every macro checks its arguments before anything is sent.  The sector macros span several
operations of the tag and are repeated more often than other commands.
-/
import TagReader.Iso14443a

namespace TagReader
namespace Mifare

/-! ## Pages and blocks chosen by a mask -/

/-- The numbers of the bits that are set among the lowest `width`, in ascending order. -/
def chosen (width mask : Nat) : List Nat := (List.range width).filter mask.testBit

/-- How many of the lowest `width` bits are set. -/
def count (width mask : Nat) : Nat := (chosen width mask).length

/-! ## The commands -/

/-- The options of the Ultralight C macros. -/
structure Options where
  /-- The tag is already active. -/
  skipActivation : Bool := false
  /-- The field is turned off and on first. -/
  resetField : Bool := false
deriving DecidableEq

/-- The options as a byte. -/
def Options.byte (o : Options) : UInt8 :=
  (if o.skipActivation then 1 else 0) ||| (if o.resetField then 2 else 0)

/-- The key by which a sector macro authenticates; without one, the reader's default key. -/
structure SectorAuth where
  /-- Which key of the sector it is. -/
  side : KeySide
  /-- Where the reader takes it from. -/
  source : Option KeySource := none
deriving DecidableEq

namespace SectorAuth

/-- The flags that tell the reader which key to use and where it is. -/
def flags (a : SectorAuth) : UInt8 :=
  (match a.side with
    | .a => 0x00
    | .b => 0x40) |||
  (match a.source with
    | none => 0x00
    | some (.explicit _) => 0x80
    | some (.stored _) => 0x90)

/-- The bytes of the command that hold the key or say where it is. -/
def image (a : SectorAuth) : Bytes :=
  match a.source with
  | none => []
  | some (.explicit key) => key.bytes
  | some (.stored slot) => [slot.index]

end SectorAuth

/-- The macros. -/
inductive Request where
  /-- Read a whole Ultralight tag. -/
  | readUltralight
  /-- Write the pages of an Ultralight tag that a mask chooses. -/
  | writeUltralight (mask : UInt16) (data : Bytes)
  /-- Read pages of an Ultralight C tag. -/
  | readUltralightC (options : Options) (first n : UInt8)
  /-- Write pages of an Ultralight C tag. -/
  | writeUltralightC (options : Options) (first n : UInt8) (data : Bytes)
  /-- Read the blocks of a sector that a mask chooses. -/
  | readSector (sector : UInt8) (auth : SectorAuth) (mask : UInt16)
  /-- Write the blocks of a sector that a mask chooses. -/
  | writeSector (sector : UInt8) (auth : SectorAuth) (mask : UInt16) (data : Bytes)
  /-- Write the trailers of the sectors that a mask chooses. -/
  | writeTrailers (mask : UInt64) (trailers : List (Octets 16))
deriving DecidableEq

/-- The control byte of the macros. -/
def control : UInt8 := 0x04

/-- A macro. -/
def command (code : UInt8) : Command := ⟨control, code, []⟩

/-- The command of a sector macro up to its data. -/
def sectorCommand (code sector : UInt8) (auth : SectorAuth) (mask : UInt16) : Command :=
  ((((command code).byte sector).byte auth.flags).word16 mask).bytes auth.image

/-- A mask of forty sectors, low byte first. -/
def sectorMask (mask : UInt64) : Bytes :=
  ([0, 8, 16, 24, 32] : List UInt64).map fun k => (mask >>> k).toUInt8

/-- The command for a request. -/
def Request.command : Request → Command
  | readUltralight => Mifare.command 0x22
  | writeUltralight mask data => ((Mifare.command 0x21).word16 mask).bytes data
  | readUltralightC options first n =>
    (((Mifare.command 0x24).byte options.byte).byte first).byte n
  | writeUltralightC options first n data =>
    ((((Mifare.command 0x23).byte options.byte).byte first).byte n).bytes data
  | readSector sector auth mask => sectorCommand 0x42 sector auth mask
  | writeSector sector auth mask data => (sectorCommand 0x41 sector auth mask).bytes data
  | writeTrailers mask trailers =>
    ((Mifare.command 0x43).bytes (sectorMask mask)).bytes (trailers.flatMap Octets.bytes)

/-! ## Ultralight tags -/

/-- The bytes of an Ultralight tag. -/
def ultralightSize : Nat := 64

/-- The bytes of a page. -/
def pageSize : Nat := 4

/-- The first page of user data. -/
def userPage : Nat := 4

/-- The bytes of user data on an Ultralight tag. -/
def ultralightUserSize : Nat := 48

/-- The identifier that a write macro reports. -/
def writtenUid (p : Bytes) : Except Fault Uid := do pure ⟨← Payload.prefixed p 0⟩

/-- `len` bytes of an Ultralight tag from byte `offset` on. -/
def readUltralight (offset len : Nat) : Talk Bytes := do
  if ultralightSize < offset + len then
    .fail (.validation
      s!"ultralight range {offset}..{offset + len} exceeds {ultralightSize} bytes")
  let p ← Talk.exchange Request.readUltralight.command
  Dialogue.ofExcept (Payload.slice p offset len)

/-- All bytes of an Ultralight tag. -/
def readUltralightAll : Talk Bytes := readUltralight 0 ultralightSize

/-- The user data of an Ultralight tag. -/
def readUltralightUserData : Talk Bytes :=
  readUltralight (userPage * pageSize) ultralightUserSize

/-- The fault for data that do not fill what a mask chooses. -/
def maskMismatch (mask : UInt16) (expected actual : Nat) : Fault :=
  .validation ("mask " ++ Hex.number 4 mask.toNat ++ s!" selects {expected} bytes, got {actual}")

/-- Writes the pages of an Ultralight tag that a mask chooses. -/
def writeUltralight (data : Bytes) (mask : UInt16) : Talk Uid := do
  if mask = 0 then
    .fail (.validation "page mask selects no pages")
  let expected := count 16 mask.toNat * pageSize
  if data.length ≠ expected then
    .fail (maskMismatch mask expected data.length)
  let p ← Talk.exchange (Request.writeUltralight mask data).command
  Dialogue.ofExcept (writtenUid p)

/-- The number of pages that so many bytes take. -/
def pagesFor (size : Nat) : Nat := (size + pageSize - 1) / pageSize

/-- Data padded with zeros to whole pages. -/
def padded (data : Bytes) : Bytes := Bytes.fit (pagesFor data.length * pageSize) data

/-- The mask of the first `n` pages of user data. -/
def userMask (n : Nat) : UInt16 := UInt16.ofNat (((1 <<< n) - 1) <<< userPage)

/-- User data must not be empty, and must fit. -/
def ensureUserData (kind : String) (limit : Nat) (data : Bytes) : Talk Unit := do
  if data.isEmpty then
    .fail (.validation "no data to write")
  if limit < data.length then
    .fail (.validation (kind ++ s!" user data is at most {limit} bytes, got {data.length}"))

/-- Writes user data to an Ultralight tag, padded to whole pages. -/
def writeUltralightUserData (data : Bytes) : Talk Uid := do
  ensureUserData "ultralight" ultralightUserSize data
  writeUltralight (padded data) (userMask (pagesFor data.length))

/-! ## Ultralight C tags -/

/-- The pages of an Ultralight C tag. -/
def ultralightCPages : Nat := 48

/-- The pages of user data on an Ultralight C tag. -/
def ultralightCUserPages : Nat := 36

/-- The bytes of user data on an Ultralight C tag. -/
def ultralightCUserSize : Nat := 144

/-- A range of pages must not be empty, and must lie on the tag. -/
def ensurePages (first n : UInt8) : Talk Unit := do
  let stop := first.toNat + n.toNat
  if n = 0 ∨ ultralightCPages < stop then
    .fail (.validation
      s!"ultralight c pages {first.toNat}..{stop} outside 1..={ultralightCPages} pages")

/-- Reads `n` pages of an Ultralight C tag from page `first` on. -/
def readUltralightC (first n : UInt8) (options : Options) : Talk Bytes := do
  ensurePages first n
  let p ← Talk.exchange (Request.readUltralightC options first n).command
  Dialogue.ofExcept (Payload.slice p 0 (n.toNat * pageSize))

/-- The options by which user data are read and written. -/
def userOptions : Options := { resetField := true }

/-- The user data of an Ultralight C tag. -/
def readUltralightCUserData : Talk Bytes :=
  readUltralightC (UInt8.ofNat userPage) (UInt8.ofNat ultralightCUserPages) userOptions

/-- Writes `n` pages of an Ultralight C tag from page `first` on. -/
def writeUltralightC (data : Bytes) (first n : UInt8) (options : Options) : Talk Uid := do
  ensurePages first n
  let expected := n.toNat * pageSize
  if data.length ≠ expected then
    .fail (.validation s!"{n.toNat} pages need {expected} bytes, got {data.length}")
  let p ← Talk.exchange (Request.writeUltralightC options first n data).command
  Dialogue.ofExcept (writtenUid p)

/-- Writes user data to an Ultralight C tag, padded to whole pages. -/
def writeUltralightCUserData (data : Bytes) : Talk Uid := do
  ensureUserData "ultralight c" ultralightCUserSize data
  writeUltralightC (padded data) (UInt8.ofNat userPage) (UInt8.ofNat (pagesFor data.length))
    userOptions

/-- Authenticates with an Ultralight C tag under a key of sixteen bytes; false if the tag does
not hold that key. -/
def authenticateUltralightC (key : Bytes) (nonce : Block) : Talk Bool := do
  let s ← (Dialogue.ofExcept (UltralightC.Session.ofKey key) : Talk UltralightC.Session)
  Iso14443a.authenticateUltralightC s nonce

/-! ## Sectors of Classic tags -/

/-- The bytes of a block. -/
def blockSize : Nat := 16

/-- The bound on retries of the sector macros. -/
def sectorRetries : Nat := 5

/-- The note that a sector is about to be read or written. -/
def sectorText (verb : String) (sector : UInt8) (auth : SectorAuth) (mask : UInt16) : String :=
  verb ++ s!" sector {sector.toNat} mask " ++ Hex.number 4 mask.toNat ++ " with key " ++
    auth.side.label

/-- Reads the blocks of a sector that a mask chooses. -/
def readSector (sector : UInt8) (auth : SectorAuth) (mask : UInt16) : Talk Bytes := do
  Dialogue.say .debug (sectorText "read" sector auth mask)
  let p ← Talk.exchangeWithin sectorRetries (Request.readSector sector auth mask).command
  Dialogue.ofExcept (Payload.prefixed p 0)

/-- Writes the blocks of a sector that a mask chooses. -/
def writeSector (data : Bytes) (sector : UInt8) (auth : SectorAuth) (mask : UInt16) :
    Talk Uid := do
  let expected := count 16 mask.toNat * blockSize
  if data.length ≠ expected then
    .fail (maskMismatch mask expected data.length)
  Dialogue.say .debug (sectorText "write" sector auth mask)
  let p ← Talk.exchangeWithin sectorRetries (Request.writeSector sector auth mask data).command
  Dialogue.ofExcept (writtenUid p)

/-- The most sectors that a tag has. -/
def maxSectors : Nat := 40

/-- Writes the trailers of the sectors that a mask chooses, one for each. -/
def writeTrailers (mask : UInt64) (trailers : List (Octets 16)) : Talk Uid := do
  if 1 <<< maxSectors ≤ mask.toNat then
    .fail (.validation
      ("sector mask " ++ Hex.number 1 mask.toNat ++ s!" exceeds {maxSectors} sectors"))
  let sectors := count 64 mask.toNat
  if sectors ≠ trailers.length then
    .fail (.validation s!"mask selects {sectors} sectors, got {trailers.length} trailers")
  let p ← Talk.exchangeWithin sectorRetries (Request.writeTrailers mask trailers).command
  Dialogue.ofExcept (writtenUid p)

end Mifare
end TagReader
