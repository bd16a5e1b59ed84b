/-
# Passwords of ICODE tags

ICODE SLI-S and SLI-L tags extend ISO15693 by passwords.  A password is never sent in the
clear: the tag gives a random number of two bytes first, and the password is sent added to
it, byte by byte in turn.

A tag in privacy mode does not show its identifier, so the privacy password, and only that
one, can be presented without an address.
-/
import TagReader.Iso15693

namespace TagReader
namespace Icode

open Iso15693 (Address)

/-- The passwords of a tag. -/
inductive PasswordId where
  | read
  | write
  | privacy
  | destroy
  | eas
deriving DecidableEq

namespace PasswordId

/-- The byte that stands for a password. -/
def byte : PasswordId → UInt8
  | read => 0x01
  | write => 0x02
  | privacy => 0x04
  | destroy => 0x08
  | eas => 0x10

/-- The name of a password. -/
def label : PasswordId → String
  | read => "Read"
  | write => "Write"
  | privacy => "Privacy"
  | destroy => "Destroy"
  | eas => "Eas"

end PasswordId

/-- How a page of the memory is protected. -/
inductive Protection where
  /-- It is open. -/
  | unprotected
  /-- Reading and writing need the read password. -/
  | readWriteByRead
  /-- Writing needs the write password. -/
  | writeByWrite
  /-- Reading needs the read password, writing needs both. -/
  | readAndWrite
deriving DecidableEq

/-- The byte that stands for a protection. -/
def Protection.byte : Protection → UInt8
  | .unprotected => 0x00
  | .readWriteByRead => 0x01
  | .writeByWrite => 0x10
  | .readAndWrite => 0x11

/-- The commands for these tags. -/
inductive Request where
  /-- Ask for a random number. -/
  | random (tag : Option Address)
  /-- Present a password. -/
  | present (tag : Option Address) (id : PasswordId) (masked : Octets 4)
  /-- Replace a password. -/
  | replace (tag : Address) (id : PasswordId) (password : Octets 4)
  /-- Make a password permanent. -/
  | lockPassword (tag : Address) (id : PasswordId)
  /-- Join the read and write passwords into one. -/
  | joinPasswords (tag : Address)
  /-- Protect a page. -/
  | protectPage (tag : Address) (page : UInt8) (protection : Protection)
  /-- Make the protection of a page permanent. -/
  | lockPage (tag : Address) (page : UInt8)
  /-- The protection of some blocks. -/
  | blockStatus (tag : Address) (first n : UInt8)
  /-- Disable the tag for ever. -/
  | destroy (tag : Address)
  /-- Hide the tag. -/
  | hide (tag : Address)
deriving DecidableEq

/-- The control byte of these commands. -/
def control : UInt8 := 0xB1

/-- The manufacturer that these commands belong to. -/
def manufacturer : UInt8 := 0x04

/-- A command to one tag, or to whatever tag is there. -/
def command (code : UInt8) (tag : Option Address) : Command :=
  match tag with
  | some a => ⟨control, Iso15693.addressed, code :: manufacturer :: a.bytes⟩
  | none => ⟨control, Iso15693.unaddressed, [code, manufacturer]⟩

/-- The command for a request. -/
def Request.command : Request → Command
  | random tag => Icode.command 0xB2 tag
  | present tag id masked => ((Icode.command 0xB3 tag).byte id.byte).bytes masked.bytes
  | replace tag id password => ((Icode.command 0xB4 (some tag)).byte id.byte).bytes password.bytes
  | lockPassword tag id => (Icode.command 0xB5 (some tag)).byte id.byte
  | protectPage tag page protection =>
    ((Icode.command 0xB6 (some tag)).byte page).byte protection.byte
  | lockPage tag page => (Icode.command 0xB7 (some tag)).byte page
  | blockStatus tag first n => ((Icode.command 0xB8 (some tag)).byte first).byte n
  | destroy tag => Icode.command 0xB9 (some tag)
  | hide tag => Icode.command 0xBA (some tag)
  | joinPasswords tag => Icode.command 0xBB (some tag)

/-- An optional identifier as an optional address. -/
def addressing (uid : Option Uid) : Talk (Option Address) :=
  match uid with
  | some u => do
    let a ← Iso15693.addressing u
    pure (some a)
  | none => pure none

/-- Four bytes as a password. -/
def password (bs : Bytes) : Talk (Octets 4) :=
  match Octets.ofBytes? 4 bs with
  | some p => pure p
  | none => .fail (.validation s!"icode password must be 4 bytes long, got {bs.length}")

/-- A password added to a random number, byte by byte in turn. -/
def masked (password : Octets 4) (number : Octets 2) : Octets 4 :=
  ⟨Bytes.xor password.bytes (number.bytes ++ number.bytes), by
    simp [Bytes.xor, password.length_eq, number.length_eq]⟩

/-- The two bytes of a fresh random number. -/
def randomOctets (tag : Option Address) : Talk (Octets 2) := do
  let p ← Talk.exchange (Request.random tag).command
  Dialogue.ofExcept (Payload.octets 2 p 0)

/-- A fresh random number. -/
def randomNumber (uid : Option Uid) : Talk UInt16 := do
  let tag ← addressing uid
  let o ← randomOctets tag
  pure (Bytes.toWord16 (o.bytes.getD 0 0) (o.bytes.getD 1 0))

/-- Presents a password to a tag. -/
def setPassword (uid : Option Uid) (id : PasswordId) (pwd : Bytes) : Talk Unit := do
  let pwd ← password pwd
  if uid.isNone ∧ id ≠ .privacy then
    .fail (.validation (id.label ++ " password needs an addressed tag"))
  let tag ← addressing uid
  let number ← randomOctets tag
  Talk.order (Request.present tag id (masked pwd number)).command

/-- Replaces a password, once the old one has been presented. -/
def writePassword (uid : Uid) (id : PasswordId) (pwd : Bytes) : Talk Unit := do
  let pwd ← password pwd
  let tag ← Iso15693.addressing uid
  Talk.order (Request.replace tag id pwd).command

/-- Makes a password permanent. -/
def lockPassword (uid : Uid) (id : PasswordId) : Talk Unit := do
  let tag ← Iso15693.addressing uid
  Talk.order (Request.lockPassword tag id).command

/-- Joins the read and write passwords into one of 64 bits. -/
def joinPasswords (uid : Uid) : Talk Unit := do
  let tag ← Iso15693.addressing uid
  Talk.order (Request.joinPasswords tag).command

/-- Protects a page. -/
def protectPage (uid : Uid) (page : UInt8) (protection : Protection) : Talk Unit := do
  let tag ← Iso15693.addressing uid
  Talk.order (Request.protectPage tag page protection).command

/-- Makes the protection of a page permanent. -/
def lockPage (uid : Uid) (page : UInt8) : Talk Unit := do
  let tag ← Iso15693.addressing uid
  Talk.order (Request.lockPage tag page).command

/-- How each of `n` blocks from `first` on is protected, one byte a block. -/
def blockStatus (uid : Uid) (first n : UInt8) : Talk Bytes := do
  let tag ← Iso15693.addressing uid
  let p ← Talk.exchange (Request.blockStatus tag first n).command
  Dialogue.ofExcept (Payload.slice p 0 n.toNat)

/-- Disables a tag for ever. -/
def destroy (uid : Uid) : Talk Unit := do
  let tag ← Iso15693.addressing uid
  Talk.order (Request.destroy tag).command

/-- Hides a tag until the privacy password is presented. -/
def hide (uid : Uid) : Talk Unit := do
  let tag ← Iso15693.addressing uid
  Talk.order (Request.hide tag).command

end Icode
end TagReader
