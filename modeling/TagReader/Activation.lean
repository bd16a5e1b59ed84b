/-
# Activated ISO14443A tags

When a tag of this standard is activated it shows its identifier, its answer to the request
(ATQA, two bytes) and its select acknowledge (SAK, one byte).  The two top bits of the ATQA
announce the length of the identifier; the SAK tells the family of the tag.

The reader reports the three one after the other, so the ATQA and the SAK are found from the
end of the payload, and the announced length must agree with what stands before them.
-/
import TagReader.Payload
import TagReader.Uid

namespace TagReader

/-- An answer to a request. -/
structure Atqa where
  /-- Its two bytes, as received. -/
  bytes : Octets 2
deriving DecidableEq

namespace Atqa

/-- Two bytes as an answer. -/
def ofBytes (bs : Bytes) : Except Fault Atqa :=
  match Octets.ofBytes? 2 bs with
  | some o => .ok ⟨o⟩
  | none => .error (.invalidLength 2 bs.length)

/-- The length of the identifier that is announced; one of the four size classes is reserved. -/
def uidLength (a : Atqa) : Except Fault Nat :=
  match (a.bytes.bytes.headD 0) >>> 6 with
  | 0 => .ok 4
  | 1 => .ok 7
  | 2 => .ok 10
  | _ => .error (.format ("atqa " ++ Hex.compact a.bytes.bytes ++ " declares a reserved uid size"))

end Atqa

/-- The families that a select acknowledge tells apart. -/
inductive CardFamily where
  | ultralight
  | classic1k
  | mini
  | classic4k
  | desfire
  | unknown
deriving DecidableEq

namespace CardFamily

/-- The family that a select acknowledge stands for. -/
def ofSak (sak : UInt8) : CardFamily :=
  match sak with
  | 0x00 => ultralight
  | 0x08 => classic1k
  | 0x09 => mini
  | 0x18 => classic4k
  | 0x20 => desfire
  | _ => unknown

/-- The name of a family. -/
def display : CardFamily → String
  | ultralight => "MIFARE Ultralight"
  | classic1k => "MIFARE Classic 1K"
  | mini => "MIFARE Mini"
  | classic4k => "MIFARE Classic 4K"
  | desfire => "MIFARE DESFire"
  | unknown => "unknown"

end CardFamily

/-- A tag that has been activated. -/
structure Target where
  /-- Its identifier. -/
  uid : Uid
  /-- Its answer to the request. -/
  atqa : Atqa
  /-- Its select acknowledge. -/
  sak : UInt8
deriving DecidableEq

namespace Target

/-- The family of the tag. -/
def family (t : Target) : CardFamily := .ofSak t.sak

/-- The payload by which the reader reports the tag. -/
def report (t : Target) : Bytes := t.uid.bytes ++ t.atqa.bytes.bytes ++ [t.sak]

/-- Reads the report of an activation. -/
def ofReport (p : Bytes) : Except Fault Target := do
  Payload.ensure p 7
  let carried := p.length - 3
  let atqa ← Atqa.ofBytes ((p.drop carried).take 2)
  let announced ← atqa.uidLength
  if announced ≠ carried then
    throw (.format s!"atqa announces a {announced} byte uid, reply carries {carried}")
  pure ⟨⟨p.take carried⟩, atqa, p.getD (carried + 2) 0⟩

end Target

end TagReader
