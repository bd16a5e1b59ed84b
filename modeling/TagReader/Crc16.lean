/-
# The cyclic redundancy check of the frames

Readers at 13.56 MHz protect their frames with a reflected CRC-16 over the polynomial
x^16 + x^12 + x^5 + 1.  The variants differ in the value that the register starts from and
in the value that is added to it at the end.

The register is shifted one bit at a time (`Crc16.shift`); a byte is added into its low half
and then shifted through (`Crc16.feed`).  `Crc16.identify` finds the variant that a reader
uses from frames captured on the wire.
-/
import TagReader.Inspect
import TagReader.Trailer

namespace TagReader

/-- A variant of the check. -/
structure Crc16 where
  /-- The name by which the variant is known. -/
  name : String
  /-- The value that the register starts from. -/
  init : BitVec 16
  /-- The value added to the register at the end. -/
  final : BitVec 16
deriving DecidableEq

namespace Crc16

/-- The variant of ISO/IEC 13239, which is also the CRC_B of ISO14443; the usual one. -/
def x25 : Crc16 := ⟨"X-25", 0xFFFF, 0xFFFF⟩

/-- The CRC_A of ISO14443. -/
def iso14443a : Crc16 := ⟨"ISO14443A", 0x6363, 0x0000⟩

/-- The variant known as MCRF4XX. -/
def mcrf4xx : Crc16 := ⟨"MCRF4XX", 0xFFFF, 0x0000⟩

/-- The known variants, most common first. -/
def presets : List Crc16 := [x25, iso14443a, mcrf4xx]

/-- A variant without a name of its own. -/
def custom (init final : BitVec 16) : Crc16 := ⟨"custom", init, final⟩

/-- One bit leaves the register at its low end; where it was set, the polynomial is added. -/
def shift (r : BitVec 16) : BitVec 16 :=
  if r.getLsbD 0 then (r >>> 1) ^^^ 0x8408#16 else r >>> 1

/-- A byte is added into the low half and shifted through. -/
def feed (r : BitVec 16) (b : UInt8) : BitVec 16 :=
  Nat.repeat shift 8 (r ^^^ b.toBitVec.setWidth 16)

/-- The register after all bytes. -/
def register (r : BitVec 16) (data : Bytes) : BitVec 16 := data.foldl feed r

/-- The check over some bytes. -/
def checksum (c : Crc16) (data : Bytes) : BitVec 16 := register c.init data ^^^ c.final

/-- How the variant is shown in reports. -/
def inspect (c : Crc16) : String :=
  Inspect.record "Crc16"
    [("name", Inspect.quoted c.name), ("init", toString c.init.toNat),
      ("xorout", toString c.final.toNat)]

/-- The check as a trailer of two bytes, low byte first. -/
def trailer (c : Crc16) : Trailer where
  inspect := c.inspect
  len := 2
  compute data := Bytes.ofWord16 (UInt16.ofBitVec (c.checksum data))
  length_compute _ := rfl

/-- Whether a captured frame ends in its own check. -/
def validates (c : Crc16) (frame : Bytes) : Bool :=
  decide (2 < frame.length) &&
    (c.trailer.compute (frame.take (frame.length - 2)) == frame.drop (frame.length - 2))

/-- The first known variant under which every captured frame is valid, if there are any frames. -/
def identify (captures : List Bytes) : Option Crc16 :=
  presets.find? fun c => !captures.isEmpty && captures.all c.validates

end Crc16

/-- The trailer used unless another one is asked for. -/
def Trailer.standard : Trailer := Crc16.x25.trailer

end TagReader
