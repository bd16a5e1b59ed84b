/-
# Access bits

The access bits of a sector are stored in three bytes, each bit once as it is and once
inverted.  With the bits of the four blocks gathered in three nibbles C1, C2 and C3 (block 0
lowest, the trailer highest), the bytes are, high nibble first,

* not C2, not C1;
* C1, not C3;
* C3, C2.

A byte for general use follows them in the trailer.
-/
import TagReader.Classic.Permission
import TagReader.Fault

namespace TagReader
namespace Classic

/-- The access patterns of a sector. -/
structure SectorPatterns where
  block0 : Pattern
  block1 : Pattern
  block2 : Pattern
  trailer : Pattern
deriving DecidableEq

namespace SectorPatterns

/-- The permissions that the patterns give. -/
def access (p : SectorPatterns) : SectorAccess :=
  ⟨.ofPattern p.block0, .ofPattern p.block1, .ofPattern p.block2, .ofPattern p.trailer⟩

/-- Four bits as a nibble, lowest first. -/
def nibble (b0 b1 b2 b3 : Bool) : UInt8 :=
  (if b0 then 1 else 0) ||| (if b1 then 2 else 0) ||| (if b2 then 4 else 0) |||
    (if b3 then 8 else 0)

/-- One bit of each pattern as a nibble. -/
def gather (bit : Pattern → Bool) (p : SectorPatterns) : UInt8 :=
  nibble (bit p.block0) (bit p.block1) (bit p.block2) (bit p.trailer)

/-- A nibble inverted. -/
def inverted (n : UInt8) : UInt8 := ~~~n &&& 0x0F

/-- The three bytes that store the patterns. -/
def image (p : SectorPatterns) : Bytes :=
  let c1 := p.gather Pattern.c1
  let c2 := p.gather Pattern.c2
  let c3 := p.gather Pattern.c3
  [(inverted c2 <<< 4) ||| inverted c1, (c1 <<< 4) ||| inverted c3, (c3 <<< 4) ||| c2]

/-- The pattern of block `n` in three nibbles. -/
def patternAt (c1 c2 c3 : UInt8) (n : UInt8) : Pattern :=
  ⟨(c1 >>> n) &&& 1 == 1, (c2 >>> n) &&& 1 == 1, (c3 >>> n) &&& 1 == 1⟩

/-- The patterns in three nibbles. -/
def ofNibbles (c1 c2 c3 : UInt8) : SectorPatterns :=
  ⟨patternAt c1 c2 c3 0, patternAt c1 c2 c3 1, patternAt c1 c2 c3 2, patternAt c1 c2 c3 3⟩

/-- Reads three bytes; every bit must disagree with its inverted copy. -/
def ofImage (b6 b7 b8 : UInt8) : Except Fault SectorPatterns :=
  let c1 := b7 >>> 4
  let c2 := b8 &&& 0x0F
  let c3 := b8 >>> 4
  if b6 &&& 0x0F = inverted c1 ∧ b6 >>> 4 = inverted c2 ∧ b7 &&& 0x0F = inverted c3 then
    .ok (ofNibbles c1 c2 c3)
  else .error (.format
    ("access bits " ++ Hex.spaced [b6, b7, b8] ++ " fail the inverted copy check"))

end SectorPatterns

namespace SectorAccess

/-- Reads permissions from the access bits, the first three of some bytes. -/
def ofBits (bits : Bytes) : Except Fault SectorAccess :=
  match bits with
  | b6 :: b7 :: b8 :: _ => (SectorPatterns.ofImage b6 b7 b8).map SectorPatterns.access
  | _ => .error (.invalidLength 3 bits.length)

/-- The pattern for the permissions on data block `n`. -/
def blockPattern (n : Nat) (a : BlockAccess) : Except Fault Pattern :=
  match a.pattern? with
  | some p => .ok p
  | none => .error (.format (s!"block {n} access " ++ a.inspect ++ " has no encoding"))

/-- The pattern for the permissions on the trailer. -/
def trailerPattern (a : TrailerAccess) : Except Fault Pattern :=
  match a.pattern? with
  | some p => .ok p
  | none => .error (.format ("trailer access " ++ a.inspect ++ " has no encoding"))

/-- The patterns for some permissions, if there are any. -/
def patterns (a : SectorAccess) : Except Fault SectorPatterns := do
  let p0 ← blockPattern 0 a.block0
  let p1 ← blockPattern 1 a.block1
  let p2 ← blockPattern 2 a.block2
  let pt ← trailerPattern a.trailer
  pure ⟨p0, p1, p2, pt⟩

/-- The access bits for some permissions, and a zero in the place of the general byte. -/
def bits (a : SectorAccess) : Except Fault Bytes := do
  let p ← a.patterns
  pure (p.image ++ [0x00])

end SectorAccess

end Classic
end TagReader
