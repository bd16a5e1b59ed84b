/-
# Sector trailers

The last block of a sector holds key A, the access bits, a byte for general use and key B.
A tag never shows key A; it reads back as zeros.
-/
import TagReader.Classic.AccessBits
import TagReader.Key

namespace TagReader
namespace Classic

/-- The contents of a sector trailer. -/
structure SectorTrailer where
  keyA : SectorKey
  access : SectorAccess
  /-- A byte without a meaning of its own. -/
  general : UInt8 := 0
  keyB : SectorKey
deriving DecidableEq

namespace SectorTrailer

/-- Puts the parts of a trailer together. -/
def assemble (keyA : SectorKey) (patterns : SectorPatterns) (general : UInt8)
    (keyB : SectorKey) : Octets 16 :=
  ⟨keyA.bytes ++ patterns.image ++ [general] ++ keyB.bytes, by
    simp [SectorPatterns.image, keyA.length_eq, keyB.length_eq]⟩

/-- The block that holds a trailer. -/
def encode (t : SectorTrailer) : Except Fault (Octets 16) := do
  let patterns ← t.access.patterns
  pure (assemble t.keyA patterns t.general t.keyB)

/-- The permissions in a trailer. -/
def accessOf (block : Octets 16) : Except Fault SectorAccess :=
  SectorAccess.ofBits ((block.bytes.drop 6).take 3)

/-- Reads a trailer. -/
def decode (block : Octets 16) : Except Fault SectorTrailer := do
  let access ← accessOf block
  pure ⟨Octets.window 6 0 block.bytes, access, block.bytes.getD 9 0,
    Octets.window 6 10 block.bytes⟩

end SectorTrailer
end Classic
end TagReader
