/-
# Bytes

Everything that travels between host, reader and tag is a list of bytes.  This file fixes
that type, the lists of a fixed length, and the few operations on bytes that several parts
of the library share:

* `Octets n`: exactly `n` bytes, the shape of keys, blocks and short identifiers;
* `Bytes.fit`: bytes cut or zero padded to a length;
* `Bytes.rotate`: the first byte moved to the end;
* little-endian images of 16 and 32 bit words.
-/
namespace TagReader

/-- A string of bytes, in the order in which they are sent. -/
abbrev Bytes := List UInt8

/-- Exactly `n` bytes. -/
structure Octets (n : Nat) where
  /-- The bytes, first one first. -/
  bytes : Bytes
  /-- There are `n` of them. -/
  length_eq : bytes.length = n
deriving DecidableEq

namespace Octets

/-- The same byte `n` times. -/
def fill (n : Nat) (b : UInt8) : Octets n := ⟨List.replicate n b, by simp⟩

/-- Bytes as `n` octets, if they are that many. -/
def ofBytes? (n : Nat) (bs : Bytes) : Option (Octets n) :=
  if h : bs.length = n then some ⟨bs, h⟩ else none

/-- The `n` bytes of `bs` from position `i` on; missing ones are zero. -/
def window (n i : Nat) (bs : Bytes) : Octets n :=
  ⟨(List.range n).map fun k => bs.getD (i + k) 0, by simp⟩

theorem ofBytes?_bytes {n : Nat} (o : Octets n) : ofBytes? n o.bytes = some o := by
  simp [ofBytes?, o.length_eq]

theorem ofBytes?_eq_some_iff {n : Nat} {bs : Bytes} {o : Octets n} :
    ofBytes? n bs = some o ↔ bs = o.bytes := by
  constructor
  · intro h
    unfold ofBytes? at h
    split at h
    · cases h; rfl
    · cases h
  · rintro rfl
    exact ofBytes?_bytes o

end Octets

namespace Bytes

/-- Bytes cut to `n`, or padded with zeros up to `n`. -/
def fit (n : Nat) (bs : Bytes) : Bytes := bs.take n ++ List.replicate (n - bs.length) 0

@[simp] theorem length_fit (n : Nat) (bs : Bytes) : (fit n bs).length = n := by
  simp [fit]; omega

/-- Pieces of one length, one after the other. -/
theorem length_flatMap {α : Type} {n : Nat} {f : α → Bytes} (h : ∀ a, (f a).length = n)
    (as : List α) : (as.flatMap f).length = n * as.length := by
  induction as with
  | nil => rfl
  | cons a as ih =>
    rw [List.flatMap_cons, List.length_append, ih, h, List.length_cons, Nat.mul_succ, Nat.add_comm]

/-- The first byte moved to the end. -/
def rotate : Bytes → Bytes
  | [] => []
  | b :: bs => bs ++ [b]

/-- Bytes combined by exclusive or, as long as the shorter of the two. -/
def xor (a b : Bytes) : Bytes := List.zipWith (· ^^^ ·) a b

/-- A 16 bit word, low byte first. -/
def ofWord16 (w : UInt16) : Bytes := [w.toUInt8, (w >>> 8).toUInt8]

/-- The 16 bit word whose low byte is `lo`. -/
def toWord16 (lo hi : UInt8) : UInt16 := lo.toUInt16 ||| (hi.toUInt16 <<< 8)

/-- A signed 32 bit number in two's complement, low byte first. -/
def ofInt32 (v : Int32) : Bytes :=
  let w := v.toUInt32
  [w.toUInt8, (w >>> 8).toUInt8, (w >>> 16).toUInt8, (w >>> 24).toUInt8]

/-- The signed 32 bit number whose bytes are given low byte first. -/
def toInt32 (a b c d : UInt8) : Int32 :=
  (a.toUInt32 ||| (b.toUInt32 <<< 8) ||| (c.toUInt32 <<< 16) ||| (d.toUInt32 <<< 24)).toInt32

end Bytes

end TagReader
