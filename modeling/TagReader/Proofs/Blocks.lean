/-
# Blocks as bytes

A tag computes on blocks of 64 bits and sends them as eight bytes.  This file shows that nothing is
lost between the two: eight bytes are read as a block and written again as they were
(`Block.toBytes_ofBytes`), and so is a block (`Block.ofBytes_toBytes`).  A rotation of a block moves
its first byte to the end (`Block.toBytes_rotate`).

Both come from one operation, `Block.push`, by which a block is moved up by a byte and takes in a
new last one: bytes are read by pushing them one after the other, and a rotation pushes the first
byte.
-/
import Mathlib.Tactic.Common
import TagReader.Cipher.Block

namespace TagReader
namespace Block

variable (x y : Block) (b : UInt8)

/-- A block moved up by one byte, with a new last one. -/
def push (x : Block) (b : UInt8) : Block := (x <<< 8) ||| b.toBitVec.setWidth 64

/-! ## The bytes of a pushed block -/

lemma setWidth_push {k : Nat} (hk : k ≤ 48) :
    (push x b >>> (k + 8)).setWidth 8 = (x >>> k).setWidth 8 := by
  ext j hj
  have hold : b.toBitVec.getLsbD (k + 8 + j) = false := BitVec.getLsbD_of_ge _ _ (by omega)
  have hin : k + 8 + j < 64 := by omega
  have hout : ¬k + 8 + j < 8 := by omega
  have hmoved : k + 8 + j - 8 = k + j := by omega
  have hbit := BitVec.getLsbD_eq_getElem (x := x) (show k + j < 64 by omega)
  simp [push, hold, hin, hout, hmoved, hbit]

lemma setWidth_push_last : (push x b >>> 0).setWidth 8 = b.toBitVec := by
  ext j hj
  simp [push]

lemma toBytes_push : (push x b).toBytes = x.toBytes.tail ++ [b] := by
  have h (k : Nat) (hk : k ≤ 48) := setWidth_push x b hk
  simp only [toBytes, List.map, List.tail_cons, List.cons_append, List.nil_append,
    setWidth_push_last, h 48 (by omega), h 40 (by omega), h 32 (by omega), h 24 (by omega),
    h 16 (by omega), h 8 (by omega), h 0 (by omega)]

/-- Bytes that are pushed drive out as many old ones. -/
lemma toBytes_foldl_push (bs : Bytes) :
    (bs.foldl push x).toBytes = (x.toBytes ++ bs).drop bs.length := by
  induction bs generalizing x with
  | nil => simp
  | cons b bs ih =>
    obtain ⟨first, rest, hx⟩ := List.exists_cons_of_length_eq_add_one (length_toBytes x)
    rw [List.foldl_cons, ih, toBytes_push, hx]
    simp

/-! ## Reading and writing -/

lemma toBytes_ofBytes {bs : Bytes} (h : bs.length = 8) : (ofBytes bs).toBytes = bs := by
  have hread : ofBytes bs = bs.foldl push 0#64 := by
    rw [ofBytes, List.take_of_length_le (Nat.le_of_eq h)]
    rfl
  rw [hread, toBytes_foldl_push, h, List.drop_left' (length_toBytes _)]

lemma toBytes_injective : Function.Injective toBytes := by
  intro x y h
  apply BitVec.eq_of_getLsbD_eq
  intro i hi
  have hmem : 8 * (i / 8) ∈ [56, 48, 40, 32, 24, 16, 8, 0] := by
    simp only [List.mem_cons, List.not_mem_nil, or_false]
    omega
  -- The bit is found in the byte that begins at the multiple of eight below it.
  have hbyte := List.map_inj_left.1 h _ hmem
  have hbit := congrArg (fun b : UInt8 => b.toBitVec.getLsbD (i % 8)) hbyte
  have hsmall : i % 8 < 8 := Nat.mod_lt _ (by omega)
  simpa [hsmall, Nat.div_add_mod] using hbit

lemma ofBytes_toBytes : ofBytes x.toBytes = x :=
  toBytes_injective (toBytes_ofBytes (length_toBytes x))

lemma ofBytes_eq_iff {bs : Bytes} (h : bs.length = 8) : ofBytes bs = x ↔ bs = x.toBytes := by
  constructor
  · rintro rfl
    exact (toBytes_ofBytes h).symm
  · rintro rfl
    exact ofBytes_toBytes x

/-- Only the first eight bytes are read. -/
lemma ofBytes_append (bs : Bytes) : ofBytes (x.toBytes ++ bs) = x := by
  have htake : (x.toBytes ++ bs).take 8 = x.toBytes := List.take_left' (length_toBytes x)
  have hread : ofBytes (x.toBytes ++ bs) = ofBytes x.toBytes := by
    rw [ofBytes, htake, ofBytes, List.take_of_length_le (Nat.le_of_eq (length_toBytes x))]
  rw [hread, ofBytes_toBytes]

/-! ## Rotation -/

lemma rotate_eq_push : x.rotate = push x (UInt8.ofBitVec ((x >>> 56).setWidth 8)) := by
  apply BitVec.eq_of_getLsbD_eq
  intro i hi
  by_cases hlow : i < 8
  · have hbit := BitVec.getLsbD_eq_getElem (x := x) (show 56 + i < 64 by omega)
    simp [rotate, push, hlow, hi, hbit]
  · simp [rotate, push, hlow, hi]

lemma toBytes_rotate : x.rotate.toBytes = Bytes.rotate x.toBytes := by
  rw [rotate_eq_push, toBytes_push]
  rfl

lemma rotate_eq : x.rotate = ofBytes (Bytes.rotate x.toBytes) := by
  rw [← toBytes_rotate, ofBytes_toBytes]

end Block

/-- One block decrypts to a given value, whatever is added to it afterwards. -/
lemma BlockCipher.decrypt_xor_eq_iff (c : BlockCipher) {x y z : Block} :
    c.decrypt x ^^^ y = z ↔ x = c.encrypt (z ^^^ y) := by
  constructor
  · rintro rfl
    rw [BitVec.xor_assoc, BitVec.xor_self, BitVec.xor_zero, c.encrypt_decrypt]
  · rintro rfl
    rw [c.decrypt_encrypt, BitVec.xor_assoc, BitVec.xor_self, BitVec.xor_zero]

end TagReader
