/-
# The register, bit by bit

The register of the check takes a byte at a time, but it is easier to reason about single bits.  A
string of bytes has a string of bits, in the order in which they are sent (`Bytes.wire`), and the
register after the bytes is the register after these bits, each of them added at the low end and
then shifted through (`Crc16.register_eq_absorb`).

* Shifting is linear, and so is the register (`Crc16.absorb_xor`): the places where two strings of
  equal length differ decide how their registers differ.
* Up to sixteen bits can as well be added all at once (`Crc16.absorb_lowBits`).  So after a frame
  with a correct trailer the register has a value that does not depend on the frame
  (`Crc16.register_closed`).
-/
import Mathlib.Data.List.Iterate
import TagReader.Crc16
import TagReader.Frame

namespace TagReader

/-! ## Bytes as bits -/

section LowBits

variable {w : Nat}

/-- The lowest `n` bits of a word, lowest first. -/
def lowBits (n : Nat) (v : BitVec w) : List Bool := (List.range n).map v.getLsbD

lemma length_lowBits (n : Nat) (v : BitVec w) : (lowBits n v).length = n := by
  rw [lowBits, List.length_map, List.length_range]

lemma lowBits_add (m n : Nat) (v : BitVec w) :
    lowBits (m + n) v = lowBits m v ++ lowBits n (v >>> m) := by
  unfold lowBits
  rw [List.range_add, List.map_append, List.map_map]
  refine congrArg _ (List.map_congr_left fun i _ => ?_)
  rw [BitVec.getLsbD_ushiftRight]
  rfl

lemma lowBits_succ (n : Nat) (v : BitVec w) :
    lowBits (n + 1) v = v.getLsbD 0 :: lowBits n (v >>> 1) := by
  rw [Nat.add_comm, lowBits_add]
  rfl

/-- The highest bit of a word that is moved is gone. -/
lemma lowBits_ushiftRight_one (v : BitVec (w + 1)) :
    lowBits (w + 1) (v >>> 1) = lowBits w (v >>> 1) ++ [false] := by
  have htop : lowBits 1 (v >>> 1 >>> w) = [false] := by
    simp [lowBits, Nat.add_comm]
  rw [lowBits_add, htop]

lemma lowBits_setWidth {n w' : Nat} (h : n ≤ w') (v : BitVec w) :
    lowBits n (v.setWidth w') = lowBits n v := by
  refine List.map_congr_left fun i hi => ?_
  rw [BitVec.getLsbD_setWidth, decide_eq_true (Nat.lt_of_lt_of_le (List.mem_range.1 hi) h),
    Bool.true_and]

lemma lowBits_xor (n : Nat) (u v : BitVec w) :
    lowBits n (u ^^^ v) = List.zipWith Bool.xor (lowBits n u) (lowBits n v) := by
  unfold lowBits
  rw [List.zipWith_map, List.zipWith_self]
  exact List.map_congr_left fun i _ => BitVec.getLsbD_xor

lemma lowBits_injective (w : Nat) : Function.Injective (lowBits w : BitVec w → List Bool) := by
  intro u v h
  apply BitVec.eq_of_getLsbD_eq
  intro i hi
  exact List.map_inj_left.1 h i (List.mem_range.2 hi)

/-- Some bits are the lowest ones of a word that has no others. -/
lemma exists_lowBits {bits : List Bool} (h : bits.length ≤ w) :
    ∃ v : BitVec w, v >>> bits.length = 0#w ∧ lowBits bits.length v = bits := by
  refine ⟨(BitVec.ofBoolListLE bits).setWidth w, ?_, ?_⟩
  · ext i hi
    simp
  · rw [lowBits_setWidth h]
    apply List.ext_getElem
    · rw [length_lowBits]
    · intro i hi hi'
      have hbit : (BitVec.ofBoolListLE bits).getLsbD i = bits.getD i false :=
        BitVec.getLsbD_ofBoolListLE
      simp only [lowBits, List.getElem_map, List.getElem_range, hbit]
      simp [hi']

end LowBits

namespace Bytes

/-- The bits of some bytes in the order in which they are sent, the lowest bit of a byte first. -/
def wire (bs : Bytes) : List Bool := bs.flatMap fun b => lowBits 8 b.toBitVec

lemma wire_cons (b : UInt8) (bs : Bytes) : wire (b :: bs) = lowBits 8 b.toBitVec ++ wire bs :=
  List.flatMap_cons

lemma wire_append (as bs : Bytes) : wire (as ++ bs) = wire as ++ wire bs :=
  List.flatMap_append

lemma length_wire (bs : Bytes) : (wire bs).length = 8 * bs.length := by
  induction bs with
  | nil => rfl
  | cons b bs ih =>
    rw [wire_cons, List.length_append, ih, length_lowBits, List.length_cons]
    omega

lemma length_xor {as bs : Bytes} (h : as.length = bs.length) :
    (xor as bs).length = as.length := by
  rw [xor, List.length_zipWith, ← h, Nat.min_self]

lemma wire_xor {as bs : Bytes} (h : as.length = bs.length) :
    wire (xor as bs) = List.zipWith Bool.xor (wire as) (wire bs) := by
  induction as generalizing bs with
  | nil => rfl
  | cons a as ih =>
    obtain ⟨b, bs, rfl⟩ := List.exists_cons_of_length_eq_add_one h.symm
    have hlow : (lowBits 8 a.toBitVec).length = (lowBits 8 b.toBitVec).length := by
      rw [length_lowBits, length_lowBits]
    rw [wire_cons, wire_cons, List.zipWith_append hlow, ← lowBits_xor, ← ih (Nat.succ.inj h)]
    exact wire_cons _ _

lemma wire_injective : Function.Injective wire := by
  intro as bs h
  have hlen : as.length = bs.length := by
    have hbits := congrArg List.length h
    rw [length_wire, length_wire] at hbits
    omega
  induction as generalizing bs with
  | nil => exact (List.length_eq_zero_iff.1 hlen.symm).symm
  | cons a as ih =>
    obtain ⟨b, bs, rfl⟩ := List.exists_cons_of_length_eq_add_one hlen.symm
    rw [wire_cons, wire_cons] at h
    obtain ⟨hfirst, hrest⟩ := List.append_inj h (by rw [length_lowBits, length_lowBits])
    have hbyte : a = b := UInt8.toBitVec_inj.1 (lowBits_injective 8 hfirst)
    rw [hbyte, ih hrest (Nat.succ.inj hlen)]

/-- The bits of a word of 16 bits, in the order in which its bytes are sent. -/
lemma wire_ofWord16 (x : UInt16) : wire (ofWord16 x) = lowBits 16 x.toBitVec := by
  rw [lowBits_add 8 8, ← lowBits_setWidth (Nat.le_refl 8) x.toBitVec,
    ← lowBits_setWidth (Nat.le_refl 8) (x.toBitVec >>> 8)]
  rfl

end Bytes

namespace Crc16

/-! ## Shifting -/

lemma shift_eq (r : BitVec 16) :
    shift r = (r >>> 1) ^^^ (if r.getLsbD 0 then 0x8408#16 else 0#16) := by
  unfold shift
  cases r.getLsbD 0
  · simp
  · rfl

lemma shift_xor (r s : BitVec 16) : shift (r ^^^ s) = shift r ^^^ shift s := by
  have hpoly (a b : Bool) : (if a ^^ b then 0x8408#16 else 0#16) =
      (if a then 0x8408#16 else 0#16) ^^^ (if b then 0x8408#16 else 0#16) := by
    cases a <;> cases b <;> rfl
  rw [shift_eq, shift_eq r, shift_eq s, BitVec.getLsbD_xor, BitVec.ushiftRight_xor_distrib, hpoly]
  ac_rfl

/-- Nothing is lost by shifting. -/
lemma eq_zero_of_shift {r : BitVec 16} (h : shift r = 0#16) : r = 0#16 := by
  rw [shift_eq] at h
  have hlow : r.getLsbD 0 = false := by
    -- Otherwise the polynomial has set the highest bit.
    by_contra hbit
    rw [Bool.not_eq_false] at hbit
    rw [hbit] at h
    have htop := congrArg (BitVec.getLsbD · 15) h
    simp at htop
  rw [hlow] at h
  ext i hi
  rcases i with _ | i
  · simpa using hlow
  · have hbit := congrArg (BitVec.getLsbD · i) h
    simpa [BitVec.getLsbD_ushiftRight, Nat.add_comm, BitVec.getLsbD_eq_getElem hi] using hbit

lemma shift_injective : Function.Injective shift := by
  intro r s h
  have hzero : shift (r ^^^ s) = 0#16 := by rw [shift_xor, h, BitVec.xor_self]
  exact BitVec.xor_eq_zero_iff.1 (eq_zero_of_shift hzero)

/-! ## Single bits -/

/-- A bit as it is added to the register. -/
def pulse (b : Bool) : BitVec 16 := if b then 1#16 else 0#16

lemma pulse_xor (a b : Bool) : pulse (a ^^ b) = pulse a ^^^ pulse b := by
  cases a <;> cases b <;> rfl

/-- The register after some bits. -/
def absorb (r : BitVec 16) (bits : List Bool) : BitVec 16 :=
  bits.foldl (fun r b => shift (r ^^^ pulse b)) r

lemma absorb_cons (r : BitVec 16) (b : Bool) (bits : List Bool) :
    absorb r (b :: bits) = absorb (shift (r ^^^ pulse b)) bits :=
  rfl

lemma absorb_append (r : BitVec 16) (as bs : List Bool) :
    absorb r (as ++ bs) = absorb (absorb r as) bs :=
  List.foldl_append

/-- The register is linear. -/
lemma absorb_xor {as bs : List Bool} (h : as.length = bs.length) (r s : BitVec 16) :
    absorb (r ^^^ s) (List.zipWith Bool.xor as bs) = absorb r as ^^^ absorb s bs := by
  induction as generalizing bs r s with
  | nil =>
    obtain rfl := List.length_eq_zero_iff.1 h.symm
    rfl
  | cons a as ih =>
    obtain ⟨b, bs, rfl⟩ := List.exists_cons_of_length_eq_add_one h.symm
    have hstep : shift (r ^^^ s ^^^ pulse (a ^^ b)) =
        shift (r ^^^ pulse a) ^^^ shift (s ^^^ pulse b) := by
      rw [← shift_xor, pulse_xor]
      congr 1
      ac_rfl
    rw [List.zipWith_cons_cons, absorb_cons, hstep, ih (Nat.succ.inj h)]
    rfl

/-- Without its lowest bit a word is only moved. -/
lemma shift_xor_pulse (v : BitVec 16) : shift (v ^^^ pulse (v.getLsbD 0)) = v >>> 1 := by
  have hlow : (v ^^^ pulse (v.getLsbD 0)).getLsbD 0 = false := by
    rw [BitVec.getLsbD_xor]
    cases v.getLsbD 0 <;> rfl
  have hmoved : pulse (v.getLsbD 0) >>> 1 = 0#16 := by
    cases v.getLsbD 0 <;> rfl
  rw [shift_eq, hlow, BitVec.ushiftRight_xor_distrib, hmoved]
  simp

/-- Up to sixteen bits can be added all at once. -/
lemma absorb_lowBits {n : Nat} {v : BitVec 16} (h : v >>> n = 0#16) (r : BitVec 16) :
    absorb r (lowBits n v) = shift^[n] (r ^^^ v) := by
  induction n generalizing r v with
  | zero =>
    rw [BitVec.ushiftRight_zero] at h
    rw [h, BitVec.xor_zero]
    rfl
  | succ n ih =>
    have hrest : v >>> 1 >>> n = 0#16 := by
      rw [← BitVec.shiftRight_add, Nat.add_comm, h]
    have hsplit : r ^^^ v = (r ^^^ pulse (v.getLsbD 0)) ^^^ (v ^^^ pulse (v.getLsbD 0)) := by
      rw [show (r ^^^ pulse (v.getLsbD 0)) ^^^ (v ^^^ pulse (v.getLsbD 0)) =
        r ^^^ v ^^^ (pulse (v.getLsbD 0) ^^^ pulse (v.getLsbD 0)) by ac_rfl, BitVec.xor_self,
        BitVec.xor_zero]
    rw [lowBits_succ, absorb_cons, ih hrest, Function.iterate_succ_apply, hsplit,
      shift_xor (r ^^^ _), shift_xor_pulse]

/-! ## Bytes -/

lemma repeat_shift (n : Nat) (r : BitVec 16) : Nat.repeat shift n r = shift^[n] r := by
  induction n with
  | zero => rfl
  | succ n ih => rw [Function.iterate_succ_apply', ← ih]; rfl

lemma feed_eq_absorb (r : BitVec 16) (b : UInt8) : feed r b = absorb r (lowBits 8 b.toBitVec) := by
  have hsmall : b.toBitVec.setWidth 16 >>> 8 = 0#16 := by
    ext i hi
    simp
  rw [← lowBits_setWidth (show 8 ≤ 16 by omega), absorb_lowBits hsmall, feed, repeat_shift]

/-- The register after some bytes is the register after their bits. -/
theorem register_eq_absorb (r : BitVec 16) (data : Bytes) :
    register r data = absorb r data.wire := by
  induction data generalizing r with
  | nil => rfl
  | cons b data ih =>
    rw [Bytes.wire_cons, absorb_append, ← feed_eq_absorb, ← ih]
    rfl

/-- After a frame with its trailer the register does not depend on the frame. -/
theorem register_closed (c : Crc16) (data : Bytes) :
    register c.init (Frame.closed c.trailer data) = shift^[16] c.final := by
  have hword : c.trailer.compute data = Bytes.ofWord16 (UInt16.ofBitVec (c.checksum data)) := rfl
  have hgone : c.checksum data >>> 16 = 0#16 := by
    ext i hi
    simp
  rw [Frame.closed, register_eq_absorb, Bytes.wire_append, absorb_append, hword,
    Bytes.wire_ofWord16, absorb_lowBits hgone, ← register_eq_absorb, checksum,
    ← BitVec.xor_assoc, BitVec.xor_self, BitVec.zero_xor]

end Crc16
end TagReader
