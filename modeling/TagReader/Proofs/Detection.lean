/-
# Errors that the check detects

A frame that is damaged on its way is not taken for another one.  Since the register is linear, the
damage goes unnoticed only if its bits alone, shifted through an empty register, leave that empty
(`Crc16.register_xor`).  This file shows that one, two or three flipped bits never do:

* shifting keeps the parity of the register, as the polynomial together with the bit that leaves has
  an even number of bits; so an odd number of flipped bits leaves something behind;
* a single bit that is shifted through comes back to where it was only after more shifts than a
  frame has bits (`Crc16.iterate_shift_one_ne`); so two bits do not cancel.

The main result is `Crc16.decode_of_few_flips`.
-/
import TagReader.Proofs.Framing
import TagReader.Proofs.Register

namespace TagReader

/-! ## Odd numbers of bits -/

/-- The exclusive or of some bits. -/
def odd (bits : List Bool) : Bool := bits.foldr Bool.xor false

lemma odd_append (as bs : List Bool) : odd (as ++ bs) = (odd as ^^ odd bs) := by
  induction as with
  | nil => exact (Bool.false_xor _).symm
  | cons a as ih =>
    show (a ^^ odd (as ++ bs)) = ((a ^^ odd as) ^^ odd bs)
    rw [ih, Bool.xor_assoc]

lemma odd_zipWith {as bs : List Bool} (h : as.length = bs.length) :
    odd (List.zipWith Bool.xor as bs) = (odd as ^^ odd bs) := by
  induction as generalizing bs with
  | nil =>
    obtain rfl := List.length_eq_zero_iff.1 h.symm
    rfl
  | cons a as ih =>
    obtain ⟨b, bs, rfl⟩ := List.exists_cons_of_length_eq_add_one h.symm
    show ((a ^^ b) ^^ odd (List.zipWith Bool.xor as bs)) = ((a ^^ odd as) ^^ (b ^^ odd bs))
    rw [ih (Nat.succ.inj h), Bool.xor_assoc, Bool.xor_assoc, Bool.xor_left_comm b]

/-- Bits are odd if an odd number of them is set. -/
lemma odd_eq (bits : List Bool) : odd bits = decide (bits.count true % 2 = 1) := by
  induction bits with
  | nil => rfl
  | cons b bits ih =>
    show (b ^^ odd bits) = _
    rw [ih]
    cases b with
    | false => simp
    | true =>
      rw [List.count_cons_self, Bool.true_xor, ← decide_not]
      exact decide_eq_decide.2 (by omega)

/-- The number of bits in which two strings of bytes differ. -/
def Bytes.distance (as bs : Bytes) : Nat := (wire (xor as bs)).count true

namespace Crc16

/-! ## Parity -/

/-- Whether an odd number of bits of the register is set. -/
def parity (r : BitVec 16) : Bool := odd (lowBits 16 r)

lemma parity_xor (r s : BitVec 16) : parity (r ^^^ s) = (parity r ^^ parity s) := by
  unfold parity
  rw [lowBits_xor, odd_zipWith (by rw [length_lowBits, length_lowBits])]

/-- Shifting keeps the parity. -/
lemma parity_shift (r : BitVec 16) : parity (shift r) = parity r := by
  -- A bit that leaves is made up for by the three bits of the polynomial.
  have hpoly : parity (if r.getLsbD 0 then 0x8408#16 else 0#16) = r.getLsbD 0 := by
    cases r.getLsbD 0 <;> rfl
  have hmoved : parity (r >>> 1) = odd (lowBits 15 (r >>> 1)) := by
    rw [parity, lowBits_ushiftRight_one, odd_append]
    exact Bool.xor_false _
  have hall : parity r = (r.getLsbD 0 ^^ odd (lowBits 15 (r >>> 1))) := by
    rw [parity, lowBits_succ]
    rfl
  rw [shift_eq, parity_xor, hpoly, hmoved, hall, Bool.xor_comm]

lemma parity_absorb (r : BitVec 16) (bits : List Bool) :
    parity (absorb r bits) = (parity r ^^ odd bits) := by
  induction bits generalizing r with
  | nil => exact (Bool.xor_false _).symm
  | cons b bits ih =>
    have hpulse : parity (pulse b) = b := by cases b <;> rfl
    rw [absorb_cons, ih, parity_shift, parity_xor, hpulse, Bool.xor_assoc]
    rfl

/-! ## The way of a single bit -/

/-- A bit that is shifted through does not come back within the length of a frame. -/
lemma iterate_shift_one_ne {n : Nat} (hpos : 0 < n) (hlt : n < 2040) : shift^[n] 1#16 ≠ 1#16 := by
  have hall : 1#16 ∉ List.iterate shift (shift 1#16) 2039 := by decide +kernel
  intro h
  obtain ⟨m, rfl⟩ := Nat.exists_eq_succ_of_ne_zero (Nat.ne_of_gt hpos)
  exact hall (List.mem_iterate.2 ⟨m, by omega, h.symm⟩)

lemma eq_zero_of_iterate_shift {n : Nat} {r : BitVec 16} (h : shift^[n] r = 0#16) : r = 0#16 := by
  have hzero : shift^[n] 0#16 = 0#16 := Function.iterate_fixed rfl n
  exact shift_injective.iterate n (h.trans hzero.symm)

lemma absorb_of_count_zero {bits : List Bool} (h : bits.count true = 0) (r : BitVec 16) :
    absorb r bits = shift^[bits.length] r := by
  induction bits generalizing r with
  | nil => rfl
  | cons b bits ih =>
    cases b with
    | true => simp at h
    | false =>
      rw [List.count_cons_of_ne (by decide)] at h
      rw [absorb_cons, ih h]
      exact congrArg _ (congrArg shift (BitVec.xor_zero))

/-- A second bit does not cancel a first one. -/
lemma absorb_ne_zero_of_count_one {bits : List Bool} (h : bits.count true = 1) {n : Nat}
    (hpos : 0 < n) (hlen : n + bits.length ≤ 2040) : absorb (shift^[n] 1#16) bits ≠ 0#16 := by
  induction bits generalizing n with
  | nil => cases h
  | cons b bits ih =>
    rw [List.length_cons] at hlen
    cases b with
    | false =>
      rw [List.count_cons_of_ne (by decide)] at h
      have hnext := ih h (Nat.succ_pos n) (by omega)
      rw [Function.iterate_succ_apply'] at hnext
      rwa [absorb_cons, pulse, if_neg Bool.false_ne_true, BitVec.xor_zero]
    | true =>
      rw [List.count_cons_self, Nat.add_eq_right] at h
      rw [absorb_cons, absorb_of_count_zero h, ← Function.iterate_succ_apply]
      intro hzero
      exact iterate_shift_one_ne hpos (by omega)
        (BitVec.xor_eq_zero_iff.1 (eq_zero_of_iterate_shift hzero))

lemma absorb_ne_zero_of_count_two {bits : List Bool} (h : bits.count true = 2)
    (hlen : bits.length ≤ 2040) : absorb 0#16 bits ≠ 0#16 := by
  induction bits with
  | nil => cases h
  | cons b bits ih =>
    rw [List.length_cons] at hlen
    cases b with
    | false =>
      rw [List.count_cons_of_ne (by decide)] at h
      exact ih h (by omega)
    | true =>
      rw [List.count_cons_self] at h
      exact absorb_ne_zero_of_count_one (n := 1) (by omega) Nat.one_pos (by omega)

/-- One, two or three bits leave something behind in an empty register. -/
lemma absorb_ne_zero {bits : List Bool} (hpos : 0 < bits.count true) (hle : bits.count true ≤ 3)
    (hlen : bits.length ≤ 2040) : absorb 0#16 bits ≠ 0#16 := by
  by_cases htwo : bits.count true = 2
  · exact absorb_ne_zero_of_count_two htwo hlen
  · have hodd : odd bits = true := by
      rw [odd_eq]
      exact decide_eq_true (by omega)
    intro hzero
    have hparity := parity_absorb 0#16 bits
    rw [hzero, hodd] at hparity
    exact absurd hparity (by decide)

/-! ## Damaged frames -/

/-- Where two strings differ decides how the register differs after them. -/
lemma register_xor {f g : Bytes} (hlen : f.length = g.length) (r : BitVec 16) :
    register r f ^^^ register r g = absorb 0#16 (Bytes.xor f g).wire := by
  have hwire : f.wire.length = g.wire.length := by
    rw [Bytes.length_wire, Bytes.length_wire, hlen]
  rw [register_eq_absorb, register_eq_absorb, ← absorb_xor hwire, BitVec.xor_self,
    Bytes.wire_xor hlen]

/-- Of two frames that differ in one, two or three bits, at most one has a correct trailer. -/
lemma closed_ne_closed (c : Crc16) {f g data data' : Bytes} (hlen : f.length = g.length)
    (hmax : f.length ≤ 255) (hpos : 0 < Bytes.distance f g) (hle : Bytes.distance f g ≤ 3)
    (hf : f = Frame.closed c.trailer data) : g ≠ Frame.closed c.trailer data' := by
  intro hg
  have hbits : (Bytes.xor f g).wire.length ≤ 2040 := by
    rw [Bytes.length_wire, Bytes.length_xor hlen]
    omega
  refine absorb_ne_zero hpos hle hbits ?_
  rw [← register_xor hlen c.init, hf, hg, register_closed, register_closed, BitVec.xor_self]

/-- **Three flipped bits are detected.**  Whatever the initial and the final value of the check, if
one, two or three bits of a frame are flipped on its way, its length and its trailer included, then
the host refuses it: for its length if the byte that counts was hit, otherwise for its trailer. -/
theorem decode_of_few_flips (c : Crc16) {f g : Bytes} {r : Reply}
    (hf : Frame.decode c.trailer f = .ok r) (hlen : g.length = f.length)
    (hpos : 0 < Bytes.distance f g) (hle : Bytes.distance f g ≤ 3) :
    Frame.decode c.trailer g =
      .error (if g.head? = f.head? then
          .checksumMismatch (c.trailer.compute (Frame.content c.trailer g))
            (Frame.check c.trailer g)
        else .frameLength (Frame.declared g) g.length) := by
  have hin := Frame.inbound_of_decode hf
  have hclosed : f = Frame.closed c.trailer (Frame.content c.trailer f) := by
    rw [Frame.closed, ← hin.closing, Frame.content_append_check]
  by_cases hhead : g.head? = f.head?
  · rw [if_pos hhead]
    have hsized : Frame.Sized c.trailer Frame.headerLength g := by
      rw [Frame.sized_iff (by decide), hhead, hlen]
      exact ⟨hin.counted, hin.least_le⟩
    refine Frame.decode_of_mismatch hsized fun hc => ?_
    have hg : g = Frame.closed c.trailer (Frame.content c.trailer g) := by
      rw [Frame.closed, hc, Frame.content_append_check]
    exact closed_ne_closed c hlen.symm hin.length_le hpos hle hclosed hg
  · rw [if_neg hhead]
    -- A frame of the right length would have the first byte that it had before.
    refine Frame.decode_of_not_sized fun hsized => hhead ?_
    have hcount := ((Frame.sized_iff (by decide)).1 hsized).1
    rw [hlen, ← hin.counted] at hcount
    exact Option.map_injective (fun a b => UInt8.toNat_inj.1) hcount

/-- Three bits are flipped: the lowest one of the payload, and one in each byte of the trailer. -/
theorem decode_of_few_flips_across :
    let f : Bytes := [0x08, 0x00, 0x00, 0x00, 0x00, 0xAA, 0x87, 0xDC]
    let g : Bytes := [0x08, 0x00, 0x00, 0x00, 0x00, 0xAB, 0x07, 0xDD]
    Frame.decode x25.trailer f = .ok ⟨Octets.fill 3 0, 0, [0xAA]⟩ ∧ g.length = f.length ∧
      (0 < Bytes.distance f g ∧ Bytes.distance f g ≤ 3) ∧
      Frame.decode x25.trailer g =
        .error (.checksumMismatch (x25.trailer.compute [0x08, 0x00, 0x00, 0x00, 0x00, 0xAB])
          [0x07, 0xDD]) := by
  intro f g
  have hf : Frame.decode x25.trailer f = .ok ⟨Octets.fill 3 0, 0, [0xAA]⟩ := by decide +kernel
  have hdist : 0 < Bytes.distance f g ∧ Bytes.distance f g ≤ 3 := by decide +kernel
  exact ⟨hf, rfl, hdist, decode_of_few_flips x25 hf rfl hdist.1 hdist.2⟩

end Crc16
end TagReader
