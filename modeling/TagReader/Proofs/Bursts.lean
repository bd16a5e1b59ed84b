/-
# Bursts of errors

Noise on the air rarely hits a single bit; it hits bits that are close together.  A *burst* is any
damage to a frame that stays within some bits in a row, in the order in which they are sent, so it
may begin in one byte and end in another one, and may reach over into the trailer.

The register has sixteen bits, and it keeps what is added to it:

* two strings of at most sixteen bits lead from one register to the same register only if they are
  the same (`Crc16.eq_of_absorb_eq`), as they are added all at once and nothing is lost by shifting;
* the same bits lead from different registers to different ones (`Crc16.absorb_injective`).

So of all frames that agree outside of sixteen bits in a row the host accepts at most one.  The main
result is `Crc16.decode_of_burst`.
-/
import TagReader.Proofs.Framing
import TagReader.Proofs.Register

namespace TagReader

/-! ## Bursts -/

/-- Two strings of bytes have the same bits except for `n` of them in a row, the first of which is
at position `i`. -/
structure Bytes.AgreeOutside (i n : Nat) (as bs : Bytes) : Prop where
  before : as.wire.take i = bs.wire.take i
  behind : as.wire.drop (i + n) = bs.wire.drop (i + n)

namespace Crc16

/-! ## What the register keeps -/

/-- The same bits lead from different registers to different ones. -/
lemma absorb_injective (bits : List Bool) : Function.Injective fun r => absorb r bits := by
  intro r s h
  induction bits generalizing r s with
  | nil => exact h
  | cons b bits ih =>
    have hshift : shift (r ^^^ pulse b) = shift (s ^^^ pulse b) := ih h
    exact (BitVec.xor_left_inj _).1 (shift_injective hshift)

/-- The register tells bits apart, as long as there are not more of them than it has itself. -/
lemma eq_of_absorb_eq {as bs : List Bool} (hlen : as.length = bs.length) (hmax : as.length ≤ 16)
    {r : BitVec 16} (h : absorb r as = absorb r bs) : as = bs := by
  obtain ⟨u, hu, has⟩ := exists_lowBits hmax
  obtain ⟨v, hv, hbs⟩ := exists_lowBits (hlen ▸ hmax)
  have hwords : shift^[as.length] (r ^^^ u) = shift^[as.length] (r ^^^ v) := by
    rw [← absorb_lowBits hu, has, h, hlen, ← absorb_lowBits hv, hbs]
  have huv : u = v := (BitVec.xor_right_inj _).1 (shift_injective.iterate _ hwords)
  rw [← has, ← hbs, huv, hlen]

/-- Bits that differ only within sixteen in a row are told apart by the register. -/
lemma eq_of_absorb_eq_of_agree {as bs : List Bool} {i : Nat} (hlen : as.length = bs.length)
    (hbefore : as.take i = bs.take i) (hbehind : as.drop (i + 16) = bs.drop (i + 16))
    {r : BitVec 16} (h : absorb r as = absorb r bs) : as = bs := by
  have hsplit (cs : List Bool) :
      cs = cs.take i ++ ((cs.drop i).take 16 ++ cs.drop (i + 16)) := by
    rw [← List.drop_drop, List.take_append_drop, List.take_append_drop]
  rw [hsplit as, hsplit bs, absorb_append, absorb_append, absorb_append, absorb_append, hbefore,
    hbehind] at h
  -- What comes after the burst is the same, so the registers are already the same behind it.
  have hmiddle := absorb_injective _ h
  have hburst : (as.drop i).take 16 = (bs.drop i).take 16 := by
    refine eq_of_absorb_eq ?_ ?_ hmiddle
    · simp only [List.length_take, List.length_drop, hlen]
    · rw [List.length_take]
      exact Nat.min_le_left _ _
  rw [hsplit as, hsplit bs, hbefore, hburst, hbehind]

/-! ## Damaged frames -/

/-- A frame that is accepted is its data followed by their trailer, so the register after it is
known. -/
lemma absorb_of_decode {c : Crc16} {f : Bytes} {r : Reply}
    (h : Frame.decode c.trailer f = .ok r) : absorb c.init f.wire = shift^[16] c.final := by
  have hin := Frame.inbound_of_decode h
  have hclosed : Frame.closed c.trailer (Frame.content c.trailer f) = f := by
    rw [Frame.closed, ← hin.closing, Frame.content_append_check]
  rw [← register_eq_absorb, ← hclosed, register_closed]

/-- **A burst of sixteen bits is detected.**  Whatever the initial and the final value of the check,
if a frame is damaged on its way, but only within sixteen bits in a row in the order in which they
are sent, then the host refuses it, and by a fault after which it tries again. -/
theorem decode_of_burst (c : Crc16) {f g : Bytes} {r : Reply} {i : Nat}
    (hf : Frame.decode c.trailer f = .ok r) (hlen : g.length = f.length)
    (hburst : Bytes.AgreeOutside i 16 g f) (hne : g ≠ f) :
    ∃ fault, Frame.decode c.trailer g = .error fault ∧ fault.isTransient = true := by
  rcases hg : Frame.decode c.trailer g with fault | r'
  · exact ⟨fault, rfl, Frame.isTransient_of_decode hg⟩
  · have hsame : absorb c.init g.wire = absorb c.init f.wire := by
      rw [absorb_of_decode hg, absorb_of_decode hf]
    have hbits : g.wire.length = f.wire.length := by
      rw [Bytes.length_wire, Bytes.length_wire, hlen]
    have hwire := eq_of_absorb_eq_of_agree hbits hburst.before hburst.behind hsame
    exact absurd (Bytes.wire_injective hwire) hne

/-- The burst begins in the last byte of the data and ends in the last one of the trailer. -/
theorem decode_of_burst_across :
    let f : Bytes := [0x08, 0x00, 0x00, 0x00, 0x00, 0xAA, 0x87, 0xDC]
    let g : Bytes := [0x08, 0x00, 0x00, 0x00, 0x00, 0xA8, 0x79, 0xDD]
    (Frame.decode x25.trailer f = .ok ⟨Octets.fill 3 0, 0, [0xAA]⟩ ∧ g.length = f.length ∧
      Bytes.AgreeOutside 41 16 g f ∧ g ≠ f) ∧
      ∃ fault, Frame.decode x25.trailer g = .error fault ∧ fault.isTransient = true := by
  intro f g
  have hf : Frame.decode x25.trailer f = .ok ⟨Octets.fill 3 0, 0, [0xAA]⟩ := by decide +kernel
  have hburst : Bytes.AgreeOutside 41 16 g f := ⟨by decide +kernel, by decide +kernel⟩
  have hne : g ≠ f := by decide
  exact ⟨⟨hf, rfl, hburst, hne⟩, decode_of_burst x25 hf rfl hburst hne⟩

end Crc16
end TagReader
