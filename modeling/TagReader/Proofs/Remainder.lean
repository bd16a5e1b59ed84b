/-
# The check as a remainder

Bits are coefficients over the field of two elements.  In the order in which they are sent, those of
a message belong to falling powers of `x` (`Crc16.polynomial`), and the bits of a register, whose
lowest one is the next to leave, to the powers from `x^15` down to `x^0` (`Crc16.ofRegister`).  This
file shows that the register divides by `x^16 + x^12 + x^5 + 1`.

* Shifting multiplies by `x`, and takes off the divisor if a set bit leaves
  (`Crc16.X_mul_ofRegister`).  So, up to a multiple of the divisor, the register holds what it held
  before, moved up by one power for each bit, and the bits, moved up by sixteen powers
  (`Crc16.exists_quotient`).
* A register has only powers below the sixteenth, so this is the remainder
  (`Crc16.ofRegister_absorb`), and different registers are different remainders
  (`Crc16.ofRegister_injective`).

The main result is `Crc16.checksum_remainder`.
-/
import Mathlib.Algebra.CharP.Two
import Mathlib.Algebra.Field.ZMod
import Mathlib.Algebra.Polynomial.Div
import Mathlib.Tactic.ComputeDegree
import Mathlib.Tactic.LinearCombination
import TagReader.Proofs.Register

namespace TagReader
namespace Crc16

open Polynomial

/-! ## Bits as coefficients -/

/-- A bit as a coefficient. -/
def coefficient (b : Bool) : ZMod 2 := if b then 1 else 0

lemma coefficient_xor (a b : Bool) : coefficient (a ^^ b) = coefficient a + coefficient b := by
  cases a <;> cases b <;> decide

lemma coefficient_injective : Function.Injective coefficient := by
  have hall : ∀ a b, coefficient a = coefficient b → a = b := by decide
  intro a b h
  exact hall a b h

/-- The polynomial with the given coefficients, that of the highest power first. -/
noncomputable def polynomial : List Bool → (ZMod 2)[X]
  | [] => 0
  | b :: bits => C (coefficient b) * X ^ bits.length + polynomial bits

@[simp] lemma polynomial_nil : polynomial [] = 0 := rfl

lemma polynomial_cons (b : Bool) (bits : List Bool) :
    polynomial (b :: bits) = C (coefficient b) * X ^ bits.length + polynomial bits :=
  rfl

lemma polynomial_append (as bs : List Bool) :
    polynomial (as ++ bs) = polynomial as * X ^ bs.length + polynomial bs := by
  induction as with
  | nil => simp
  | cons a as ih =>
    rw [List.cons_append, polynomial_cons, polynomial_cons, ih, List.length_append]
    ring

lemma polynomial_xor {as bs : List Bool} (h : as.length = bs.length) :
    polynomial (List.zipWith Bool.xor as bs) = polynomial as + polynomial bs := by
  induction as generalizing bs with
  | nil =>
    obtain rfl := List.length_eq_zero_iff.1 h.symm
    simp
  | cons a as ih =>
    obtain ⟨b, bs, rfl⟩ := List.exists_cons_of_length_eq_add_one h.symm
    have hlen : as.length = bs.length := Nat.succ.inj h
    rw [List.zipWith_cons_cons, polynomial_cons, polynomial_cons, polynomial_cons, ih hlen,
      List.length_zipWith, hlen, Nat.min_self, coefficient_xor, C_add]
    ring

lemma degree_polynomial_lt (bits : List Bool) : (polynomial bits).degree < bits.length := by
  induction bits with
  | nil => simp
  | cons b bits ih =>
    have hlt : (bits.length : WithBot ℕ) < (b :: bits).length := by
      rw [List.length_cons]
      exact_mod_cast Nat.lt_succ_self _
    exact (degree_add_le _ _).trans_lt
      (max_lt ((degree_C_mul_X_pow_le _ _).trans_lt hlt) (ih.trans hlt))

/-- The first bit is the coefficient of the highest power. -/
lemma coeff_polynomial_cons (b : Bool) (bits : List Bool) :
    (polynomial (b :: bits)).coeff bits.length = coefficient b := by
  rw [polynomial_cons, coeff_add, coeff_eq_zero_of_degree_lt (degree_polynomial_lt bits)]
  simp

/-- As many bits with the same polynomial are the same. -/
lemma eq_of_polynomial_eq {as bs : List Bool} (hlen : as.length = bs.length)
    (h : polynomial as = polynomial bs) : as = bs := by
  induction as generalizing bs with
  | nil => exact (List.length_eq_zero_iff.1 hlen.symm).symm
  | cons a as ih =>
    obtain ⟨b, bs, rfl⟩ := List.exists_cons_of_length_eq_add_one hlen.symm
    have hrest : as.length = bs.length := Nat.succ.inj hlen
    have hfirst : a = b := by
      apply coefficient_injective
      rw [← coeff_polynomial_cons a as, h, hrest, coeff_polynomial_cons]
    rw [polynomial_cons, polynomial_cons, hfirst, hrest] at h
    rw [hfirst, ih hrest (add_left_cancel h)]

/-! ## Registers -/

/-- The polynomial that a register stands for: bit `i` is the coefficient of `x^(15 - i)`. -/
noncomputable def ofRegister (r : BitVec 16) : (ZMod 2)[X] :=
  ∑ i ∈ Finset.range 16, C (coefficient (r.getLsbD i)) * X ^ (15 - i)

lemma polynomial_lowBits {w : ℕ} (n : ℕ) (v : BitVec w) :
    polynomial (lowBits n v) =
      ∑ i ∈ Finset.range n, C (coefficient (v.getLsbD i)) * X ^ (n - 1 - i) := by
  induction n generalizing v with
  | zero => rfl
  | succ n ih =>
    rw [lowBits_succ, polynomial_cons, ih, length_lowBits, Finset.sum_range_succ', add_comm]
    simp [BitVec.getLsbD_ushiftRight, Nat.sub_sub, Nat.add_comm]

/-- The bits of a register are its coefficients in the order in which they leave. -/
lemma ofRegister_eq (r : BitVec 16) : ofRegister r = polynomial (lowBits 16 r) :=
  (polynomial_lowBits 16 r).symm

lemma ofRegister_xor (r s : BitVec 16) : ofRegister (r ^^^ s) = ofRegister r + ofRegister s := by
  rw [ofRegister_eq, ofRegister_eq, ofRegister_eq, lowBits_xor,
    polynomial_xor (by rw [length_lowBits, length_lowBits])]

lemma ofRegister_injective : Function.Injective ofRegister := by
  intro r s h
  rw [ofRegister_eq, ofRegister_eq] at h
  exact lowBits_injective 16
    (eq_of_polynomial_eq (by rw [length_lowBits, length_lowBits]) h)

lemma degree_ofRegister_lt (r : BitVec 16) : (ofRegister r).degree < 16 := by
  have h := degree_polynomial_lt (lowBits 16 r)
  rwa [← ofRegister_eq, length_lowBits] at h

/-! ## Division -/

/-- The polynomial of the check, by which messages are divided. -/
noncomputable def divisor : (ZMod 2)[X] := X ^ 16 + X ^ 12 + X ^ 5 + 1

lemma monic_divisor : divisor.Monic := by
  rw [divisor]
  monicity!

lemma degree_divisor : divisor.degree = 16 := by
  rw [divisor]
  compute_degree!

@[simp] lemma ofRegister_zero : ofRegister 0#16 = 0 := by
  simp [ofRegister, coefficient]

lemma ofRegister_pulse (b : Bool) : ofRegister (pulse b) = C (coefficient b) * X ^ 15 := by
  cases b <;> simp [ofRegister, pulse, coefficient]

/-- When a set bit leaves, the divisor without its highest power is added. -/
lemma ofRegister_feedback (b : Bool) :
    ofRegister (if b then 0x8408#16 else 0#16) =
      C (coefficient b) * (X ^ 12 + X ^ 5 + 1) := by
  cases b with
  | false => simp [coefficient]
  | true => simp [ofRegister, coefficient, Finset.sum_range_succ]

/-- When a register is moved, each of its bits belongs to the next power, but for the lowest one,
which leaves. -/
lemma X_mul_ofRegister_eq_moved (r : BitVec 16) :
    X * ofRegister r = C (coefficient (r.getLsbD 0)) * X ^ 16 + ofRegister (r >>> 1) := by
  have hmoved : ofRegister (r >>> 1) = polynomial (lowBits 15 (r >>> 1)) * X := by
    rw [ofRegister_eq, lowBits_ushiftRight_one, polynomial_append]
    simp [polynomial_cons, coefficient]
  rw [hmoved, ofRegister_eq, lowBits_succ, polynomial_cons, length_lowBits]
  ring

/-- A shift multiplies by `x`, and takes off the divisor if a set bit leaves. -/
lemma X_mul_ofRegister (r : BitVec 16) :
    X * ofRegister r = ofRegister (shift r) + C (coefficient (r.getLsbD 0)) * divisor := by
  rw [X_mul_ofRegister_eq_moved, shift_eq, ofRegister_xor, ofRegister_feedback, divisor]
  -- The lower powers of the divisor are there twice.
  linear_combination
    -C (coefficient (r.getLsbD 0)) * (X ^ 12 + X ^ 5 + 1) * CharTwo.two_eq_zero (R := (ZMod 2)[X])

/-- Up to a multiple of the divisor, the register holds its old value, multiplied by `x` for each
bit, and the bits, multiplied by `x^16`. -/
lemma exists_quotient (r : BitVec 16) (bits : List Bool) :
    ∃ q, ofRegister (absorb r bits) + divisor * q =
      ofRegister r * X ^ bits.length + polynomial bits * X ^ 16 := by
  induction bits generalizing r with
  | nil => exact ⟨0, by simp [absorb]⟩
  | cons b bits ih =>
    have hs : ofRegister (r ^^^ pulse b) = ofRegister r + C (coefficient b) * X ^ 15 := by
      rw [ofRegister_xor, ofRegister_pulse]
    rw [absorb_cons]
    generalize r ^^^ pulse b = s at hs
    obtain ⟨q, hq⟩ := ih (shift s)
    refine ⟨q + C (coefficient (s.getLsbD 0)) * X ^ bits.length, ?_⟩
    calc ofRegister (absorb (shift s) bits) +
          divisor * (q + C (coefficient (s.getLsbD 0)) * X ^ bits.length)
        = (ofRegister (shift s) + C (coefficient (s.getLsbD 0)) * divisor) * X ^ bits.length +
            polynomial bits * X ^ 16 := by
          linear_combination hq
      _ = X * ofRegister s * X ^ bits.length + polynomial bits * X ^ 16 := by
          rw [X_mul_ofRegister]
      _ = ofRegister r * X ^ (b :: bits).length + polynomial (b :: bits) * X ^ 16 := by
          rw [hs, polynomial_cons, List.length_cons]
          ring

/-- The register is the remainder. -/
lemma ofRegister_absorb (r : BitVec 16) (bits : List Bool) :
    ofRegister (absorb r bits) =
      (ofRegister r * X ^ bits.length + polynomial bits * X ^ 16) %ₘ divisor := by
  obtain ⟨q, hq⟩ := exists_quotient r bits
  have hdegree : (ofRegister (absorb r bits)).degree < divisor.degree := by
    rw [degree_divisor]
    exact degree_ofRegister_lt _
  exact (div_modByMonic_unique q _ monic_divisor ⟨hq, hdegree⟩).2.symm

/-! ## Checks -/

lemma ofRegister_checksum (c : Crc16) (data : Bytes) :
    ofRegister (c.checksum data ^^^ c.final) =
      (ofRegister c.init * X ^ (8 * data.length) + polynomial data.wire * X ^ 16) %ₘ divisor := by
  rw [checksum, BitVec.xor_assoc, BitVec.xor_self, BitVec.xor_zero, register_eq_absorb,
    ofRegister_absorb, Bytes.length_wire]

lemma eq_checksum_iff {c : Crc16} {data : Bytes} {r : BitVec 16} :
    r = c.checksum data ↔ ofRegister (r ^^^ c.final) =
      (ofRegister c.init * X ^ (8 * data.length) + polynomial data.wire * X ^ 16) %ₘ divisor := by
  rw [← ofRegister_checksum, ofRegister_injective.eq_iff, BitVec.xor_left_inj]

lemma polynomial_wire_xor {a b : Bytes} (h : a.length = b.length) :
    polynomial (Bytes.xor a b).wire = polynomial a.wire + polynomial b.wire := by
  have hwire : a.wire.length = b.wire.length := by
    rw [Bytes.length_wire, Bytes.length_wire, h]
  rw [Bytes.wire_xor h, polynomial_xor hwire]

/-- **The check is the remainder of a division.**  Whatever the initial and the final value, the
check over some data, with the final value taken off, represents what remains of `x^n` times the
initial value plus `x^16` times the data, where `n` is the number of bits of the data, on division
by `x^16 + x^12 + x^5 + 1`; and no other register does.  The check is therefore affine: over three
strings of one length the checks add up to the check over their sum. -/
theorem checksum_remainder (c : Crc16) :
    (∀ (data : Bytes) (r : BitVec 16), r = c.checksum data ↔ ofRegister (r ^^^ c.final) =
      (ofRegister c.init * X ^ (8 * data.length) + polynomial data.wire * X ^ 16) %ₘ divisor) ∧
    ∀ a b d : Bytes, a.length = b.length → b.length = d.length →
      c.checksum a ^^^ c.checksum b ^^^ c.checksum d =
        c.checksum (Bytes.xor (Bytes.xor a b) d) := by
  refine ⟨fun data r => eq_checksum_iff, ?_⟩
  intro a b d hab hbd
  have hlen : (Bytes.xor a b).length = d.length := (Bytes.length_xor hab).trans (hab.trans hbd)
  have hfinal : (c.checksum a ^^^ c.final) ^^^ (c.checksum b ^^^ c.final) ^^^
      (c.checksum d ^^^ c.final) = c.checksum a ^^^ c.checksum b ^^^ c.checksum d ^^^ c.final := by
    calc _ = c.checksum a ^^^ c.checksum b ^^^ c.checksum d ^^^ c.final ^^^
          (c.final ^^^ c.final) := by ac_rfl
      _ = _ := by rw [BitVec.xor_self, BitVec.xor_zero]
  rw [eq_checksum_iff, ← hfinal, ofRegister_xor, ofRegister_xor, ofRegister_checksum,
    ofRegister_checksum, ofRegister_checksum, ← add_modByMonic, ← add_modByMonic,
    Bytes.length_xor hlen, hlen, hab, hbd, polynomial_wire_xor hlen, polynomial_wire_xor hab]
  refine congrArg (· %ₘ divisor) ?_
  -- Of the three initial values two cancel.
  linear_combination
    ofRegister c.init * X ^ (8 * d.length) * CharTwo.two_eq_zero (R := (ZMod 2)[X])

/-- Three strings of two bytes each, and the CRC_A over them. -/
theorem checksum_remainder_three :
    let a : Bytes := [0x01, 0x80]
    let b : Bytes := [0xFF, 0x3C]
    let d : Bytes := [0x5A, 0x02]
    (a.length = b.length ∧ b.length = d.length) ∧
      iso14443a.checksum a ^^^ iso14443a.checksum b ^^^ iso14443a.checksum d =
        iso14443a.checksum [0xA4, 0xBE] :=
  ⟨⟨rfl, rfl⟩, (checksum_remainder iso14443a).2 _ _ _ rfl rfl⟩

end Crc16
end TagReader
