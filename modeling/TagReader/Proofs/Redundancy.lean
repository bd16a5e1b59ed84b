/-
# Access bits and their copies

A sector trailer stores each of its twelve access bits twice, the second time inverted, in three of
its bytes.  This file says which blocks are trailers, and what becomes of a block that is parsed and
written again.

* `AccessBit.place` and `AccessBit.copy` say where the bits stand, and `Redundant` that each of them
  disagrees with its copy.  They fill the three bytes, so redundant blocks with the same access bits
  differ in other bytes only (`read_eq_of_places`).
* `SectorTrailer.decode_of_redundant` and `SectorTrailer.decode_of_not_redundant` say what is
  parsed, and `SectorTrailer.encode_access` what is written for it.
* Two patterns of a trailer grant the same, and the earlier one is written for both
  (`SectorPatterns.canonical`).  This is all that writing changes.

The main result is `SectorTrailer.survives_rewriting`.
-/
import Mathlib.Tactic.Common
import TagReader.Proofs.Accesses

namespace TagReader

lemma Octets.bytes_inj {n : Nat} {a b : Octets n} (h : a.bytes = b.bytes) : a = b := by
  cases a
  cases b
  exact (Octets.mk.injEq ..).mpr h

namespace Classic

/-! ## Bits of bytes -/

/-- A bit of a byte, the lowest one first. -/
def bit (b : UInt8) (j : Nat) : Bool := b.toBitVec.getLsbD j

lemma eq_of_bit {a b : UInt8} (h : ∀ j < 8, bit a j = bit b j) : a = b :=
  UInt8.eq_of_toBitVec_eq (BitVec.eq_of_getLsbD_eq h)

lemma bit_of_le {j : Nat} (b : UInt8) (hj : 8 ≤ j) : bit b j = false :=
  BitVec.getLsbD_of_ge _ _ hj

lemma bit_mask (b : UInt8) (j : Nat) : bit (b &&& 0x0F) j = (bit b j && decide (j < 4)) := by
  have hmask : ∀ i < 8, (0x0F : UInt8).toBitVec.getLsbD i = decide (i < 4) := by decide
  rw [bit, UInt8.toBitVec_and, BitVec.getLsbD_and]
  by_cases hj : j < 8
  · rw [hmask j hj, bit]
  · simp [bit, BitVec.getLsbD_of_ge _ _ (Nat.not_lt.1 hj)]

lemma bit_high (b : UInt8) (j : Nat) : bit (b >>> 4) j = bit b (4 + j) := by
  simp [bit]

/-- The bits of two nibbles that are put together. -/
lemma bit_join {j : Nat} (hi : UInt8) {lo : UInt8} (hlo : ∀ i, 4 ≤ i → bit lo i = false)
    (hj : j < 4) :
    bit ((hi <<< 4) ||| lo) j = bit lo j ∧ bit ((hi <<< 4) ||| lo) (4 + j) = bit hi j := by
  have hlow := hlo (4 + j) (Nat.le_add_right 4 j)
  have hj' : 4 + j < 8 := by omega
  have hj'' : j < 8 := by omega
  unfold bit at hlow ⊢
  rw [UInt8.toBitVec_or, BitVec.getLsbD_or, BitVec.getLsbD_or, hlow]
  simp [hj, hj', hj'']

/-- A bit that is shifted to the end. -/
lemma bit_pick (b : UInt8) {n : UInt8} (hn : n < 8) : ((b >>> n) &&& 1 == 1) = bit b n.toNat := by
  have hmod : n.toNat % 8 = n.toNat := Nat.mod_eq_of_lt (UInt8.lt_iff_toNat_lt.1 hn)
  rw [Bool.eq_iff_iff, beq_iff_eq, ← UInt8.toNat_inj, UInt8.toNat_and, UInt8.toNat_shiftRight, hmod,
    bit, BitVec.getLsbD, Nat.testBit_eq_decide_div_mod_eq, decide_eq_true_iff,
    Nat.shiftRight_eq_div_pow]
  exact iff_of_eq (congrArg (· = 1) (Nat.and_one_is_mod _))

/-- The place of a bit in a block. -/
structure BitPlace where
  /-- The byte. -/
  byte : Nat
  /-- The bit of that byte, the lowest one first. -/
  bit : Nat
deriving DecidableEq

/-- The bit at a place. -/
def BitPlace.read (p : BitPlace) (bs : Bytes) : Bool := Classic.bit (bs.getD p.byte 0) p.bit

/-! ## Where the access bits stand -/

/-- The three access bits of a block. -/
inductive AccessBit where
  | c1
  | c2
  | c3
deriving DecidableEq

namespace AccessBit

/-- Where a bit of block `n` stands in the trailer. -/
def place (n : Nat) : AccessBit → BitPlace
  | c1 => ⟨7, 4 + n⟩
  | c2 => ⟨8, n⟩
  | c3 => ⟨8, 4 + n⟩

/-- Where its inverted copy stands. -/
def copy (n : Nat) : AccessBit → BitPlace
  | c1 => ⟨6, n⟩
  | c2 => ⟨6, 4 + n⟩
  | c3 => ⟨7, n⟩

/-- A bit of a pattern. -/
def of (p : Pattern) : AccessBit → Bool
  | c1 => p.c1
  | c2 => p.c2
  | c3 => p.c3

end AccessBit

/-- Every access bit disagrees with its copy. -/
def Redundant (bs : Bytes) : Prop :=
  ∀ c : AccessBit, ∀ n < 4, (c.copy n).read bs = !(c.place n).read bs

/-- The pattern of block `n`, as its three bits give it. -/
def patternIn (bs : Bytes) (n : Nat) : Pattern :=
  ⟨(AccessBit.c1.place n).read bs, (AccessBit.c2.place n).read bs, (AccessBit.c3.place n).read bs⟩

/-- All patterns of a block. -/
def patternsIn (bs : Bytes) : SectorPatterns :=
  ⟨patternIn bs 0, patternIn bs 1, patternIn bs 2, patternIn bs 3⟩

/-- The pattern of block `n`; number 3 is the trailer. -/
def SectorPatterns.at (p : SectorPatterns) : Nat → Pattern
  | 0 => p.block0
  | 1 => p.block1
  | 2 => p.block2
  | _ => p.trailer

section Places

variable {bs : Bytes}

lemma at_patternsIn {n : Nat} (hn : n < 4) : (patternsIn bs).at n = patternIn bs n := by
  match n, hn with
  | 0, _ | 1, _ | 2, _ | 3, _ => rfl

lemma of_patternIn (c : AccessBit) (n : Nat) : c.of (patternIn bs n) = (c.place n).read bs := by
  cases c <;> rfl

/-- The bits and their copies fill three bytes. -/
lemma exists_place {p : BitPlace} (hbyte : 6 ≤ p.byte ∧ p.byte < 9) (hbit : p.bit < 8) :
    ∃ c : AccessBit, ∃ n < 4, p = c.place n ∨ p = c.copy n := by
  obtain ⟨i, j⟩ := p
  dsimp only at hbyte hbit
  have hi : i = 6 ∨ i = 7 ∨ i = 8 := by omega
  rcases Nat.lt_or_ge j 4 with hj | hj
  · rcases hi with rfl | rfl | rfl
    · exact ⟨.c1, j, hj, .inr rfl⟩
    · exact ⟨.c3, j, hj, .inr rfl⟩
    · exact ⟨.c2, j, hj, .inl rfl⟩
  · obtain ⟨k, rfl⟩ := Nat.exists_eq_add_of_le hj
    rcases hi with rfl | rfl | rfl
    · exact ⟨.c2, k, by omega, .inr rfl⟩
    · exact ⟨.c1, k, by omega, .inl rfl⟩
    · exact ⟨.c3, k, by omega, .inl rfl⟩

/-- Of two redundant blocks that agree outside of the three bytes, the access bits tell the rest. -/
lemma read_eq_of_places {bs' : Bytes} (h : Redundant bs) (h' : Redundant bs')
    (hfree : ∀ i, ¬(6 ≤ i ∧ i < 9) → bs'.getD i 0 = bs.getD i 0) {p : BitPlace}
    (hp : ∀ c : AccessBit, ∀ n < 4, p = c.place n ∨ p = c.copy n →
      (c.place n).read bs' = (c.place n).read bs) :
    p.read bs' = p.read bs := by
  by_cases hbyte : 6 ≤ p.byte ∧ p.byte < 9
  · rcases Nat.lt_or_ge p.bit 8 with hbit | hbit
    · obtain ⟨c, n, hn, hc⟩ := exists_place hbyte hbit
      have hplace := hp c n hn hc
      rcases hc with rfl | rfl
      · exact hplace
      · rw [h c n hn, h' c n hn, hplace]
    · rw [BitPlace.read, BitPlace.read, bit_of_le _ hbit, bit_of_le _ hbit]
  · rw [BitPlace.read, BitPlace.read, hfree p.byte hbyte]

/-- A byte is known by its bits. -/
lemma getD_eq_of_read {bs' : Bytes} {i : Nat}
    (h : ∀ j < 8, (BitPlace.mk i j).read bs' = (BitPlace.mk i j).read bs) :
    bs'.getD i 0 = bs.getD i 0 :=
  eq_of_bit h

end Places

/-! ## Parsing -/

namespace SectorPatterns

lemma bit_inverted {j : Nat} (n : UInt8) (hj : j < 4) : bit (inverted n) j = !bit n j := by
  rw [inverted, bit_mask, decide_eq_true hj, Bool.and_true, bit, UInt8.toBitVec_not,
    BitVec.getLsbD_not, decide_eq_true (by omega : j < 8), Bool.true_and, bit]

lemma bit_inverted_high {j : Nat} (n : UInt8) (hj : 4 ≤ j) : bit (inverted n) j = false := by
  rw [inverted, bit_mask, decide_eq_false (Nat.not_lt.2 hj), Bool.and_false]

lemma eq_inverted_iff {x c : UInt8} (hx : ∀ j, 4 ≤ j → bit x j = false) :
    x = inverted c ↔ ∀ j < 4, bit x j = !bit c j := by
  constructor
  · rintro rfl j hj
    exact bit_inverted c hj
  · intro h
    apply eq_of_bit
    intro j _
    rcases Nat.lt_or_ge j 4 with hj | hj
    · rw [bit_inverted c hj, h j hj]
    · rw [bit_inverted_high c hj, hx j hj]

/-- The check on three bytes, nibble by nibble. -/
lemma redundant_iff (bs : Bytes) :
    Redundant bs ↔ (bs.getD 6 0 &&& 0x0F : UInt8) = inverted (bs.getD 7 0 >>> 4) ∧
      bs.getD 6 0 >>> 4 = inverted (bs.getD 8 0 &&& 0x0F) ∧
      (bs.getD 7 0 &&& 0x0F : UInt8) = inverted (bs.getD 8 0 >>> 4) := by
  have hmask (b : UInt8) : ∀ j, 4 ≤ j → bit (b &&& 0x0F) j = false := fun j hj => by
    rw [bit_mask, decide_eq_false (Nat.not_lt.2 hj), Bool.and_false]
  have hhigh (b : UInt8) : ∀ j, 4 ≤ j → bit (b >>> 4) j = false := fun j hj => by
    rw [bit_high, bit_of_le _ (by omega)]
  have hlow (b : UInt8) : ∀ j < 4, bit (b &&& 0x0F) j = bit b j := fun j hj => by
    rw [bit_mask, decide_eq_true hj, Bool.and_true]
  rw [eq_inverted_iff (hmask _), eq_inverted_iff (hhigh _), eq_inverted_iff (hmask _)]
  constructor
  · intro h
    refine ⟨fun j hj => ?_, fun j hj => ?_, fun j hj => ?_⟩
    · rw [hlow _ j hj, bit_high]
      exact h .c1 j hj
    · rw [hlow _ j hj, bit_high]
      exact h .c2 j hj
    · rw [hlow _ j hj, bit_high]
      exact h .c3 j hj
  · rintro ⟨h1, h2, h3⟩ c n hn
    cases c
    · have := h1 n hn
      rwa [hlow _ n hn, bit_high] at this
    · have := h2 n hn
      rwa [hlow _ n hn, bit_high] at this
    · have := h3 n hn
      rwa [hlow _ n hn, bit_high] at this

/-- The patterns in the nibbles are those that the places give. -/
lemma ofNibbles_eq (bs : Bytes) :
    ofNibbles (bs.getD 7 0 >>> 4) (bs.getD 8 0 &&& 0x0F) (bs.getD 8 0 >>> 4) = patternsIn bs := by
  have hat {n : UInt8} (hn : n < 4) :
      patternAt (bs.getD 7 0 >>> 4) (bs.getD 8 0 &&& 0x0F) (bs.getD 8 0 >>> 4) n =
        patternIn bs n.toNat := by
    have hlt : n.toNat < 4 := UInt8.lt_iff_toNat_lt.1 hn
    have hn' : n < 8 := UInt8.lt_iff_toNat_lt.2 (Nat.lt_trans hlt (by decide))
    rw [patternAt, bit_pick _ hn', bit_pick _ hn', bit_pick _ hn', bit_high, bit_high, bit_mask,
      decide_eq_true hlt, Bool.and_true]
    rfl
  rw [ofNibbles, hat (by decide), hat (by decide), hat (by decide), hat (by decide)]
  rfl

end SectorPatterns

instance (bs : Bytes) : Decidable (Redundant bs) :=
  decidable_of_iff _ (SectorPatterns.redundant_iff bs).symm

/-! ## Writing -/

namespace SectorPatterns

lemma bit_nibble (b0 b1 b2 b3 : Bool) :
    ∀ n < 4, bit (nibble b0 b1 b2 b3) n = [b0, b1, b2, b3].getD n false := by
  revert b0 b1 b2 b3
  decide

lemma bit_nibble_high (b0 b1 b2 b3 : Bool) {j : Nat} (hj : 4 ≤ j) :
    bit (nibble b0 b1 b2 b3) j = false := by
  have hlow : ∀ i < 8, 4 ≤ i → bit (nibble b0 b1 b2 b3) i = false := by
    revert b0 b1 b2 b3
    decide
  rcases Nat.lt_or_ge j 8 with h | h
  · exact hlow j h hj
  · exact bit_of_le _ h

lemma bit_gather (f : Pattern → Bool) (p : SectorPatterns) {n : Nat} (hn : n < 4) :
    bit (p.gather f) n = f (p.at n) := by
  rw [gather, bit_nibble _ _ _ _ n hn]
  match n, hn with
  | 0, _ | 1, _ | 2, _ | 3, _ => rfl

variable {bs : Bytes} {p : SectorPatterns}

/-- What stands at the places in three bytes that are written. -/
lemma reads_image (h : (bs.drop 6).take 3 = p.image) (c : AccessBit) {n : Nat} (hn : n < 4) :
    (c.place n).read bs = c.of (p.at n) ∧ (c.copy n).read bs = !c.of (p.at n) := by
  have hbyte {i : Nat} (hi : i < 3) : bs.getD (6 + i) 0 = p.image.getD i 0 := by
    rw [← h, List.getD_eq_getElem?_getD, List.getD_eq_getElem?_getD, List.getElem?_take_of_lt hi,
      List.getElem?_drop]
  have hinv (c : UInt8) : ∀ j, 4 ≤ j → bit (inverted c) j = false := fun j hj =>
    bit_inverted_high c hj
  have hnib (f : Pattern → Bool) : ∀ j, 4 ≤ j → bit (p.gather f) j = false := fun j hj =>
    bit_nibble_high _ _ _ _ hj
  have h6 := bit_join (inverted (p.gather Pattern.c2)) (hinv (p.gather Pattern.c1)) hn
  have h7 := bit_join (p.gather Pattern.c1) (hinv (p.gather Pattern.c3)) hn
  have h8 := bit_join (p.gather Pattern.c3) (hnib Pattern.c2) hn
  rw [bit_inverted _ hn, bit_inverted _ hn, bit_gather _ p hn, bit_gather _ p hn] at h6
  rw [bit_inverted _ hn, bit_gather _ p hn, bit_gather _ p hn] at h7
  rw [bit_gather _ p hn, bit_gather _ p hn] at h8
  have b6 : bs.getD 6 0 = _ := hbyte (by decide : 0 < 3)
  have b7 : bs.getD 7 0 = _ := hbyte (by decide : 1 < 3)
  have b8 : bs.getD 8 0 = _ := hbyte (by decide : 2 < 3)
  cases c
  · exact ⟨(congrArg (bit · (4 + n)) b7).trans h7.2, (congrArg (bit · n) b6).trans h6.1⟩
  · exact ⟨(congrArg (bit · n) b8).trans h8.1, (congrArg (bit · (4 + n)) b6).trans h6.2⟩
  · exact ⟨(congrArg (bit · (4 + n)) b8).trans h8.2, (congrArg (bit · n) b7).trans h7.1⟩

lemma redundant_of_image (h : (bs.drop 6).take 3 = p.image) : Redundant bs := by
  intro c n hn
  rw [(reads_image h c hn).1, (reads_image h c hn).2]

lemma patternsIn_of_image (h : (bs.drop 6).take 3 = p.image) : patternsIn bs = p := by
  have hat {n : Nat} (hn : n < 4) : patternIn bs n = p.at n := by
    rw [patternIn, (reads_image h .c1 hn).1, (reads_image h .c2 hn).1, (reads_image h .c3 hn).1]
    rfl
  rw [patternsIn, hat (by decide), hat (by decide), hat (by decide), hat (by decide)]
  rfl

end SectorPatterns

/-! ## Patterns that mean the same -/

/-- The pattern that is written for the permissions which a pattern gives on a trailer. -/
def Pattern.lowered : Pattern → Pattern
  | ⟨true, true, true⟩ => ⟨true, true, false⟩
  | q => q

lemma Pattern.lowered_of_ne {q : Pattern} (h : q ≠ ⟨true, true, true⟩) : q.lowered = q := by
  unfold lowered
  split
  · exact absurd rfl h
  · rfl

lemma BlockAccess.pattern?_ofPattern (q : Pattern) : (ofPattern q).pattern? = some q := by
  rcases q with ⟨_ | _, _ | _, _ | _⟩ <;> rfl

lemma TrailerAccess.pattern?_ofPattern (q : Pattern) : (ofPattern q).pattern? = some q.lowered := by
  rcases q with ⟨_ | _, _ | _, _ | _⟩ <;> rfl

/-- A pattern and the one that is written for it grant the same. -/
lemma TrailerAccess.ofPattern_lowered (q : Pattern) : ofPattern q.lowered = ofPattern q := by
  rcases q with ⟨_ | _, _ | _, _ | _⟩ <;> rfl

namespace SectorPatterns

/-- The patterns that are written for the permissions which patterns give. -/
def canonical (p : SectorPatterns) : SectorPatterns := { p with trailer := p.trailer.lowered }

lemma patterns_access (p : SectorPatterns) : p.access.patterns = .ok p.canonical := by
  have hblock (n : Nat) (q : Pattern) :
      SectorAccess.blockPattern n (.ofPattern q) = .ok q := by
    rw [SectorAccess.blockPattern, BlockAccess.pattern?_ofPattern]
  have htrailer : SectorAccess.trailerPattern (.ofPattern p.trailer) = .ok p.trailer.lowered := by
    rw [SectorAccess.trailerPattern, TrailerAccess.pattern?_ofPattern]
  simp only [SectorAccess.patterns, access, hblock, htrailer]
  rfl

lemma access_canonical (p : SectorPatterns) : p.canonical.access = p.access := by
  rw [access, canonical, TrailerAccess.ofPattern_lowered]
  rfl

lemma canonical_at {p : SectorPatterns} {n : Nat} (h : n < 3 ∨ p.trailer ≠ ⟨true, true, true⟩) :
    p.canonical.at n = p.at n := by
  match n with
  | 0 | 1 | 2 => rfl
  | n + 3 => exact Pattern.lowered_of_ne (h.resolve_left (by omega))

end SectorPatterns

/-! ## Trailers -/

namespace SectorTrailer

variable {keyA : SectorKey} {p : SectorPatterns} {g : UInt8} {keyB : SectorKey} {b : Octets 16}

variable (keyA p g keyB) in
lemma drop_take_eq_image : ((assemble keyA p g keyB).bytes.drop 6).take 3 = p.image := by
  match keyA with
  | ⟨[_, _, _, _, _, _], _⟩ => rfl

variable (keyA p g keyB) in
/-- What stands around the access bits. -/
lemma assemble_parts : (assemble keyA p g keyB).bytes.take 6 = keyA.bytes ∧
    (assemble keyA p g keyB).bytes.getD 9 0 = g ∧
    (assemble keyA p g keyB).bytes.drop 10 = keyB.bytes := by
  match keyA with
  | ⟨[_, _, _, _, _, _], _⟩ => exact ⟨rfl, rfl, rfl⟩

/-- The keys of a block. -/
lemma window_bytes (b : Octets 16) : (Octets.window 6 0 b.bytes).bytes = b.bytes.take 6 ∧
    (Octets.window 6 10 b.bytes).bytes = b.bytes.drop 10 := by
  have hlen := b.length_eq
  constructor
  · rw [← Access.take_drop_eq_window (by omega), List.drop_zero]
  · rw [← Access.take_drop_eq_window (by omega), List.take_of_length_le]
    rw [List.length_drop]
    omega

/-- What is parsed from a block, as the check on its three bytes decides. -/
lemma decode_eq (b : Octets 16) : decode b =
    (SectorPatterns.ofImage (b.bytes.getD 6 0) (b.bytes.getD 7 0) (b.bytes.getD 8 0)).map
      fun p => ⟨Octets.window 6 0 b.bytes, p.access, b.bytes.getD 9 0,
        Octets.window 6 10 b.bytes⟩ := by
  have hbits : (b.bytes.drop 6).take 3 =
      [b.bytes.getD 6 0, b.bytes.getD 7 0, b.bytes.getD 8 0] := by
    rw [Access.take_drop_eq_window (by rw [b.length_eq]; decide)]
    rfl
  rw [decode, accessOf, hbits, SectorAccess.ofBits]
  cases SectorPatterns.ofImage (b.bytes.getD 6 0) (b.bytes.getD 7 0) (b.bytes.getD 8 0) <;> rfl

/-- A redundant block is a trailer. -/
lemma decode_of_redundant (h : Redundant b.bytes) : decode b =
    .ok ⟨Octets.window 6 0 b.bytes, (patternsIn b.bytes).access, b.bytes.getD 9 0,
      Octets.window 6 10 b.bytes⟩ := by
  rw [decode_eq, SectorPatterns.ofImage, if_pos ((SectorPatterns.redundant_iff b.bytes).1 h),
    SectorPatterns.ofNibbles_eq]
  rfl

/-- The complaint about access bits that do not agree with their copies. -/
def mismatch (b : Octets 16) : Fault :=
  .format ("access bits " ++
    Hex.spaced [b.bytes.getD 6 0, b.bytes.getD 7 0, b.bytes.getD 8 0] ++
    " fail the inverted copy check")

lemma decode_of_not_redundant (h : ¬Redundant b.bytes) : decode b = .error (mismatch b) := by
  rw [decode_eq, SectorPatterns.ofImage, if_neg (mt (SectorPatterns.redundant_iff b.bytes).2 h)]
  rfl

lemma encode_access :
    encode ⟨keyA, p.access, g, keyB⟩ = .ok (assemble keyA p.canonical g keyB) := by
  rw [encode, SectorPatterns.patterns_access]
  rfl

lemma decode_assemble :
    decode (assemble keyA p g keyB) = .ok ⟨keyA, p.access, g, keyB⟩ := by
  obtain ⟨hA, hg, hB⟩ := assemble_parts keyA p g keyB
  obtain ⟨hwA, hwB⟩ := window_bytes (assemble keyA p g keyB)
  have himage := drop_take_eq_image keyA p g keyB
  have hkeyA : Octets.window 6 0 (assemble keyA p g keyB).bytes = keyA :=
    Octets.bytes_inj (hwA.trans hA)
  have hkeyB : Octets.window 6 10 (assemble keyA p g keyB).bytes = keyB :=
    Octets.bytes_inj (hwB.trans hB)
  rw [decode_of_redundant (SectorPatterns.redundant_of_image himage),
    SectorPatterns.patternsIn_of_image himage, hkeyA, hg, hkeyB]

/-- Parses a block and writes what has been parsed. -/
def rewrite (b : Octets 16) : Except Fault (Octets 16) := do encode (← decode b)

/-- The block that a redundant one is rewritten to. -/
def canonical (b : Octets 16) : Octets 16 :=
  assemble (Octets.window 6 0 b.bytes) (patternsIn b.bytes).canonical (b.bytes.getD 9 0)
    (Octets.window 6 10 b.bytes)

lemma redundant_canonical (b : Octets 16) : Redundant (canonical b).bytes :=
  SectorPatterns.redundant_of_image (drop_take_eq_image _ _ _ _)

lemma patternsIn_canonical (b : Octets 16) :
    patternsIn (canonical b).bytes = (patternsIn b.bytes).canonical :=
  SectorPatterns.patternsIn_of_image (drop_take_eq_image _ _ _ _)

/-- The blocks agree around the access bits. -/
lemma canonical_elsewhere (b : Octets 16) {i : Nat} (hi : ¬(6 ≤ i ∧ i < 9)) :
    (canonical b).bytes.getD i 0 = b.bytes.getD i 0 := by
  obtain ⟨hA, hg, hB⟩ := assemble_parts (Octets.window 6 0 b.bytes)
    (patternsIn b.bytes).canonical (b.bytes.getD 9 0) (Octets.window 6 10 b.bytes)
  rw [(window_bytes b).1] at hA
  rw [(window_bytes b).2] at hB
  have hi' : i < 6 ∨ i = 9 ∨ 10 ≤ i := by omega
  rcases hi' with hi | rfl | hi
  · have hget := congrArg (fun bs : Bytes => bs[i]?) hA
    simp only [List.getElem?_take_of_lt hi] at hget
    rw [List.getD_eq_getElem?_getD, List.getD_eq_getElem?_getD]
    exact congrArg (Option.getD · 0) hget
  · exact hg
  · obtain ⟨k, rfl⟩ := Nat.exists_eq_add_of_le hi
    rw [List.getD_eq_getElem?_getD, List.getD_eq_getElem?_getD, ← List.getElem?_drop,
      ← List.getElem?_drop]
    exact congrArg (fun bs : Bytes => bs[k]?.getD 0) hB

/-- Only the third bit of the trailer's pattern can change. -/
lemma canonical_place (b : Octets 16) {c : AccessBit} {n : Nat} (hn : n < 4)
    (h : (c = .c3 ∧ n = 3) → patternIn b.bytes 3 ≠ ⟨true, true, true⟩) :
    (c.place n).read (canonical b).bytes = (c.place n).read b.bytes := by
  rw [← of_patternIn, ← of_patternIn, ← at_patternsIn hn, ← at_patternsIn hn,
    patternsIn_canonical]
  by_cases hq : patternIn b.bytes 3 = ⟨true, true, true⟩
  · rcases Nat.lt_or_ge n 3 with hn3 | hn3
    · rw [SectorPatterns.canonical_at (.inl hn3)]
    · obtain rfl : n = 3 := by omega
      have hc : c ≠ .c3 := fun hc => h ⟨hc, rfl⟩ hq
      show c.of (patternIn b.bytes 3).lowered = c.of (patternIn b.bytes 3)
      rw [hq]
      cases c
      · rfl
      · rfl
      · exact absurd rfl hc
  · rw [SectorPatterns.canonical_at (.inr hq)]

/-- What is parsed stands around the access bits, and the permissions are those of the patterns. -/
structure Holds (b : Octets 16) (s : SectorTrailer) : Prop where
  keyA : s.keyA.bytes = b.bytes.take 6
  access : s.access = (patternsIn b.bytes).access
  general : s.general = b.bytes.getD 9 0
  keyB : s.keyB.bytes = b.bytes.drop 10

/-- `b'` is `b`, but for a trailer whose own pattern is 111: there the third bit of that pattern is
cleared, and its copy is set. -/
structure Rewritten (b b' : Octets 16) : Prop where
  elsewhere : ∀ i, i ≠ 7 → i ≠ 8 → b'.bytes.getD i 0 = b.bytes.getD i 0
  kept : patternIn b.bytes 3 ≠ ⟨true, true, true⟩ → b' = b
  lowered : patternIn b.bytes 3 = ⟨true, true, true⟩ →
    patternIn b'.bytes 3 = ⟨true, true, false⟩ ∧ (AccessBit.c3.copy 3).read b'.bytes = true ∧
      ∀ p : BitPlace, p ≠ AccessBit.c3.place 3 → p ≠ AccessBit.c3.copy 3 →
        p.read b'.bytes = p.read b.bytes
  access : (patternsIn b'.bytes).access = (patternsIn b.bytes).access

lemma rewritten_canonical (h : Redundant b.bytes) : Rewritten b (canonical b) := by
  have hfree : ∀ i, ¬(6 ≤ i ∧ i < 9) → (canonical b).bytes.getD i 0 = b.bytes.getD i 0 :=
    fun i hi => canonical_elsewhere b hi
  have hread {p : BitPlace} (h3 : p ≠ AccessBit.c3.place 3) (h3' : p ≠ AccessBit.c3.copy 3) :
      p.read (canonical b).bytes = p.read b.bytes := by
    refine read_eq_of_places h (redundant_canonical b) hfree fun c n hn hp => ?_
    refine canonical_place b hn ?_
    rintro ⟨rfl, rfl⟩
    exact absurd hp (not_or.2 ⟨h3, h3'⟩)
  have hlowered (hq : patternIn b.bytes 3 = ⟨true, true, true⟩) :
      patternIn (canonical b).bytes 3 = ⟨true, true, false⟩ := by
    rw [← at_patternsIn (by decide), patternsIn_canonical]
    show (patternIn b.bytes 3).lowered = _
    rw [hq]
    rfl
  refine ⟨fun i h7 h8 => ?_, fun hq => ?_, fun hq => ⟨hlowered hq, ?_, fun p => hread⟩, ?_⟩
  · refine getD_eq_of_read fun j _ => hread ?_ ?_
    · exact fun hp => h8 (congrArg BitPlace.byte hp)
    · exact fun hp => h7 (congrArg BitPlace.byte hp)
  · refine Octets.bytes_inj (List.ext_getElem ?_ fun i hi hi' => ?_)
    · rw [(canonical b).length_eq, b.length_eq]
    · rw [List.getElem_eq_getD 0, List.getElem_eq_getD 0]
      refine getD_eq_of_read fun j _ => ?_
      exact read_eq_of_places h (redundant_canonical b) hfree fun c n hn _ =>
        canonical_place b hn fun _ => hq
  · have hplace : (AccessBit.c3.place 3).read (canonical b).bytes = false :=
      congrArg Pattern.c3 (hlowered hq)
    rw [redundant_canonical b .c3 3 (by decide), hplace]
    rfl
  · rw [patternsIn_canonical, SectorPatterns.access_canonical]

/-- Flips that leave the block redundant take each bit together with its copy. -/
lemma flipped_iff {bs bs' : Bytes} (h : Redundant bs) (h' : Redundant bs') (c : AccessBit) {n : Nat}
    (hn : n < 4) :
    (c.copy n).read bs' ≠ (c.copy n).read bs ↔ (c.place n).read bs' ≠ (c.place n).read bs := by
  rw [h c n hn, h' c n hn]
  exact not_congr (Bool.not_inj_iff)

/-- The check looks at three bytes. -/
lemma redundant_congr {bs bs' : Bytes} (h : ∀ i, 6 ≤ i → i < 9 → bs'.getD i 0 = bs.getD i 0) :
    Redundant bs' ↔ Redundant bs := by
  rw [SectorPatterns.redundant_iff, SectorPatterns.redundant_iff, h 6 (by decide) (by decide),
    h 7 (by decide) (by decide), h 8 (by decide) (by decide)]

/-- **Sector trailers survive being parsed and written again.** A block of 16 bytes is a trailer
exactly if each of its twelve access bits disagrees with its copy, and the complaint about any other
block names the three bytes.  The other bytes are free, and access bits that are flipped are found
out unless each of them is flipped together with its copy.

What is parsed from a block is written without a complaint, as a block from which the same is parsed
again.  It is the block itself, but where the trailer's own pattern is 111 it has 110 in its place,
which grants the same; writing it once more changes nothing. -/
theorem survives_rewriting (b : Octets 16) :
    ((∃ s, decode b = .ok s) ↔ Redundant b.bytes) ∧
      (¬Redundant b.bytes → decode b = .error (mismatch b)) ∧
      (∀ b' : Octets 16, (∀ i, 6 ≤ i → i < 9 → b'.bytes.getD i 0 = b.bytes.getD i 0) →
        (Redundant b'.bytes ↔ Redundant b.bytes)) ∧
      (∀ b' : Octets 16, Redundant b.bytes →
        (∃ c : AccessBit, ∃ n < 4, (c.place n).read b'.bytes ≠ (c.place n).read b.bytes ∨
          (c.copy n).read b'.bytes ≠ (c.copy n).read b.bytes) →
        (∀ c : AccessBit, ∀ n < 4, ¬((c.place n).read b'.bytes ≠ (c.place n).read b.bytes ∧
          (c.copy n).read b'.bytes ≠ (c.copy n).read b.bytes)) →
        decode b' = .error (mismatch b')) ∧
      ∀ s, decode b = .ok s → Holds b s ∧
        ∃ b', encode s = .ok b' ∧ decode b' = .ok s ∧ Rewritten b b' ∧ rewrite b' = .ok b' := by
  refine ⟨⟨fun ⟨s, hs⟩ => ?_, fun h => ⟨_, decode_of_redundant h⟩⟩, decode_of_not_redundant,
    fun b' => redundant_congr, fun b' h hflip hsingle => ?_, fun s hs => ?_⟩
  · by_contra h
    rw [decode_of_not_redundant h] at hs
    cases hs
  · refine decode_of_not_redundant fun h' => ?_
    obtain ⟨c, n, hn, hflip⟩ := hflip
    have hboth := flipped_iff h h' c hn
    refine hsingle c n hn ?_
    rcases hflip with hplace | hcopy
    · exact ⟨hplace, hboth.2 hplace⟩
    · exact ⟨hboth.1 hcopy, hcopy⟩
  · by_cases h : Redundant b.bytes
    · rw [decode_of_redundant h] at hs
      cases hs
      have hagain : decode (canonical b) = .ok ⟨Octets.window 6 0 b.bytes,
          (patternsIn b.bytes).access, b.bytes.getD 9 0, Octets.window 6 10 b.bytes⟩ := by
        rw [canonical, decode_assemble, SectorPatterns.access_canonical]
      refine ⟨⟨(window_bytes b).1, rfl, rfl, (window_bytes b).2⟩, canonical b, encode_access,
        hagain, rewritten_canonical h, ?_⟩
      rw [rewrite, hagain]
      exact encode_access
    · rw [decode_of_not_redundant h] at hs
      cases hs

/-- The trailer of a sector whose blocks are free and whose trailer is closed. -/
example : rewrite ⟨List.replicate 6 0 ++ [0x77, 0x87, 0x88, 0x69] ++ List.replicate 6 0xFF, rfl⟩ =
    .ok ⟨List.replicate 6 0 ++ [0x77, 0x8F, 0x08, 0x69] ++ List.replicate 6 0xFF, rfl⟩ := rfl

end SectorTrailer

end Classic
end TagReader
