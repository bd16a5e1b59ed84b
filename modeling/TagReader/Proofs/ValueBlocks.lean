/-
# Value blocks as a code

A value block stores a number three times and an address four times, some of the copies inverted.
This file says which blocks are accepted, and what becomes of one with damaged bits.

* `Bytes.ofInt32_eq_iff`: four bytes are those of one number, as they give its value in base 256.
* `ValueBlock.decode_eq_ok_iff`: a block is accepted exactly if it is the block that holds what it
  is read as.
* `ValueBlock.distance_encode`: a bit in which two numbers differ is a difference in all copies of
  it, whether these are inverted or not, so it counts three times in a block; a bit of the address
  counts four times.

The main result is `ValueBlock.detects_corruption`.
-/
import TagReader.Classic.ValueBlock
import TagReader.Proofs.Detection
import TagReader.Proofs.Queries

namespace TagReader
namespace Bytes

/-! ## Numbers and their bytes -/

lemma value_injective {as bs : Bytes} (hlen : as.length = bs.length) (h : value as = value bs) :
    as = bs := by
  induction as generalizing bs with
  | nil => exact (List.length_eq_zero_iff.1 hlen.symm).symm
  | cons a as ih =>
    obtain ⟨b, bs, rfl⟩ := List.exists_cons_of_length_eq_add_one hlen.symm
    simp only [value] at h
    have ha := a.toNat_lt
    have hb := b.toNat_lt
    have hbyte : a = b := UInt8.toNat_inj.1 (by omega)
    rw [hbyte, ih (Nat.succ.inj hlen) (by omega)]

/-- What is shifted beside a number is added to it. -/
lemma or_shifted {k m : Nat} (h : m < 2 ^ k) (n : Nat) : m ||| n <<< k = m + n * 2 ^ k := by
  rw [Nat.or_comm, ← Nat.shiftLeft_add_eq_or_of_lt h, Nat.shiftLeft_eq, Nat.add_comm]

lemma value_toInt32 (a b c d : UInt8) : (toInt32 a b c d).toUInt32.toNat = value [a, b, c, d] := by
  have ha := a.toNat_lt
  have hb := b.toNat_lt
  have hc := c.toNat_lt
  have hd := d.toNat_lt
  have hword : (toInt32 a b c d).toUInt32.toNat =
      a.toNat ||| b.toNat <<< 8 ||| c.toNat <<< 16 ||| d.toNat <<< 24 := by
    simp [toInt32, Nat.shiftLeft_eq]
    rw [Nat.mod_eq_of_lt (by omega), Nat.mod_eq_of_lt (by omega), Nat.mod_eq_of_lt (by omega)]
  rw [hword, or_shifted (k := 8) (by omega), or_shifted (k := 16) (by omega),
    or_shifted (k := 24) (by omega)]
  simp only [value]
  omega

/-- Four bytes are those of exactly one number. -/
lemma ofInt32_eq_iff {v : Int32} {a b c d : UInt8} :
    ofInt32 v = [a, b, c, d] ↔ v = toInt32 a b c d := by
  constructor
  · intro h
    have hword : v.toUInt32 = (toInt32 a b c d).toUInt32 := by
      rw [← UInt32.toNat_inj, ← value_ofInt32, value_toInt32, h]
    have hnumber := congrArg UInt32.toInt32 hword
    rwa [Int32.toInt32_toUInt32, Int32.toInt32_toUInt32] at hnumber
  · rintro rfl
    exact value_injective rfl ((value_ofInt32 _).trans (value_toInt32 a b c d))

/-! ## Bits in which bytes differ -/

lemma distance_append {as as' : Bytes} (h : as.length = as'.length) (bs bs' : Bytes) :
    distance (as ++ bs) (as' ++ bs') = distance as as' + distance bs bs' := by
  unfold distance xor
  rw [List.zipWith_append h, wire_append, List.count_append]

lemma distance_eq_zero_iff {as bs : Bytes} (h : as.length = bs.length) :
    distance as bs = 0 ↔ as = bs := by
  rw [distance, List.count_eq_zero]
  constructor
  · intro hnone
    refine wire_injective (List.ext_getElem ?_ ?_)
    · rw [length_wire, length_wire, h]
    · intro i ha hb
      rw [wire_xor h, List.mem_iff_getElem] at hnone
      by_contra hbit
      refine hnone ⟨i, by simp [ha, hb], ?_⟩
      rw [List.getElem_zipWith]
      exact Bool.xor_iff_ne.2 hbit
  · rintro rfl
    rw [wire_xor rfl, List.zipWith_self]
    simp

end Bytes

namespace Classic
namespace ValueBlock

/-! ## Blocks that are accepted -/

/-- The complaint about a block in which some copies do not agree. -/
def disagreement (bs : Bytes) : Fault := .format ("not a value block: " ++ Hex.compact bs)

lemma decode_eq_ok_iff {bs : Bytes} {v : ValueBlock} :
    decode bs = .ok v ↔ bs = (encode v).bytes := by
  constructor
  · intro h
    unfold decode at h
    split at h
    · split at h
      · rename_i v0 v1 v2 v3 w0 w1 w2 w3 x0 x1 x2 x3 a b c d hall
        obtain ⟨hthird, hsecond, rfl, rfl, rfl⟩ := hall
        obtain rfl := Except.ok.inj h
        have hfirst := Bytes.ofInt32_eq_iff.2 (Eq.refl (Bytes.toInt32 v0 v1 v2 v3))
        simp only [encode, hfirst, ← hsecond]
        nth_rewrite 2 [← hthird]
        rfl
      · cases h
    · cases h
  · rintro rfl
    have hnumber := Bytes.ofInt32_eq_iff.1 (Eq.refl (Bytes.ofInt32 v.value))
    show (if _ then Except.ok _ else Except.error _) = _
    rw [if_pos ⟨rfl, rfl, rfl, rfl, rfl⟩, ← hnumber]

lemma decode_of_length_ne {bs : Bytes} (h : bs.length ≠ 16) :
    decode bs = .error (.invalidLength 16 bs.length) := by
  unfold decode
  split
  · exact absurd rfl h
  · rfl

/-- A block of the right length is accepted, or its copies do not agree. -/
lemma decode_cases {bs : Bytes} (h : bs.length = 16) :
    (∃ v, decode bs = .ok v) ∨ decode bs = .error (disagreement bs) := by
  unfold decode
  split
  · split
    · exact .inl ⟨_, rfl⟩
    · exact .inr rfl
  · rename_i hshape
    match bs, h with
    | [v0, v1, v2, v3, w0, w1, w2, w3, x0, x1, x2, x3, a, b, c, d], _ =>
      exact absurd rfl (hshape v0 v1 v2 v3 w0 w1 w2 w3 x0 x1 x2 x3 a b c d)

lemma decode_of_no_value {bs : Bytes} (h : bs.length = 16) (hnone : ∀ v, decode bs ≠ .ok v) :
    decode bs = .error (disagreement bs) := by
  rcases decode_cases h with ⟨v, hv⟩ | hfault
  · exact absurd hv (hnone v)
  · exact hfault

lemma invalidLength_iff {bs : Bytes} :
    (∃ n m, decode bs = .error (.invalidLength n m)) ↔ bs.length ≠ 16 := by
  constructor
  · rintro ⟨n, m, h⟩ hlen
    rcases decode_cases hlen with ⟨v, hv⟩ | hfault
    · rw [h] at hv
      cases hv
    · rw [h] at hfault
      cases hfault
  · exact fun hlen => ⟨_, _, decode_of_length_ne hlen⟩

/-- The number alone is found where a block holds it and the address that stands there. -/
lemma value_decode_iff {bs : Bytes} {v : Int32} :
    (decode bs).map ValueBlock.value = .ok v ↔
      bs.length = 16 ∧ bs = (encode ⟨v, bs.getD 12 0⟩).bytes := by
  constructor
  · intro h
    cases hread : decode bs with
    | error f =>
      rw [hread] at h
      cases h
    | ok w =>
      rw [hread] at h
      cases h
      obtain rfl := decode_eq_ok_iff.1 hread
      exact ⟨rfl, rfl⟩
  · rintro ⟨-, h⟩
    rw [decode_eq_ok_iff.2 h]
    rfl

/-! ## Differences between blocks -/

lemma distance_inverted (as bs : Bytes) :
    Bytes.distance (inverted as) (inverted bs) = Bytes.distance as bs := by
  have hbyte : ∀ a b : UInt8, ~~~a ^^^ ~~~b = a ^^^ b := by
    intro a b
    apply UInt8.eq_of_toBitVec_eq
    ext i hi
    simp
  rw [Bytes.distance, Bytes.xor, inverted, inverted, List.zipWith_map]
  simp only [hbyte]
  rfl

/-- A difference of the numbers is one of all copies, and so is a difference of the addresses. -/
lemma distance_encode (v w : ValueBlock) :
    Bytes.distance (encode v).bytes (encode w).bytes =
      3 * Bytes.distance (Bytes.ofInt32 v.value) (Bytes.ofInt32 w.value) +
        4 * Bytes.distance [v.address] [w.address] := by
  have haddress : ∀ b : UInt8,
      [b, ~~~b, b, ~~~b] = [b] ++ (inverted [b] ++ ([b] ++ inverted [b])) := fun _ => rfl
  simp only [encode, haddress, List.append_assoc]
  rw [Bytes.distance_append (by rfl), Bytes.distance_append (by rfl),
    Bytes.distance_append (by rfl), Bytes.distance_append (by rfl), Bytes.distance_append (by rfl),
    Bytes.distance_append (by rfl), distance_inverted, distance_inverted]
  omega

lemma three_le_distance {bs bs' : Bytes} {v w : ValueBlock} (h : decode bs = .ok v)
    (h' : decode bs' = .ok w) (hne : bs ≠ bs') : 3 ≤ Bytes.distance bs bs' := by
  obtain rfl := decode_eq_ok_iff.1 h
  obtain rfl := decode_eq_ok_iff.1 h'
  have hlen : (encode v).bytes.length = (encode w).bytes.length := rfl
  have hdiffer : Bytes.distance (encode v).bytes (encode w).bytes ≠ 0 := by
    rwa [ne_eq, Bytes.distance_eq_zero_iff hlen]
  have hsum := distance_encode v w
  by_contra hfew
  have hvalue : Bytes.distance (Bytes.ofInt32 v.value) (Bytes.ofInt32 w.value) = 0 := by omega
  have haddress : Bytes.distance [v.address] [w.address] = 0 := by omega
  rw [hvalue, haddress] at hsum
  exact hdiffer hsum

lemma disagreement_of_few_flips {bs bs' : Bytes} {v : ValueBlock} (h : decode bs = .ok v)
    (hlen : bs'.length = bs.length) (hpos : 0 < Bytes.distance bs bs')
    (hle : Bytes.distance bs bs' ≤ 2) : decode bs' = .error (disagreement bs') := by
  have hsixteen : bs'.length = 16 := by
    rw [hlen, decode_eq_ok_iff.1 h, (encode v).length_eq]
  have hne : bs ≠ bs' := by
    intro hsame
    have hzero := (Bytes.distance_eq_zero_iff hlen.symm).2 hsame
    omega
  refine decode_of_no_value hsixteen fun w hw => ?_
  have hthree := three_le_distance h hw hne
  omega

/-- **Value blocks are exact, and detect damage.**  Bytes are read as a number exactly if they are
the block of sixteen bytes that holds this number and the address they have in their place.  They
are otherwise refused, for their length if that is another one, and for their copies if it is not.
Writing and reading are inverse to each other.  Two blocks that are accepted differ in three bits or
more; so with one or two bits changed, a block is not read as another value, but refused. -/
theorem detects_corruption (bs : Bytes) :
    (∀ v : Int32, (decode bs).map ValueBlock.value = .ok v ↔
      bs.length = 16 ∧ bs = (encode ⟨v, bs.getD 12 0⟩).bytes) ∧
    ((∃ n m, decode bs = .error (.invalidLength n m)) ↔ bs.length ≠ 16) ∧
    (bs.length ≠ 16 → decode bs = .error (.invalidLength 16 bs.length)) ∧
    (bs.length = 16 → (∀ v, decode bs ≠ .ok v) → decode bs = .error (disagreement bs)) ∧
    (∀ v, decode (encode v).bytes = .ok v) ∧
    ∀ v, decode bs = .ok v →
      (encode v).bytes = bs ∧
      ∀ bs' : Bytes,
        (∀ w, decode bs' = .ok w → bs' ≠ bs → 3 ≤ Bytes.distance bs bs') ∧
        (bs'.length = bs.length → 0 < Bytes.distance bs bs' → Bytes.distance bs bs' ≤ 2 →
          decode bs' = .error (disagreement bs')) := by
  refine ⟨fun v => value_decode_iff, invalidLength_iff, decode_of_length_ne, decode_of_no_value,
    fun v => decode_eq_ok_iff.2 rfl, fun v hv => ⟨(decode_eq_ok_iff.1 hv).symm, fun bs' => ?_⟩⟩
  constructor
  · intro w hw hne
    exact three_le_distance hv hw hne.symm
  · intro hlen hpos hle
    exact disagreement_of_few_flips hv hlen hpos hle

/-- Three bits are enough to make one block of another. -/
example : Bytes.distance (encode ⟨0, 5⟩).bytes (encode ⟨1, 5⟩).bytes = 3 := by decide

end ValueBlock
end Classic
end TagReader
