/-
# System information, decoded

In the report of a tag, a byte of flags says which of its facts follow the identifier, so that the
place of each depends on all flags before it.  This file says where they are found, and that the
number of blocks that is found can be asked for.

* `Field`: a byte that is at its place if it is announced (`field_eq_ok_iff`, `Field.of_drop`).
* `Says`: what a payload says about a tag, place by place.  This is what is decoded
  (`decode_eq_ok_iff`), and a payload says something if it is as long as its flags announce
  (`exists_says_iff`).
* `says_encode`: the encoding of a report says what has been encoded.
* `Iso15693.perform_readBlocks`: reading all blocks of a memory takes one question, which carries
  the number of the last block.

The main result is `SystemInformation.decodes_by_flags`.
-/
import TagReader.Proofs.Replies
import TagReader.Proofs.Validation

namespace TagReader

variable {σ : Type}

/-! ## Bits of a byte -/

lemma or_and (a b c : UInt8) : (a ||| b) &&& c = (a &&& c) ||| (b &&& c) := by
  apply UInt8.toNat_inj.1
  simp only [UInt8.toNat_and, UInt8.toNat_or]
  exact Nat.and_or_distrib_right a.toNat b.toNat c.toNat

/-- Bits outside of a mask do not count. -/
lemma or_masked_and {a b mask c : UInt8} (h : mask &&& c = 0) :
    (a ||| (b &&& mask)) &&& c = a &&& c := by
  rw [or_and, UInt8.and_assoc, h, UInt8.and_zero, UInt8.or_zero]

namespace MemorySize

variable (m : MemorySize)

lemma bounds : (1 ≤ m.blocks ∧ m.blocks ≤ 256) ∧ 1 ≤ m.blockSize ∧ m.blockSize ≤ 32 := by
  have hlast := m.lastBlock.toNat_lt
  have hmasked : (m.lastByte &&& 0x1F).toNat ≤ 31 := by
    rw [UInt8.toNat_and]
    exact Nat.and_le_right
  unfold blocks blockSize
  omega

/-- The size of a memory of so many blocks of so many bytes; `spare` gives the three bits without a
meaning. -/
def ofSizes (blocks blockSize : Nat) (spare : UInt8) : MemorySize where
  lastBlock := UInt8.ofNat (blocks - 1)
  lastByte := UInt8.ofNat (blockSize - 1) ||| (spare &&& 0xE0)

lemma blocks_ofSizes {blocks : Nat} (hpos : 1 ≤ blocks) (hle : blocks ≤ 256) (blockSize : Nat)
    (spare : UInt8) : (ofSizes blocks blockSize spare).blocks = blocks := by
  show (UInt8.ofNat (blocks - 1)).toNat + 1 = blocks
  rw [UInt8.toNat_ofNat']
  omega

lemma blockSize_ofSizes (blocks : Nat) {blockSize : Nat} (hpos : 1 ≤ blockSize)
    (hle : blockSize ≤ 32) (spare : UInt8) :
    (ofSizes blocks blockSize spare).blockSize = blockSize := by
  show ((UInt8.ofNat (blockSize - 1) ||| (spare &&& 0xE0)) &&& 0x1F).toNat + 1 = blockSize
  have hmask : (0x1F : UInt8).toNat = 2 ^ 5 - 1 := rfl
  rw [or_masked_and (by decide), UInt8.toNat_and, UInt8.toNat_ofNat', hmask,
    Nat.and_two_pow_sub_one_eq_mod]
  omega

/-- The number of the last block is what is asked for to read all of them. -/
lemma ofNat_pred_blocks : UInt8.ofNat (m.blocks - 1) = m.lastBlock := UInt8.ofNat_toNat

end MemorySize

namespace SystemInformation

/-! ## Fields -/

/-- A byte stands at its place if it is announced, and otherwise it is missing. -/
inductive Field (p : Bytes) : Bool → Nat → Option UInt8 → Prop where
  | announced {i : Nat} {b : UInt8} (h : p[i]? = some b) : Field p true i (some b)
  | missing {i : Nat} : Field p false i none

section Fields

variable {p : Bytes} {present : Bool} {i : Nat} {o : Option UInt8}

lemma field_eq_ok_iff {j : Nat} :
    field p present i = .ok (o, j) ↔ Field p present i o ∧ j = i + present.toNat := by
  constructor
  · intro h
    cases present with
    | false =>
      cases h
      exact ⟨.missing, rfl⟩
    | true =>
      obtain ⟨b, hbyte, hpure⟩ := bind_eq_ok_iff.1 h
      cases hpure
      exact ⟨.announced (Payload.byte_eq_ok_iff.1 hbyte), rfl⟩
  · rintro ⟨hfield, rfl⟩
    cases hfield with
    | missing => rfl
    | announced hb => exact bind_eq_ok_iff.2 ⟨_, Payload.byte_eq_ok_iff.2 hb, rfl⟩

lemma onlyShort_field : OnlyShort p (field p present i) := by
  cases present with
  | false => exact .ok _
  | true => exact (Payload.onlyShort_byte p i).bind fun _ => .ok _

namespace Field

/-- Behind a field the payload has not yet ended too early. -/
lemma le_length (h : Field p present i o) (hi : i ≤ p.length) :
    i + present.toNat ≤ p.length := by
  cases h with
  | announced hb => exact (List.getElem?_eq_some_iff.1 hb).1
  | missing => exact hi

lemma getElem?_eq_some {b : UInt8} (h : Field p present i (some b)) : p[i]? = some b := by
  cases h
  assumption

/-- The place is of no concern if nothing is announced, so a second byte of the same field stands
behind the first one. -/
lemma second_iff : Field p present (i + present.toNat) o ↔ Field p present (i + 1) o := by
  cases present with
  | true => exact Iff.rfl
  | false => constructor <;> rintro ⟨⟩ <;> exact .missing

/-- Where the payload is long enough, the field can be read. -/
lemma exists_of_le (present : Bool) (i : Nat) (h : i + present.toNat ≤ p.length) :
    ∃ o, Field p present i o := by
  cases present with
  | false => exact ⟨none, .missing⟩
  | true => exact ⟨some p[i], .announced (List.getElem?_eq_getElem h)⟩

/-- A field that may be there stands in front of what follows it. -/
lemma of_drop {back : Bytes} (h : p.drop i = o.toList ++ back) (hpresent : present = o.isSome) :
    Field p present i o ∧ p.drop (i + present.toNat) = back := by
  subst hpresent
  cases o with
  | none => exact ⟨.missing, h⟩
  | some b =>
    refine ⟨.announced ?_, ?_⟩
    · rw [← List.head?_drop, h]
      rfl
    · show p.drop (i + 1) = back
      rw [← List.drop_drop, h]
      rfl

end Field

end Fields

/-! ## Payloads -/

/-- Whether the first byte has a bit. -/
def flagged (p : Bytes) (bit : UInt8) : Bool := p.headD 0 &&& bit != 0

/-- A payload says these facts: the identifier is in the eight bytes behind the flags, and then come
the bytes that are announced, the two of the memory together. -/
structure Says (p : Bytes) (info : SystemInformation) : Prop where
  long : 9 ≤ p.length
  uid : info.uid.bytes = (p.drop 1).take 8
  storageFormat : Field p (flagged p 0x01) 9 info.storageFormat
  family : Field p (flagged p 0x02) (9 + (flagged p 0x01).toNat) info.family
  lastBlock : Field p (flagged p 0x04) (9 + (flagged p 0x01).toNat + (flagged p 0x02).toNat)
    (info.memory.map MemorySize.lastBlock)
  lastByte : Field p (flagged p 0x04) (9 + (flagged p 0x01).toNat + (flagged p 0x02).toNat + 1)
    (info.memory.map MemorySize.lastByte)
  reference : Field p (flagged p 0x08)
    (9 + (flagged p 0x01).toNat + (flagged p 0x02).toNat + 2 * (flagged p 0x04).toNat)
    info.reference

variable {p : Bytes} {info : SystemInformation}

/-- Two bytes that are announced together are the size of a memory. -/
lemma Field.memory {present : Bool} {i j : Nat} {lastBlock lastByte : Option UInt8}
    (hblock : Field p present i lastBlock) (hbyte : Field p present j lastByte) :
    let memory : Option MemorySize := do some ⟨← lastBlock, ← lastByte⟩
    Field p present i (memory.map MemorySize.lastBlock) ∧
      Field p present j (memory.map MemorySize.lastByte) := by
  cases hblock with
  | announced hb =>
    cases hbyte with
    | announced hb' => exact ⟨.announced hb, .announced hb'⟩
  | missing =>
    cases hbyte with
    | missing => exact ⟨.missing, .missing⟩

/-- What is decoded is what the payload says. -/
lemma decode_eq_ok_iff : decode p = .ok info ↔ Says p info := by
  unfold decode
  constructor
  · intro h
    obtain ⟨flags, hflags, h⟩ := bind_eq_ok_iff.1 h
    obtain ⟨uid, huid, h⟩ := bind_eq_ok_iff.1 h
    obtain ⟨⟨storageFormat, i₁⟩, h₁, h⟩ := bind_eq_ok_iff.1 h
    obtain ⟨⟨family, i₂⟩, h₂, h⟩ := bind_eq_ok_iff.1 h
    obtain ⟨⟨lastBlock, i₃⟩, h₃, h⟩ := bind_eq_ok_iff.1 h
    obtain ⟨⟨lastByte, i₄⟩, h₄, h⟩ := bind_eq_ok_iff.1 h
    obtain ⟨⟨reference, i₅⟩, h₅, h⟩ := bind_eq_ok_iff.1 h
    cases h
    obtain rfl : p.headD 0 = flags := by
      rw [List.headD_eq_head?_getD, List.head?_eq_getElem?, Payload.byte_eq_ok_iff.1 hflags]
      rfl
    obtain ⟨hlong, rfl⟩ := Payload.slice_eq_ok_iff.1 huid
    obtain ⟨hformat, rfl⟩ := field_eq_ok_iff.1 h₁
    obtain ⟨hfamily, rfl⟩ := field_eq_ok_iff.1 h₂
    obtain ⟨hblock, rfl⟩ := field_eq_ok_iff.1 h₃
    obtain ⟨hbyte, rfl⟩ := field_eq_ok_iff.1 h₄
    obtain ⟨hreference, -⟩ := field_eq_ok_iff.1 h₅
    obtain ⟨hblock, hbyte⟩ := hblock.memory hbyte
    refine ⟨hlong, rfl, hformat, hfamily, hblock, Field.second_iff.1 hbyte, ?_⟩
    rw [Nat.two_mul, ← Nat.add_assoc]
    exact hreference
  · intro h
    have hhead : p[0]? = some (p.headD 0) := by
      rw [← List.head?_eq_getElem?, List.headD_eq_head?_getD]
      cases p with
      | nil => cases h.long
      | cons flags p => rfl
    have hreference := h.reference
    rw [Nat.two_mul, ← Nat.add_assoc] at hreference
    refine bind_eq_ok_iff.2 ⟨_, Payload.byte_eq_ok_iff.2 hhead, ?_⟩
    refine bind_eq_ok_iff.2 ⟨_, Payload.slice_eq_ok_iff.2 ⟨h.long, h.uid⟩, ?_⟩
    refine bind_eq_ok_iff.2 ⟨(_, _), field_eq_ok_iff.2 ⟨h.storageFormat, rfl⟩, ?_⟩
    refine bind_eq_ok_iff.2 ⟨(_, _), field_eq_ok_iff.2 ⟨h.family, rfl⟩, ?_⟩
    refine bind_eq_ok_iff.2 ⟨(_, _), field_eq_ok_iff.2 ⟨h.lastBlock, rfl⟩, ?_⟩
    refine bind_eq_ok_iff.2 ⟨(_, _), field_eq_ok_iff.2 ⟨Field.second_iff.2 h.lastByte, rfl⟩, ?_⟩
    refine bind_eq_ok_iff.2 ⟨(_, _), field_eq_ok_iff.2 ⟨hreference, rfl⟩, ?_⟩
    obtain ⟨uid, storageFormat, family, memory, reference⟩ := info
    cases memory <;> rfl

/-- A payload says something if it is as long as its flags announce. -/
lemma exists_says_iff : (∃ info, Says p info) ↔
    9 + (flagged p 0x01).toNat + (flagged p 0x02).toNat + 2 * (flagged p 0x04).toNat +
      (flagged p 0x08).toNat ≤ p.length := by
  constructor
  · rintro ⟨info, h⟩
    have hbyte := Field.second_iff.2 h.lastByte
    have hmemory := hbyte.le_length (h.lastBlock.le_length (h.family.le_length
      (h.storageFormat.le_length h.long)))
    rw [Nat.add_assoc _ (flagged p 0x04).toNat, ← Nat.two_mul] at hmemory
    exact h.reference.le_length hmemory
  · intro h
    obtain ⟨storageFormat, hformat⟩ := Field.exists_of_le (p := p) (flagged p 0x01) 9 (by omega)
    obtain ⟨family, hfamily⟩ := Field.exists_of_le (p := p) (flagged p 0x02)
      (9 + (flagged p 0x01).toNat) (by omega)
    obtain ⟨lastBlock, hblock⟩ := Field.exists_of_le (p := p) (flagged p 0x04)
      (9 + (flagged p 0x01).toNat + (flagged p 0x02).toNat) (by omega)
    obtain ⟨lastByte, hbyte⟩ := Field.exists_of_le (p := p) (flagged p 0x04)
      (9 + (flagged p 0x01).toNat + (flagged p 0x02).toNat + (flagged p 0x04).toNat) (by omega)
    obtain ⟨reference, hreference⟩ := Field.exists_of_le (p := p) (flagged p 0x08)
      (9 + (flagged p 0x01).toNat + (flagged p 0x02).toNat + 2 * (flagged p 0x04).toNat) h
    obtain ⟨hblock, hbyte⟩ := hblock.memory hbyte
    exact ⟨⟨⟨(p.drop 1).take 8⟩, storageFormat, family, _, reference⟩, by omega, rfl, hformat,
      hfamily, hblock, Field.second_iff.1 hbyte, hreference⟩

lemma onlyShort_decode (p : Bytes) : OnlyShort p (decode p) :=
  (Payload.onlyShort_byte p 0).bind fun _ => (Payload.onlyShort_slice p _ _).bind fun _ =>
    onlyShort_field.bind fun _ => onlyShort_field.bind fun _ => onlyShort_field.bind fun _ =>
      onlyShort_field.bind fun _ => onlyShort_field.bind fun _ => .ok _

/-! ## Encodings -/

section Encodings

variable (info : SystemInformation) (reserved : UInt8)

/-- Each of the four low flags says whether its field follows. -/
lemma flags_and :
    (info.flags reserved &&& 0x01 != 0) = info.storageFormat.isSome ∧
      (info.flags reserved &&& 0x02 != 0) = info.family.isSome ∧
      (info.flags reserved &&& 0x04 != 0) = info.memory.isSome ∧
      (info.flags reserved &&& 0x08 != 0) = info.reference.isSome := by
  have hlow (bit : UInt8) (h : 0xF0 &&& bit = 0) :
      info.flags reserved &&& bit = info.flags 0 &&& bit := by
    simp only [flags, or_and, UInt8.and_assoc, h, UInt8.and_zero]
  rw [hlow 0x01 rfl, hlow 0x02 rfl, hlow 0x04 rfl, hlow 0x08 rfl, flags]
  generalize info.storageFormat.isSome = x, info.family.isSome = y, info.memory.isSome = z,
    info.reference.isSome = w
  revert x y z w
  decide

/-- The parts of an encoding, the bytes of the memory as two fields. -/
lemma encode_append (rest : Bytes) :
    info.encode reserved ++ rest = (info.flags reserved :: info.uid.bytes) ++
      (info.storageFormat.toList ++ (info.family.toList ++
        ((info.memory.map MemorySize.lastBlock).toList ++
          ((info.memory.map MemorySize.lastByte).toList ++
            (info.reference.toList ++ rest))))) := by
  unfold encode
  cases info.memory <;> simp only [List.append_assoc] <;> rfl

/-- The encoding of a report says what has been encoded, whatever follows it. -/
lemma says_encode (huid : info.uid.bytes.length = 8) (rest : Bytes) :
    Says (info.encode reserved ++ rest) info := by
  have hflag (bit : UInt8) :
      flagged (info.encode reserved ++ rest) bit = (info.flags reserved &&& bit != 0) := rfl
  obtain ⟨hformat, hfamily, hmemory, hreference⟩ := info.flags_and reserved
  have hall := info.encode_append reserved rest
  have hfront : (info.flags reserved :: info.uid.bytes).length = 9 := congrArg Nat.succ huid
  have hdrop := congrArg (List.drop 9) hall
  rw [List.drop_left' hfront] at hdrop
  obtain ⟨hat₁, hdrop⟩ := Field.of_drop hdrop ((hflag 0x01).trans hformat)
  obtain ⟨hat₂, hdrop⟩ := Field.of_drop hdrop ((hflag 0x02).trans hfamily)
  obtain ⟨hat₃, hdrop⟩ := Field.of_drop hdrop
    ((hflag 0x04).trans (hmemory.trans Option.isSome_map.symm))
  obtain ⟨hat₄, hdrop⟩ := Field.of_drop hdrop
    ((hflag 0x04).trans (hmemory.trans Option.isSome_map.symm))
  obtain ⟨hat₅, -⟩ := Field.of_drop hdrop ((hflag 0x08).trans hreference)
  rw [Nat.add_assoc _ (flagged _ 0x04).toNat, ← Nat.two_mul] at hat₅
  refine ⟨?_, ?_, hat₁, hat₂, hat₃, Field.second_iff.1 hat₄, hat₅⟩
  · rw [hall, List.length_append, hfront]
    exact Nat.le_add_right _ _
  · rw [hall]
    exact (List.take_left' huid).symm

end Encodings

end SystemInformation

/-! ## Reading all blocks -/

namespace Iso15693

variable (tag : Address)

lemma address_bytes : address ⟨tag.bytes⟩ = .ok tag := by
  rw [address, Octets.ofBytes?_bytes]

lemma addressing_bind {α : Type} (f : Address → Talk α) :
    addressing ⟨tag.bytes⟩ >>= f = f tag := by
  rw [addressing, address_bytes]
  rfl

/-- The system information is found by one question. -/
lemma asksOnce_systemInformation :
    AsksOnce ⟨(Request.systemInformation tag).command, none⟩ SystemInformation.decode
      (systemInformation ⟨tag.bytes⟩) := by
  rw [systemInformation, addressing_bind]
  exact .require _ _

/-- All blocks of a memory are read by one question, which carries the number of the last one. -/
lemma asksOnce_readBlocks (m : MemorySize) :
    AsksOnce ⟨(Request.readBlocks tag 0 m.lastBlock).command, none⟩ .ok
      (readBlocks ⟨tag.bytes⟩ 0 m.blocks) := by
  have hcount : ¬(m.blocks < 1 ∨ 256 < m.blocks) := by
    have hbounds := m.bounds
    omega
  rw [readBlocks, if_neg hcount, addressing_bind, m.ofNat_pred_blocks]
  exact .ask (fun _ => rfl) fun _ => rfl

/-- The question for all blocks of a memory is sent if the trailer leaves room for it, and every
frame that is sent carries it. -/
lemma perform_readBlocks (m : MemorySize) (e : Engine σ) (b : Iso14443b.Session) (s : σ) :
    let op := Operation.iso15693 (.readBlocks ⟨tag.bytes⟩ 0 m.blocks)
    let sent := (op.perform e.recorded b { inner := s }).1.state.frames
    (sent ≠ [] ↔ e.trailer.len ≤ 241) ∧
      (∀ frame ∈ sent, Frame.decodeCommand e.trailer frame =
        .ok ([0xB0, 0xA0, 0x23] ++ tag.bytes ++ [0x00, m.lastBlock])) ∧
      (op.perform e b s).1.result =
        (e.serve ⟨⟨0xB0, 0xA0, 0x23 :: tag.bytes ++ [0x00, m.lastBlock]⟩, none⟩ s).result.map
          .bytes := by
  intro op sent
  let c : Command := ⟨0xB0, 0xA0, 0x23 :: tag.bytes ++ [0x00, m.lastBlock]⟩
  have hcommand : (Request.readBlocks tag 0 m.lastBlock).command = c :=
    congrArg (Command.mk 0xB0 0xA0) (List.append_assoc _ _ _)
  have hlen : c.body.length = 13 := by
    rw [Command.length_body, List.length_append, List.length_cons, tag.length_eq]
    rfl
  have hfits : Frame.Fits e.trailer c.body ↔ e.trailer.len ≤ 241 := by
    unfold Frame.Fits Frame.maxLength
    rw [hlen]
    omega
  have hask := asksOnce_readBlocks tag m
  rw [hcommand] at hask
  obtain ⟨hresult, answer, hsent⟩ := (hask.map Finding.bytes).perform op b rfl e s
  refine ⟨⟨fun hne => ?_, fun hle => ?_⟩, fun frame hframe => ?_, ?_⟩
  · by_contra hnot
    exact hne (hsent.eq_nil_of_not_fits fun h => hnot (hfits.1 h))
  · exact List.ne_nil_of_mem
      (hsent.mem_of_encode List.mem_cons_self (Frame.encode_of_fits (hfits.2 hle)))
  · obtain ⟨x, hx, hencode⟩ := hsent.exists_of_mem hframe
    obtain rfl := List.mem_singleton.1 hx
    exact Frame.decodeCommand_eq_ok_iff.2 ⟨Nat.le_add_left 2 _, hencode⟩
  · rw [hresult]
    cases (e.serve ⟨c, none⟩ s).result <;> rfl

end Iso15693

namespace SystemInformation

/-- **System information is found in the right places.**  A payload is decoded just if it is as long
as its flags announce, and otherwise it is too short for one of the readings.  What is decoded is
what the payload says: a field is there if its flag is set, and it stands behind the identifier and
the fields before it.  The number of blocks and the size of a block are found together and within
their bounds, and each pair within these is the size of a memory, whatever the bits without a
meaning are.  Facts about a tag come back from their encoding, whatever the reserved flags are and
whatever follows.  The operation that asks for them yields what is decoded; and from the first block
on, as many blocks can be read as have been decoded: a question is sent if the trailer leaves room
for it, and it carries the identifier and the byte that stands at the place of the memory. -/
theorem decodes_by_flags (e : Engine σ) (b : Iso14443b.Session) (s : σ) :
    (∀ p, (∃ info, decode p = .ok info) ↔
        9 + (flagged p 0x01).toNat + (flagged p 0x02).toNat + 2 * (flagged p 0x04).toNat +
          (flagged p 0x08).toNat ≤ p.length) ∧
      (∀ p, (∀ info, decode p ≠ .ok info) →
        ∃ need, p.length < need ∧ decode p = .error (.invalidLength need p.length)) ∧
      (∀ p info, decode p = .ok info ↔ Says p info) ∧
      (∀ m : MemorySize, (1 ≤ m.blocks ∧ m.blocks ≤ 256) ∧ 1 ≤ m.blockSize ∧ m.blockSize ≤ 32) ∧
      (∀ blocks blockSize spare, 1 ≤ blocks → blocks ≤ 256 → 1 ≤ blockSize → blockSize ≤ 32 →
        (MemorySize.ofSizes blocks blockSize spare).blocks = blocks ∧
          (MemorySize.ofSizes blocks blockSize spare).blockSize = blockSize) ∧
      (∀ (info : SystemInformation) reserved rest, info.uid.bytes.length = 8 →
        decode (info.encode reserved ++ rest) = .ok info) ∧
      (∀ tag : Octets 8,
        ((Operation.iso15693 (.systemInformation ⟨tag.bytes⟩)).perform e b s).1.result =
          (e.serve ⟨⟨0xB0, 0xA0, 0x2B :: tag.bytes⟩, none⟩ s).result >>=
            fun p => (decode p).map .information) ∧
      ∀ p info m, decode p = .ok info → info.memory = some m → ∀ tag : Octets 8,
        let op := Operation.iso15693 (.readBlocks ⟨tag.bytes⟩ 0 m.blocks)
        let sent := (op.perform e.recorded b { inner := s }).1.state.frames
        p[9 + (flagged p 0x01).toNat + (flagged p 0x02).toNat]? = some m.lastBlock ∧
          (sent ≠ [] ↔ e.trailer.len ≤ 241) ∧
          (∀ frame ∈ sent, Frame.decodeCommand e.trailer frame =
            .ok ([0xB0, 0xA0, 0x23] ++ tag.bytes ++ [0x00, m.lastBlock])) ∧
          (op.perform e b s).1.result =
            (e.serve ⟨⟨0xB0, 0xA0, 0x23 :: tag.bytes ++ [0x00, m.lastBlock]⟩, none⟩ s).result.map
              .bytes := by
  refine ⟨fun p => ?_, fun p => (onlyShort_decode p).exists_error, fun p info => decode_eq_ok_iff,
    MemorySize.bounds, fun blocks blockSize spare hb hb' hs hs' =>
      ⟨MemorySize.blocks_ofSizes hb hb' _ _, MemorySize.blockSize_ofSizes _ hs hs' _⟩,
    fun info reserved rest huid => decode_eq_ok_iff.2 (info.says_encode reserved huid rest),
    fun tag => ?_, fun p info m hdecode hmemory tag => ?_⟩
  · rw [← exists_says_iff]
    exact exists_congr fun info => decode_eq_ok_iff
  · have hask := (Iso15693.asksOnce_systemInformation tag).map Finding.information
    exact (hask.perform (.iso15693 (.systemInformation ⟨tag.bytes⟩)) b rfl e s).1
  · have hblock := (decode_eq_ok_iff.1 hdecode).lastBlock
    rw [hmemory] at hblock
    exact ⟨hblock.getElem?_eq_some, Iso15693.perform_readBlocks tag m e b s⟩

end SystemInformation

end TagReader
