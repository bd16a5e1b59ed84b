/-
# Lists of tags, decoded

A list of identifiers is found in a payload by an index that moves on with what has been read.  This
file says what is found.

* Where each identifier stands behind its length, the payload begins with the encoding of the list
  (`TagList.decode_eq_ok_iff`).  The induction is on the number of identifiers and carries the index
  along (`TagList.entries_eq_ok_iff`).
* Where all identifiers have eight bytes, the places are known from the start
  (`TagList.decodeFixed_eq_ok_iff`).
* Nothing else can go wrong than that the payload ends too early (`TagList.onlyShort_decode`,
  `TagList.onlyShort_decodeFixed`).

The main result is `TagList.decodes_exactly`.
-/
import TagReader.Proofs.Replies

namespace TagReader

variable {σ α β : Type}

/-- A number is in a byte exactly if it has room there and is put there. -/
lemma toNat_eq_iff {n : UInt8} {k : Nat} : n.toNat = k ↔ k ≤ 255 ∧ n = UInt8.ofNat k := by
  constructor
  · rintro rfl
    exact ⟨Nat.le_of_lt_succ n.toNat_lt, UInt8.ofNat_toNat.symm⟩
  · rintro ⟨hk, rfl⟩
    rw [UInt8.toNat_ofNat']
    omega

namespace TagList

/-! ## Identifiers behind their lengths -/

/-- The identifiers and their number can be given by bytes. -/
structure Listable (us : List Uid) : Prop where
  few : us.length ≤ 255
  short : ∀ u ∈ us, u.bytes.length ≤ 255

/-- An identifier behind its length. -/
def entry (u : Uid) : Bytes := UInt8.ofNat u.bytes.length :: u.bytes

lemma encode_eq (us : List Uid) : encode us = UInt8.ofNat us.length :: us.flatMap entry := rfl

section Counted

variable {p : Bytes} {us : List Uid}

/-- From an index on, entries are read as what stands there. -/
lemma entries_eq_ok_iff {n i : Nat} :
    entries p n i = .ok us ↔ us.length = n ∧ (∀ u ∈ us, u.bytes.length ≤ 255) ∧
      ∃ rest, p.drop i = us.flatMap entry ++ rest := by
  induction n generalizing i us with
  | zero =>
    constructor
    · intro h
      obtain rfl : [] = us := Except.ok.inj h
      exact ⟨rfl, by simp, p.drop i, rfl⟩
    · rintro ⟨hlen, -⟩
      rw [List.length_eq_zero_iff.1 hlen]
      rfl
  | succ n ih =>
    have hnext {m : UInt8} {bs rest : Bytes} (h : p.drop i = m :: (bs ++ rest)) :
        p.drop (i + 1 + bs.length) = rest := by
      rw [← List.drop_drop, ← List.drop_drop, h]
      exact List.drop_left
    rw [entries, bind_eq_ok_iff]
    constructor
    · rintro ⟨bs, hprefixed, hlater⟩
      obtain ⟨m, rest, hdrop, hm⟩ := Payload.prefixed_eq_ok_iff.1 hprefixed
      obtain ⟨us', hentries, hus⟩ := bind_eq_ok_iff.1 hlater
      obtain rfl : ⟨bs⟩ :: us' = us := Except.ok.inj hus
      obtain ⟨hlen, hshort, rest', hrest⟩ := ih.1 hentries
      rw [hnext hdrop] at hrest
      obtain ⟨hle, rfl⟩ := toNat_eq_iff.1 hm
      refine ⟨congrArg Nat.succ hlen, List.forall_mem_cons.2 ⟨hle, hshort⟩, rest', ?_⟩
      rw [hdrop, hrest, List.flatMap_cons, entry, List.append_assoc]
      rfl
    · rintro ⟨hlen, hshort, rest, hrest⟩
      obtain ⟨u, us, rfl⟩ := List.exists_cons_of_length_eq_add_one hlen
      obtain ⟨hle, hshort⟩ := List.forall_mem_cons.1 hshort
      have hdrop : p.drop i =
          UInt8.ofNat u.bytes.length :: (u.bytes ++ (us.flatMap entry ++ rest)) := by
        rw [hrest, List.flatMap_cons, entry, List.append_assoc]
        rfl
      refine ⟨u.bytes, Payload.prefixed_eq_ok_iff.2 ⟨_, _, hdrop, toNat_eq_iff.2 ⟨hle, rfl⟩⟩, ?_⟩
      refine bind_eq_ok_iff.2 ⟨us, ih.2 ⟨Nat.succ.inj hlen, hshort, rest, ?_⟩, rfl⟩
      exact hnext hdrop

/-- A payload is read as the list with whose encoding it begins. -/
lemma decode_eq_ok_iff : decode p = .ok us ↔ Listable us ∧ ∃ rest, p = encode us ++ rest := by
  unfold decode
  rw [bind_eq_ok_iff]
  constructor
  · rintro ⟨n, hbyte, hentries⟩
    obtain ⟨hlen, hshort, rest, hrest⟩ := entries_eq_ok_iff.1 hentries
    obtain ⟨hfew, rfl⟩ := toNat_eq_iff.1 hlen.symm
    refine ⟨⟨hfew, hshort⟩, rest, ?_⟩
    obtain ⟨hpos, hfirst⟩ := List.getElem?_eq_some_iff.1 (Payload.byte_eq_ok_iff.1 hbyte)
    have hp : p = p[0] :: p.drop 1 := (List.drop_zero).symm.trans (List.drop_eq_getElem_cons hpos)
    rw [hp, hfirst, hrest, encode_eq]
    rfl
  · rintro ⟨⟨hfew, hshort⟩, rest, rfl⟩
    refine ⟨UInt8.ofNat us.length, rfl, entries_eq_ok_iff.2 ⟨?_, hshort, rest, rfl⟩⟩
    exact (toNat_eq_iff.2 ⟨hfew, rfl⟩).symm

/-- There is at most one list with whose encoding a payload begins. -/
lemma encode_append_inj {us vs : List Uid} {rest rest' : Bytes} (hus : Listable us)
    (hvs : Listable vs) (h : encode us ++ rest = encode vs ++ rest') : us = vs ∧ rest = rest' := by
  have hread : decode (encode us ++ rest) = .ok us := decode_eq_ok_iff.2 ⟨hus, rest, rfl⟩
  have hread' : decode (encode us ++ rest) = .ok vs := decode_eq_ok_iff.2 ⟨hvs, rest', h⟩
  obtain rfl := Except.ok.inj (hread.symm.trans hread')
  exact ⟨rfl, List.append_cancel_left h⟩

end Counted

lemma onlyShort_entries (p : Bytes) (n i : Nat) : OnlyShort p (entries p n i) := by
  induction n generalizing i with
  | zero => exact .ok []
  | succ n ih =>
    exact (Payload.onlyShort_prefixed p i).bind fun bs => (ih _).bind fun _ => .ok _

lemma onlyShort_decode (p : Bytes) : OnlyShort p (decode p) :=
  (Payload.onlyShort_byte p 0).bind fun _ => onlyShort_entries p _ 1

/-! ## Identifiers of eight bytes -/

/-- Readings that each succeed under a condition, one after the other. -/
lemma mapM_eq_ok_iff {f : α → Except Fault β} {P : α → Prop} {g : α → β}
    (hf : ∀ a b, f a = .ok b ↔ P a ∧ b = g a) {as : List α} {bs : List β} :
    as.mapM f = .ok bs ↔ (∀ a ∈ as, P a) ∧ bs = as.map g := by
  induction as generalizing bs with
  | nil => exact ⟨fun h => ⟨by simp, (Except.ok.inj h).symm⟩, fun h => h.2 ▸ rfl⟩
  | cons a as ih =>
    rw [List.mapM_cons, bind_eq_ok_iff, List.forall_mem_cons, List.map_cons]
    constructor
    · rintro ⟨b, hb, hlater⟩
      obtain ⟨bs', hbs, hcons⟩ := bind_eq_ok_iff.1 hlater
      obtain rfl : b :: bs' = bs := Except.ok.inj hcons
      obtain ⟨ha, rfl⟩ := (hf a b).1 hb
      obtain ⟨has, rfl⟩ := ih.1 hbs
      exact ⟨⟨ha, has⟩, rfl⟩
    · rintro ⟨⟨ha, has⟩, rfl⟩
      exact ⟨g a, (hf a _).2 ⟨ha, rfl⟩, bind_eq_ok_iff.2 ⟨as.map g, ih.2 ⟨has, rfl⟩, rfl⟩⟩

/-- The eight bytes at the place of an identifier. -/
def eightAt (p : Bytes) (i : Nat) : Uid := ⟨(p.drop (1 + 8 * i)).take 8⟩

section Fixed

variable {p : Bytes} {us : List Uid}

lemma slice_eightAt_iff (i : Nat) (u : Uid) :
    (do let bs ← Payload.slice p (1 + i * fixedLength) fixedLength
        pure ⟨bs⟩ : Except Fault Uid) = .ok u ↔ 1 + 8 * i + 8 ≤ p.length ∧ u = eightAt p i := by
  rw [Nat.mul_comm i, bind_eq_ok_iff]
  constructor
  · rintro ⟨bs, hslice, hu⟩
    obtain rfl : ⟨bs⟩ = u := Except.ok.inj hu
    obtain ⟨hlen, rfl⟩ := Payload.slice_eq_ok_iff.1 hslice
    exact ⟨hlen, rfl⟩
  · rintro ⟨hlen, rfl⟩
    exact ⟨_, Payload.slice_eq_ok_iff.2 ⟨hlen, rfl⟩, rfl⟩

/-- A payload that is long enough for its number of identifiers is read as these, each from its
place. -/
lemma decodeFixed_eq_ok_iff :
    decodeFixed p = .ok us ↔ ∃ n, p.head? = some n ∧ 1 + 8 * n.toNat ≤ p.length ∧
      us = (List.range n.toNat).map (eightAt p) := by
  have hplaces {n : UInt8} (hn : p.head? = some n) :
      (∀ i ∈ List.range n.toNat, 1 + 8 * i + 8 ≤ p.length) ↔ 1 + 8 * n.toNat ≤ p.length := by
    have hpos : 0 < p.length := List.length_pos_iff.2 fun h => by rw [h] at hn; cases hn
    constructor
    · intro h
      cases hk : n.toNat with
      | zero => omega
      | succ k =>
        have hlast := h k (List.mem_range.2 (by omega))
        omega
    · intro h i hi
      have hlt := List.mem_range.1 hi
      omega
  unfold decodeFixed
  rw [bind_eq_ok_iff]
  refine exists_congr fun n => ?_
  rw [Payload.byte_eq_ok_iff, ← List.head?_eq_getElem?, mapM_eq_ok_iff slice_eightAt_iff]
  exact and_congr_right fun hn => and_congr_left' (hplaces hn)

/-- Where pieces have the same length, each of them stands at its place. -/
lemma take_drop_flatMap (os : List (Octets fixedLength)) (rest : Bytes) {i : Nat}
    (hi : i < os.length) :
    ((os.flatMap Octets.bytes ++ rest).drop (8 * i)).take 8 = os[i].bytes := by
  induction os generalizing i with
  | nil => exact absurd hi (Nat.not_lt_zero i)
  | cons o os ih =>
    rw [List.flatMap_cons, List.append_assoc]
    cases i with
    | zero => exact List.take_left' o.length_eq
    | succ i =>
      have hskip : 8 * (i + 1) = o.bytes.length + 8 * i := by
        rw [o.length_eq, fixedLength]
        omega
      rw [hskip, ← List.drop_drop, List.drop_left, ih (Nat.lt_of_succ_lt_succ hi)]
      rfl

/-- A list of identifiers is read from its encoding, whatever follows that. -/
lemma decodeFixed_encodeFixed {os : List (Octets fixedLength)} (hfew : os.length ≤ 255)
    (rest : Bytes) : decodeFixed (encodeFixed os ++ rest) = .ok (os.map fun o => ⟨o.bytes⟩) := by
  have hcount : (UInt8.ofNat os.length).toNat = os.length := toNat_eq_iff.2 ⟨hfew, rfl⟩
  refine decodeFixed_eq_ok_iff.2 ⟨UInt8.ofNat os.length, rfl, ?_, ?_⟩
  · have hlen : (os.flatMap Octets.bytes).length = 8 * os.length :=
      Bytes.length_flatMap Octets.length_eq os
    rw [hcount, encodeFixed, List.cons_append, List.length_cons, List.length_append, hlen]
    omega
  · rw [hcount]
    refine List.ext_getElem (by simp) fun i hi _ => ?_
    rw [List.getElem_map, List.getElem_map, List.getElem_range, eightAt, Nat.add_comm 1]
    rw [List.length_map] at hi
    exact congrArg Uid.mk (take_drop_flatMap os rest hi).symm

end Fixed

lemma onlyShort_decodeFixed (p : Bytes) : OnlyShort p (decodeFixed p) :=
  (Payload.onlyShort_byte p 0).bind fun _ =>
    .mapM (fun _ => (Payload.onlyShort_slice p _ _).bind fun _ => .ok _) _

/-! ## What the operations yield -/

/-- **Lists of tags are decoded without loss or invention.**  Identifiers behind their lengths are
read from a payload just if it begins with the encoding of their list, and there is one such list at
most.  Identifiers of eight bytes are read from a payload that has room for as many as its first
byte says, each from its place.  In all other cases the payload is too short for a reading, and
there is no list.  So a list comes back from its encoding, whatever follows it.  The operations that
list the tags in the field yield what is read of the payload, and the empty list if the reader
reports a status. -/
theorem decodes_exactly (e : Engine σ) (b : Iso14443b.Session) (s : σ) :
    (∀ p us, decode p = .ok us ↔ Listable us ∧ ∃ rest, p = encode us ++ rest) ∧
      (∀ us vs rest rest', Listable us → Listable vs → encode us ++ rest = encode vs ++ rest' →
        us = vs ∧ rest = rest') ∧
      (∀ p us, decodeFixed p = .ok us ↔ ∃ n, p.head? = some n ∧ 1 + 8 * n.toNat ≤ p.length ∧
        us = (List.range n.toNat).map (eightAt p)) ∧
      (∀ p, OnlyShort p (decode p) ∧ OnlyShort p (decodeFixed p)) ∧
      (∀ us rest, Listable us → decode (encode us ++ rest) = .ok us) ∧
      (∀ (os : List (Octets 8)) rest, os.length ≤ 255 →
        decodeFixed (encodeFixed os ++ rest) = .ok (os.map fun o => ⟨o.bytes⟩)) ∧
      ((Operation.iso14443a .showCards).perform e b s).1.result =
        settle (.uids []) (fun p => (decode p).map .uids)
          (e.serve ⟨Iso14443a.Request.listCards.command, none⟩ s).result ∧
      ((Operation.iso15693 .inventory).perform e b s).1.result =
        settle (.uids []) (fun p => (decodeFixed p).map .uids)
          (e.serve ⟨Iso15693.Request.inventory.command, none⟩ s).result := by
  refine ⟨fun p us => decode_eq_ok_iff, fun us vs rest rest' => encode_append_inj,
    fun p us => decodeFixed_eq_ok_iff, fun p => ⟨onlyShort_decode p, onlyShort_decodeFixed p⟩,
    fun us rest hus => decode_eq_ok_iff.2 ⟨hus, rest, rfl⟩,
    fun os rest hfew => decodeFixed_encodeFixed hfew rest, ?_, ?_⟩
  · exact Search.result_eq_settle (x := .showCards) rfl e b s
  · exact Search.result_eq_settle (x := .inventory) rfl e b s

end TagList
end TagReader
