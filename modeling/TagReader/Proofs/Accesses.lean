/-
# Accesses by place

Frames and payloads are taken apart by place: a byte at an index, a range, a split, a copy of a
fixed length, a difference of two lengths, a shift.  Each of these is only meaningful within bounds,
and often the check that keeps it there stands somewhere else.

`Access` is the type of readings that do this without a check of their own: such a reading may, in
place of a value or a fault, turn out to touch a place outside.  The readings here follow the
layouts step by step in this way, and `Safe` says of each that it never touches such a place and
yields what the decoder of the library yields, whatever the bytes are.
-/
import TagReader.Classic.SectorTrailer
import TagReader.Classic.ValueBlock
import TagReader.Hex.Parser
import TagReader.Proofs.Framing

namespace TagReader

variable {α β : Type}

/-- A reading that touches places without a check of its own. -/
abbrev Access (α : Type) : Type := ExceptT Fault Option α

namespace Access

/-! ## The accesses -/

/-- A place outside has been touched. -/
def outside : Access α := ExceptT.mk none

/-- All places have been within bounds, and this is what has come of it. -/
def within (r : Except Fault α) : Access α := ExceptT.mk (some r)

/-- The entry at an index. -/
def get (bs : List α) (i : Nat) : Access α :=
  match bs[i]? with
  | some b => pure b
  | none => outside

/-- The bytes from one place up to another. -/
def range (bs : Bytes) (i j : Nat) : Access Bytes :=
  if i ≤ j ∧ j ≤ bs.length then pure ((bs.drop i).take (j - i)) else outside

/-- The bytes before and behind a place. -/
def split (bs : Bytes) (i : Nat) : Access (Bytes × Bytes) :=
  if i ≤ bs.length then pure (bs.take i, bs.drop i) else outside

/-- A difference that is not negative. -/
def minus (a b : Nat) : Access Nat := if b ≤ a then pure (a - b) else outside

/-- A copy of exactly `n` bytes. -/
def copy (n : Nat) (bs : Bytes) : Access (Octets n) :=
  match Octets.ofBytes? n bs with
  | some o => pure o
  | none => outside

/-- A byte shifted to the right, by less than its width. -/
def shiftRight (b k : UInt8) : Access UInt8 := if k < 8 then pure (b >>> k) else outside

/-! ## Safe readings -/

/-- The reading touches no place outside, and yields `r`. -/
def Safe (x : Access α) (r : Except Fault α) : Prop := x = within r

namespace Safe

lemma within (r : Except Fault α) : Safe (Access.within r) r := rfl

lemma pure (a : α) : Safe (Pure.pure a) (.ok a) := rfl

/-- Readings in sequence; the second one may rely on what the first one has found. -/
lemma bind {x : Access α} {r : Except Fault α} {f : α → Access β} {g : α → Except Fault β}
    (hx : Safe x r) (hf : ∀ a, r = .ok a → Safe (f a) (g a)) : Safe (x >>= f) (r >>= g) := by
  obtain rfl : x = Access.within r := hx
  rcases r with e | a
  · rfl
  · exact hf a rfl

/-- An access that needs no check is no step of the decoder. -/
lemma step {x : Access α} {a : α} {f : α → Access β} {r : Except Fault β} (hx : Safe x (.ok a))
    (hf : Safe (f a) r) : Safe (x >>= f) r := by
  obtain rfl : x = Access.within (.ok a) := hx
  exact hf

/-- A reading that has failed stays failed. -/
lemma fail {x : Access α} {e : Fault} {f : α → Access β} (hx : Safe x (.error e)) :
    Safe (x >>= f) (.error e) := by
  obtain rfl : x = Access.within (.error e) := hx
  rfl

lemma mapM {f : α → Access β} {g : α → Except Fault β} (h : ∀ a, Safe (f a) (g a))
    (as : List α) : Safe (as.mapM f) (as.mapM g) := by
  induction as with
  | nil => rfl
  | cons a as ih =>
    rw [List.mapM_cons, List.mapM_cons]
    exact (h a).bind fun b _ => ih.bind fun bs _ => .pure _

lemma ite {c : Prop} [Decidable c] {x y : Access α} {r q : Except Fault α}
    (hx : c → Safe x r) (hy : ¬c → Safe y q) :
    Safe (if c then x else y) (if c then r else q) := by
  by_cases h : c
  · rw [if_pos h, if_pos h]
    exact hx h
  · rw [if_neg h, if_neg h]
    exact hy h

/-- A check that ends a reading. -/
lemma check {c : Prop} [Decidable c] {e : Fault} {k : β → Access α}
    {k' : β → Except Fault α} {y : Access α} {q : Except Fault α} (hy : ¬c → Safe y q) :
    Safe (if c then (MonadExcept.throw e : Access β) >>= k else y)
      (if c then (MonadExcept.throw e : Except Fault β) >>= k' else q) :=
  ite (fun _ => rfl) hy

/-- A check that ends a reading, where the decoder asks the other way round. -/
lemma require {c : Prop} [Decidable c] {e : Fault} {k : β → Access α} {y : Access α}
    {q : Except Fault α} (hy : c → Safe y q) :
    Safe (if ¬c then (MonadExcept.throw e : Access β) >>= k else y)
      (if c then q else .error e) := by
  by_cases h : c
  · rw [if_neg (not_not.2 h), if_pos h]
    exact hy h
  · rw [if_pos h, if_neg h]
    rfl

end Safe

variable {bs : Bytes} {i j n : Nat}

lemma getElem?_eq_some_getD (h : i < bs.length) : bs[i]? = some (bs.getD i 0) := by
  rw [List.getD_eq_getElem?_getD, List.getElem?_eq_getElem h]
  rfl

lemma safe_get {as : List α} {a : α} (h : as[i]? = some a) : Safe (get as i) (.ok a) := by
  unfold get
  rw [h]
  rfl

lemma safe_range (hij : i ≤ j) (hj : j ≤ bs.length) :
    Safe (range bs i j) (.ok ((bs.drop i).take (j - i))) :=
  if_pos ⟨hij, hj⟩

lemma safe_range_end (h : i ≤ bs.length) : Safe (range bs i bs.length) (.ok (bs.drop i)) := by
  have hrange := safe_range h (Nat.le_refl bs.length)
  rwa [List.take_of_length_le (Nat.le_of_eq List.length_drop)] at hrange

lemma safe_split (h : i ≤ bs.length) : Safe (split bs i) (.ok (bs.take i, bs.drop i)) :=
  if_pos h

lemma safe_minus {a b : Nat} (h : b ≤ a) : Safe (minus a b) (.ok (a - b)) := if_pos h

lemma safe_copy (o : Octets n) : Safe (copy n o.bytes) (.ok o) := by
  unfold copy
  rw [Octets.ofBytes?_bytes]
  rfl

lemma safe_copy_of_eq {o : Octets n} (h : bs = o.bytes) : Safe (copy n bs) (.ok o) := by
  obtain rfl := h
  exact safe_copy o

/-- Bytes that are there, and as many as are asked for, are a window. -/
lemma take_drop_eq_window (h : i + n ≤ bs.length) :
    (bs.drop i).take n = (Octets.window n i bs).bytes := by
  unfold Octets.window
  refine List.ext_getElem ?_ fun k hk _ => ?_
  · rw [List.length_take, List.length_drop, List.length_map, List.length_range]
    omega
  · have hkn : k < n := Nat.lt_of_lt_of_le hk (List.length_take_le n _)
    rw [List.getElem_take, List.getElem_drop, List.getElem_map, List.getElem_range,
      ← List.getElem_eq_getD]

lemma safe_copy_window (h : i + n ≤ bs.length) :
    Safe (copy n ((bs.drop i).take n)) (.ok (Octets.window n i bs)) :=
  safe_copy_of_eq (take_drop_eq_window h)

lemma safe_shiftRight {b k : UInt8} (h : k < 8) : Safe (shiftRight b k) (.ok (b >>> k)) :=
  if_pos h

/-! ## Reading payloads -/

section Payload

variable (p : Bytes)

/-- The byte at an index, after a check. -/
def byte (i : Nat) : Access UInt8 := do
  within (Payload.ensure p (i + 1))
  get p i

/-- So many bytes from an index on, after a check. -/
def slice (i len : Nat) : Access Bytes := do
  within (Payload.ensure p (i + len))
  range p i (i + len)

/-- A word, from the first two bytes of a slice. -/
def word16 (i : Nat) : Access UInt16 := do
  let s ← slice p i 2
  pure (Bytes.toWord16 (← get s 0) (← get s 1))

/-- A copy of a slice. -/
def octets (n i : Nat) : Access (Octets n) := do
  copy n (← slice p i n)

/-- The bytes that the byte at an index announces. -/
def prefixed (i : Nat) : Access Bytes := do
  let len ← byte p i
  slice p (i + 1) len.toNat

lemma length_of_ensure {p : Bytes} {need : Nat} {u : Unit} (h : Payload.ensure p need = .ok u) :
    need ≤ p.length :=
  Payload.ensure_eq_ok_iff.1 h

lemma safe_byte (i : Nat) : Safe (byte p i) (Payload.byte p i) := by
  unfold byte Payload.byte Payload.ensure
  by_cases h : i < p.length
  · rw [if_neg (by omega), List.getElem?_eq_getElem h]
    exact Safe.step (.within _) (safe_get (List.getElem?_eq_getElem h))
  · rw [if_pos (by omega), List.getElem?_eq_none (by omega)]
    rfl

lemma safe_slice (i len : Nat) : Safe (slice p i len) (Payload.slice p i len) := by
  refine Safe.bind (.within _) fun _ h => ?_
  have hrange := safe_range (Nat.le_add_right i len) (length_of_ensure h)
  rwa [Nat.add_sub_cancel_left] at hrange

lemma getElem?_slice {i len k : Nat} {s : Bytes} (h : Payload.slice p i len = .ok s)
    (hk : k < len) : s[k]? = some (p.getD (i + k) 0) := by
  obtain ⟨hlen, rfl⟩ := Payload.slice_eq_ok_iff.1 h
  rw [List.getElem?_take_of_lt hk, List.getElem?_drop, getElem?_eq_some_getD (by omega)]

lemma safe_word16 (i : Nat) : Safe (word16 p i) (Payload.word16 p i) := by
  have hword : Payload.word16 p i =
      Payload.slice p i 2 >>= fun _ =>
        .ok (Bytes.toWord16 (p.getD i 0) (p.getD (i + 1) 0)) := by
    unfold Payload.word16 Payload.slice
    cases Payload.ensure p (i + 2) <;> rfl
  rw [hword]
  refine (safe_slice p i 2).bind fun s hs => ?_
  refine Safe.step (safe_get (getElem?_slice p hs (by omega : 0 < 2))) ?_
  exact Safe.step (safe_get (getElem?_slice p hs (by omega : 1 < 2))) (.pure _)

lemma slice_of_short {p : Bytes} {i len : Nat} (h : p.length < i + len) :
    Payload.slice p i len = .error (.invalidLength (i + len) p.length) := by
  unfold Payload.slice Payload.ensure
  rw [if_pos h]
  rfl

lemma safe_octets (n i : Nat) : Safe (octets p n i) (Payload.octets n p i) := by
  have hslice := safe_slice p i n
  unfold octets Payload.octets
  by_cases h : i + n ≤ p.length
  · rw [Payload.slice_eq_ok_iff.2 ⟨h, rfl⟩] at hslice
    rw [dif_pos h]
    exact Safe.step hslice (safe_copy ⟨(p.drop i).take n, _⟩)
  · rw [slice_of_short (Nat.not_le.1 h)] at hslice
    rw [dif_neg h]
    exact hslice.fail

lemma safe_prefixed (i : Nat) : Safe (prefixed p i) (Payload.prefixed p i) :=
  (safe_byte p i).bind fun _ _ => safe_slice p _ _

end Payload

/-! ## Frames -/

section Frames

variable (t : Trailer) (frame : Bytes)

/-- The bytes that the trailer protects: the frame is split at the declared length less that of the
trailer. -/
def openFrame (least : Nat) : Access Bytes := do
  if frame.length ≠ Frame.declared frame then
    throw (.frameLength (Frame.declared frame) frame.length)
  if Frame.declared frame < least + t.len then
    throw (.frameLength (Frame.declared frame) frame.length)
  let (data, check) ← split frame (← minus (Frame.declared frame) t.len)
  within (t.verify data check)
  pure data

/-- A reply: the reserved bytes and the status by their indices, and the rest. -/
def decode : Access Reply := do
  let data ← openFrame t frame Frame.headerLength
  let reserved ← copy 3 [← get data 1, ← get data 2, ← get data 3]
  pure ⟨reserved, ← get data 4, ← range data Frame.headerLength data.length⟩

/-- The body of a command. -/
def decodeCommand : Access Bytes := do
  let data ← openFrame t frame 3
  range data 1 data.length

lemma safe_openFrame (least : Nat) :
    Safe (openFrame t frame least) (Frame.openFrame t least frame) := by
  unfold openFrame
  by_cases hlen : frame.length = Frame.declared frame
  · by_cases hleast : Frame.declared frame < least + t.len
    · rw [if_neg (not_not.2 hlen), if_pos hleast, Frame.openFrame, if_pos (Or.inr hleast)]
      rfl
    · rw [if_neg (not_not.2 hlen), if_neg hleast, Frame.openFrame,
        if_neg (not_or.2 ⟨not_not.2 hlen, hleast⟩), hlen]
      refine Safe.step (safe_minus (by omega)) (Safe.step (safe_split (by omega)) ?_)
      dsimp only
      cases t.verify (frame.take (Frame.declared frame - t.len))
        (frame.drop (Frame.declared frame - t.len)) <;> rfl
  · have hmodel : Frame.openFrame t least frame =
        .error (.frameLength (Frame.declared frame) frame.length) := if_pos (Or.inl hlen)
    rw [if_pos hlen, hmodel]
    rfl

/-- What has been opened is as long as it has to be. -/
lemma length_of_openFrame {least : Nat} {data : Bytes}
    (h : Frame.openFrame t least frame = .ok data) : least ≤ data.length := by
  unfold Frame.openFrame at h
  split at h
  · cases h
  · rename_i hsize
    dsimp only at h
    split at h
    · obtain rfl := Except.ok.inj h
      rw [List.length_take]
      omega
    · cases h

lemma safe_decode : Safe (decode t frame) (Frame.decode t frame) := by
  refine (safe_openFrame t frame Frame.headerLength).bind fun data h => ?_
  have hlen : 5 ≤ data.length := length_of_openFrame t frame h
  refine Safe.step (safe_get (getElem?_eq_some_getD (by omega))) ?_
  refine Safe.step (safe_get (getElem?_eq_some_getD (by omega))) ?_
  refine Safe.step (safe_get (getElem?_eq_some_getD (by omega))) ?_
  refine Safe.step (safe_copy (Octets.window 3 1 data)) ?_
  refine Safe.step (safe_get (getElem?_eq_some_getD (by omega))) ?_
  exact Safe.step (safe_range_end hlen) (.pure _)

lemma safe_decodeCommand : Safe (decodeCommand t frame) (Frame.decodeCommand t frame) := by
  refine (safe_openFrame t frame 3).bind fun data h => ?_
  have hlen : 3 ≤ data.length := length_of_openFrame t frame h
  exact safe_range_end (by omega)

end Frames

/-! ## Tags -/

section Tags

variable (p : Bytes)

/-- The length that an answer to a request announces, by its first byte; the second one is read
for the message only. -/
def uidLength (a : Atqa) : Access Nat := do
  match ← shiftRight (← get a.bytes.bytes 0) 6 with
  | 0 => pure 4
  | 1 => pure 7
  | 2 => pure 10
  | _ =>
    let bs := [← get a.bytes.bytes 0, ← get a.bytes.bytes 1]
    throw (.format ("atqa " ++ Hex.compact bs ++ " declares a reserved uid size"))

/-- The report of an activation: the answer to the request and the acknowledge are found from the
end. -/
def target : Access Target := do
  within (Payload.ensure p 7)
  let tail ← minus p.length 3
  let atqa ← within (Atqa.ofBytes (← slice p tail 2))
  let announced ← uidLength atqa
  if announced ≠ tail then
    throw (.format s!"atqa announces a {announced} byte uid, reply carries {tail}")
  let uid ← range p 0 announced
  pure ⟨⟨uid⟩, atqa, ← get p (tail + 2)⟩

/-- Identifiers with their lengths, from an index on. -/
def entries : (n i : Nat) → Access (List Uid)
  | 0, _ => pure []
  | n + 1, i => do
    let bs ← prefixed p i
    let rest ← entries n (i + 1 + bs.length)
    pure (⟨bs⟩ :: rest)

/-- A list of tags. -/
def tagList : Access (List Uid) := do
  let n ← byte p 0
  entries p n.toNat 1

/-- A list of tags with identifiers of eight bytes. -/
def fixedTagList : Access (List Uid) := do
  let n ← byte p 0
  (List.range n.toNat).mapM fun i => do
    let bs ← slice p (1 + i * TagList.fixedLength) TagList.fixedLength
    pure ⟨bs⟩

/-- An answer to a request of ISO14443B. -/
def atqb : Access Atqb := do
  within (Payload.ensure p 12)
  let first ← get p 0
  if first ≠ 0x50 then
    throw (.format ("atqb must start with 0x50, got " ++ Hex.code first))
  let pupi ← copy 4 (← range p 1 5)
  let applicationData ← copy 4 (← range p 5 9)
  let protocolInfo ← copy 3 (← range p 9 12)
  pure ⟨pupi, applicationData, protocolInfo⟩

/-- The firmware version of a reader. -/
def firmwareVersion : Access FirmwareVersion := do
  within (Payload.ensure p 5)
  pure ⟨← get p 0, ← get p 1, ← get p 2, ← get p 3, ← get p 4⟩

/-- A byte that is there or not, and the index behind it. -/
def field (present : Bool) (i : Nat) : Access (Option UInt8 × Nat) :=
  if present then do
    let b ← byte p i
    pure (some b, i + 1)
  else pure (none, i)

/-- System information. -/
def systemInformation : Access SystemInformation := do
  let flags ← byte p 0
  let uid ← slice p 1 SystemInformation.uidLength
  let has := fun (bit : UInt8) => flags &&& bit != 0
  let (storageFormat, i) ← field p (has 0x01) (1 + SystemInformation.uidLength)
  let (family, i) ← field p (has 0x02) i
  let (lastBlock, i) ← field p (has 0x04) i
  let (lastByte, i) ← field p (has 0x04) i
  let (reference, _) ← field p (has 0x08) i
  let memory := do some ⟨← lastBlock, ← lastByte⟩
  pure ⟨⟨uid⟩, storageFormat, family, memory, reference⟩

/-- Blocks behind the byte that gives their size. -/
def blocks (n : UInt8) : Access Bytes := do
  let size ← byte p 0
  slice p 1 (size.toNat * n.toNat)

/-- Four bytes of an identifier, and their check byte if it is there. -/
def anticollision : Access (Octets 4) := do
  let uid ← octets p 4 0
  match p[4]? with
  | some bcc =>
    if bcc ≠ Iso14443a.checkByte uid then
      throw (.format ("bcc mismatch: expected " ++ Hex.code (Iso14443a.checkByte uid) ++
        ", got " ++ Hex.code bcc))
    pure uid
  | none => pure uid

/-- An answer to select, which counts itself. -/
def ats : Access Bytes := do
  let len ← byte p 0
  slice p 0 len.toNat

lemma safe_uidLength (a : Atqa) : Safe (uidLength a) a.uidLength := by
  obtain ⟨⟨bs, hbs⟩⟩ := a
  obtain ⟨x, y, rfl⟩ := List.length_eq_two.1 hbs
  refine Safe.step (safe_get rfl) (Safe.step (safe_shiftRight (by decide)) ?_)
  show Safe (match x >>> 6 with
    | 0 => _
    | 1 => _
    | 2 => _
    | _ => _) (match x >>> 6 with
    | 0 => _
    | 1 => _
    | 2 => _
    | _ => _)
  split <;> rfl

/-- An identifier is announced, and it is the one that stands in front. -/
lemma safe_target : Safe (target p) (Target.ofReport p) := by
  refine Safe.bind (.within _) fun _ h => ?_
  have hlen := length_of_ensure h
  have hslice := safe_slice p (p.length - 3) 2
  rw [Payload.slice_eq_ok_iff.2 ⟨by omega, rfl⟩] at hslice
  refine Safe.step (safe_minus (by omega)) (Safe.step hslice ?_)
  refine Safe.bind (.within _) fun atqa _ => (safe_uidLength atqa).bind fun announced _ => ?_
  refine Safe.check fun hequal => ?_
  -- What is announced is what stands before the last three bytes, so it is within bounds.
  obtain rfl := not_not.1 hequal
  refine Safe.step (safe_range (Nat.zero_le _) (by omega)) ?_
  exact Safe.step (safe_get (getElem?_eq_some_getD (by omega))) (.pure _)

lemma safe_entries (n i : Nat) : Safe (entries p n i) (TagList.entries p n i) := by
  induction n generalizing i with
  | zero => rfl
  | succ n ih => exact (safe_prefixed p i).bind fun bs _ => (ih _).bind fun rest _ => .pure _

lemma safe_tagList : Safe (tagList p) (TagList.decode p) :=
  (safe_byte p 0).bind fun n _ => safe_entries p n.toNat 1

lemma safe_fixedTagList : Safe (fixedTagList p) (TagList.decodeFixed p) :=
  (safe_byte p 0).bind fun _ _ =>
    Safe.mapM (fun _ => (safe_slice p _ _).bind fun _ _ => .pure _) _

/-- A range of known length can be copied. -/
lemma safe_copy_range {p : Bytes} {n i : Nat} (h : i + n ≤ p.length) :
    ∃ o, Payload.octets n p i = .ok o ∧ Safe (range p i (i + n)) (.ok o.bytes) := by
  have hrange := safe_range (Nat.le_add_right i n) h
  rw [Nat.add_sub_cancel_left] at hrange
  exact ⟨_, dif_pos h, hrange⟩

lemma safe_atqb : Safe (atqb p) (Atqb.ofBytes p) := by
  refine Safe.bind (.within _) fun _ h => ?_
  have hlen := length_of_ensure h
  have hfirst := getElem?_eq_some_getD (show 0 < p.length by omega)
  rw [Payload.byte_eq_ok_iff.2 hfirst]
  refine Safe.step (safe_get hfirst) (Safe.check fun _ => ?_)
  obtain ⟨o, ho, hrange⟩ := safe_copy_range (show 1 + 4 ≤ p.length by omega)
  obtain ⟨o', ho', hrange'⟩ := safe_copy_range (show 5 + 4 ≤ p.length by omega)
  obtain ⟨o'', ho'', hrange''⟩ := safe_copy_range (show 9 + 3 ≤ p.length by omega)
  rw [ho, ho', ho'']
  refine Safe.step hrange (Safe.step (safe_copy o) ?_)
  refine Safe.step hrange' (Safe.step (safe_copy o') ?_)
  exact Safe.step hrange'' (Safe.step (safe_copy o'') (.pure _))

lemma safe_firmwareVersion : Safe (firmwareVersion p) (FirmwareVersion.ofBytes p) := by
  match p with
  | a :: b :: c :: d :: e :: rest =>
    have hensure : Payload.ensure (a :: b :: c :: d :: e :: rest) 5 = .ok () :=
      Payload.ensure_eq_ok_iff.2 (by simp)
    unfold firmwareVersion
    rw [hensure]
    rfl
  | [] | [_] | [_, _] | [_, _, _] | [_, _, _, _] => rfl

lemma safe_field (present : Bool) (i : Nat) :
    Safe (field p present i) (SystemInformation.field p present i) :=
  .ite (fun _ => (safe_byte p i).bind fun _ _ => .pure _) fun _ => .pure _

lemma safe_systemInformation : Safe (systemInformation p) (SystemInformation.decode p) := by
  refine (safe_byte p 0).bind fun flags _ => (safe_slice p 1 _).bind fun uid _ => ?_
  refine (safe_field p _ _).bind fun x _ => (safe_field p _ _).bind fun y _ => ?_
  refine (safe_field p _ _).bind fun z _ => (safe_field p _ _).bind fun v _ => ?_
  exact (safe_field p _ _).bind fun w _ => .pure _

lemma safe_blocks (n : UInt8) : Safe (blocks p n) (Iso14443b.decodeBlocks n p) :=
  (safe_byte p 0).bind fun _ _ => safe_slice p 1 _

lemma safe_anticollision : Safe (anticollision p) (Iso14443a.decodeAnticollision p) := by
  refine (safe_octets p 4 0).bind fun uid _ => ?_
  cases p[4]? with
  | none => rfl
  | some bcc => exact Safe.check fun _ => .pure uid

lemma safe_ats : Safe (ats p) (Iso14443a.decodeAts p) :=
  (safe_byte p 0).bind fun _ _ => safe_slice p 0 _

end Tags

/-! ## Blocks of Classic tags -/

section Classic

open TagReader.Classic

/-- The place of a pattern in a table of eight. -/
def patternIndex (c1 c2 c3 n : UInt8) : Access Nat := do
  let b1 ← shiftRight c1 n
  let b2 ← shiftRight c2 n
  let b3 ← shiftRight c3 n
  pure (4 * (b1 &&& 1).toNat + 2 * (b2 &&& 1).toNat + (b3 &&& 1).toNat)

/-- The permissions in access bits: three bytes in nibbles, and four entries of the tables. -/
def access (bits : Bytes) : Access SectorAccess := do
  within (Payload.ensure bits 3)
  let b6 ← get bits 0
  let b7 ← get bits 1
  let b8 ← get bits 2
  let c1 ← shiftRight b7 4
  let c2 := b8 &&& 0x0F
  let c3 ← shiftRight b8 4
  if ¬(b6 &&& 0x0F = SectorPatterns.inverted c1 ∧ (← shiftRight b6 4) = SectorPatterns.inverted c2 ∧
      b7 &&& 0x0F = SectorPatterns.inverted c3) then
    throw (.format ("access bits " ++ Hex.spaced [b6, b7, b8] ++ " fail the inverted copy check"))
  let table := Pattern.all.map BlockAccess.ofPattern
  pure ⟨← get table (← patternIndex c1 c2 c3 0), ← get table (← patternIndex c1 c2 c3 1),
    ← get table (← patternIndex c1 c2 c3 2),
    ← get (Pattern.all.map TrailerAccess.ofPattern) (← patternIndex c1 c2 c3 3)⟩

/-- A sector trailer. -/
def sectorTrailer (block : Octets 16) : Access SectorTrailer := do
  let access ← access (← range block.bytes 6 9)
  let keyA ← copy 6 (← range block.bytes 0 6)
  let keyB ← copy 6 (← range block.bytes 10 block.bytes.length)
  pure ⟨keyA, access, ← get block.bytes 9, keyB⟩

/-- A value block: each byte of the value and its two copies, and the four of the address. -/
def valueBlock (bs : Bytes) : Access ValueBlock := do
  if bs.length ≠ 16 then
    throw (.invalidLength 16 bs.length)
  let v ← (List.range 4).mapM fun i => get bs i
  let w ← (List.range 4).mapM fun i => get bs (4 + i)
  let x ← (List.range 4).mapM fun i => get bs (8 + i)
  let a ← get bs 12
  if ¬(x = v ∧ w = ValueBlock.inverted v ∧ (← get bs 14) = a ∧ (← get bs 13) = ~~~a ∧
      (← get bs 15) = ~~~a) then
    throw (.format ("not a value block: " ++ Hex.compact bs))
  pure ⟨Bytes.toInt32 (← get v 0) (← get v 1) (← get v 2) (← get v 3), a⟩

lemma and_one_cases (x : UInt8) : x &&& 1 = 0 ∨ x &&& 1 = 1 := by
  have hmod : (x &&& 1).toNat = x.toNat % 2 := by
    rw [UInt8.toNat_and]
    exact Nat.and_one_is_mod _
  rcases Nat.mod_two_eq_zero_or_one x.toNat with h | h
  · exact .inl (UInt8.toNat_inj.1 (hmod.trans h))
  · exact .inr (UInt8.toNat_inj.1 (hmod.trans h))

/-- The tables of eight have an entry for each pattern. -/
lemma getElem?_table (f : Pattern → α) (x y z : UInt8) :
    (Pattern.all.map f)[4 * (x &&& 1).toNat + 2 * (y &&& 1).toNat + (z &&& 1).toNat]? =
      some (f ⟨x &&& 1 == 1, y &&& 1 == 1, z &&& 1 == 1⟩) := by
  rcases and_one_cases x with hx | hx <;> rcases and_one_cases y with hy | hy <;>
    rcases and_one_cases z with hz | hz <;> rw [hx, hy, hz] <;> rfl

/-- A look-up in a table of eight. -/
lemma Safe.lookup {f : Pattern → α} {c1 c2 c3 n : UInt8} (hn : n < 8)
    {k : α → Access β} {r : Except Fault β}
    (hk : Safe (k (f (SectorPatterns.patternAt c1 c2 c3 n))) r) :
    Safe (do k (← get (Pattern.all.map f) (← patternIndex c1 c2 c3 n))) r := by
  refine Safe.step ?_ (Safe.step (safe_get (getElem?_table f _ _ _)) hk)
  refine Safe.step (safe_shiftRight hn) (Safe.step (safe_shiftRight hn) ?_)
  exact Safe.step (safe_shiftRight hn) (.pure _)

lemma safe_access (bits : Bytes) : Safe (access bits) (SectorAccess.ofBits bits) := by
  match bits with
  | b6 :: b7 :: b8 :: rest =>
    have hensure : Payload.ensure (b6 :: b7 :: b8 :: rest) 3 = .ok () :=
      Payload.ensure_eq_ok_iff.2 (by simp)
    unfold access
    rw [hensure]
    refine Safe.step (.within _) (Safe.step (safe_get rfl) (Safe.step (safe_get rfl) ?_))
    refine Safe.step (safe_get rfl) (Safe.step (safe_shiftRight (by decide)) ?_)
    refine Safe.step (safe_shiftRight (by decide)) (Safe.step (safe_shiftRight (by decide)) ?_)
    show Safe _ ((SectorPatterns.ofImage b6 b7 b8).map SectorPatterns.access)
    -- The library asks whether the copies agree, the layout whether they do not.
    unfold SectorPatterns.ofImage
    rw [apply_ite (Except.map SectorPatterns.access)]
    refine Safe.require fun _ => ?_
    refine Safe.lookup (by decide) (Safe.lookup (by decide) (Safe.lookup (by decide) ?_))
    exact Safe.lookup (by decide) (.pure _)
  | [] | [_] | [_, _] => rfl

lemma safe_sectorTrailer (block : Octets 16) :
    Safe (sectorTrailer block) (SectorTrailer.decode block) := by
  have hlen := block.length_eq
  refine Safe.step (safe_range (by omega) (by omega)) ?_
  refine (safe_access _).bind fun access _ => ?_
  refine Safe.step (safe_range (by omega) (by omega)) ?_
  refine Safe.step (safe_copy_window (by omega : 0 + 6 ≤ block.bytes.length)) ?_
  refine Safe.step (safe_range_end (by omega)) ?_
  have hrest : (block.bytes.drop 10).take 6 = block.bytes.drop 10 :=
    List.take_of_length_le (by rw [List.length_drop]; omega)
  have hcopy := safe_copy_window (by omega : 10 + 6 ≤ block.bytes.length)
  rw [hrest] at hcopy
  exact Safe.step hcopy (Safe.step (safe_get (getElem?_eq_some_getD (by omega))) (.pure _))

lemma safe_valueBlock (bs : Bytes) : Safe (valueBlock bs) (ValueBlock.decode bs) := by
  unfold valueBlock
  by_cases hlen : bs.length = 16
  · rw [if_neg (not_not.2 hlen)]
    match bs, hlen with
    | [v0, v1, v2, v3, w0, w1, w2, w3, x0, x1, x2, x3, a, b, c, d], _ =>
      exact Safe.require fun _ => .pure _
  · rw [if_pos hlen]
    unfold ValueBlock.decode
    split
    · exact absurd rfl hlen
    · rfl

end Classic

/-! ## Hexadecimal text -/

/-- Bytes in pairs; an odd one is left over. -/
def pairs : Bytes → List Bytes
  | a :: b :: rest => [a, b] :: pairs rest
  | [a] => [[a]]
  | [] => []

/-- The bytes that digits stand for, each pair read by its two places. -/
def hex (text : Bytes) : Access Bytes := do
  let digits := text.filter fun b => !Hex.isSeparator b
  if digits.length % 2 ≠ 0 then
    throw (.validation "hex string has odd length")
  (pairs digits).mapM fun pair => do
    within (Hex.parsePair (← get pair 0) (← get pair 1))

/-- Of an even number of digits none is left over. -/
lemma safe_pairs : ∀ digits : Bytes, digits.length % 2 = 0 →
    Safe ((pairs digits).mapM fun pair => do
      within (Hex.parsePair (← get pair 0) (← get pair 1))) (Hex.parsePairs digits)
  | [], _ => rfl
  | [_], h => by simp at h
  | a :: b :: rest, h => by
    have hrest : rest.length % 2 = 0 := by
      rw [List.length_cons, List.length_cons] at h
      omega
    rw [pairs, List.mapM_cons]
    refine Safe.bind (.within (Hex.parsePair a b)) fun v _ => ?_
    exact (safe_pairs rest hrest).bind fun vs _ => .pure _

lemma safe_hex (text : Bytes) : Safe (hex text) (Hex.parseUtf8 text) :=
  Safe.ite (fun _ => rfl) fun heven => safe_pairs _ (not_not.1 heven)

end Access

end TagReader
