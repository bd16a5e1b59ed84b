/-
# What the macros accept

Every macro that asks the reader one question checks its arguments first.  This file says which
arguments it accepts (`MifareOperation.Valid`), and that this and the length of the command decide
whether a frame is sent.

* `Guarded`: a dialogue that asks exactly one question if a condition holds, and otherwise fails on
  the spot.  It is closed under the checks and the steps of which the macros are made, so that the
  conditions on the way are collected by walking over the macro (`MifareOperation.guarded_talk`).
* `MifareOperation.valid_delegate`: the macros for user data pass arguments on to another macro, and
  those that they have computed are valid there.

The main result is `MifareOperation.validates_exactly`.
-/
import Mathlib.Algebra.Group.Nat.Defs
import TagReader.Proofs.Framing
import TagReader.Proofs.Overrun
import TagReader.Proofs.Questions

namespace TagReader

variable {σ α β : Type}

/-- An exchange whose command fits sends its frame, once and once more for every retry. -/
lemma Transmits.of_encode {t : Trailer} {retries : Nat} {x : Exchange} {frames : List Bytes}
    {frame : Bytes} (h : Transmits t retries [x] frames) (hf : Frame.encode t x.body = .ok frame) :
    ∃ n ≤ x.call.bound.getD retries, frames = List.replicate (n + 1) frame := by
  obtain ⟨n, n_le, later, rfl, hlater⟩ := h.cons_of_encode hf
  rw [hlater.eq_nil, List.append_nil]
  exact ⟨n, n_le, rfl⟩

/-! ## Dialogues that ask one question -/

/-- After notes, if any, the dialogue asks one question, fails with the fault of its answer, and
makes of a payload what `r` does. -/
inductive AsksOnce (q : Call) (r : Bytes → Except Fault α) : Talk α → Prop where
  | note (n : Note) {d : Talk α} (next : AsksOnce q r d) : AsksOnce q r (.note n d)
  | ask {k : Except Fault Bytes → Talk α} (fault : ∀ f, k (.error f) = .fail f)
    (payload : ∀ p, k (.ok p) = Dialogue.ofExcept (r p)) : AsksOnce q r (.ask q k)

namespace AsksOnce

variable {q : Call} {r : Bytes → Except Fault α} {d : Talk α}

lemma require (q : Call) (r : Bytes → Except Fault α) :
    AsksOnce q r (Dialogue.require q >>= fun p => Dialogue.ofExcept (r p)) :=
  .ask (fun _ => rfl) fun _ => rfl

lemma map (h : AsksOnce q r d) (g : α → β) :
    AsksOnce q (fun p => (r p).map g) (d >>= fun a => pure (g a)) := by
  induction h with
  | note n _ ih => exact .note n ih
  | @ask k fault payload =>
    refine .ask (fun f => ?_) fun p => ?_
    · show (k (.error f)).andThen _ = _
      rw [fault]
      rfl
    · show (k (.ok p)).andThen _ = _
      rw [payload]
      cases r p <;> rfl

/-- What comes of the one exchange. -/
lemma conduct (h : AsksOnce q r d) (e : Engine σ) (s : σ) :
    (e.conduct d s).result = (e.serve q s).result >>= r ∧
      (e.conduct d s).state = (e.serve q s).state ∧
      e.exchanges d s = [⟨q, (e.serve q s).result⟩] := by
  induction h with
  | note n _ ih =>
    rw [Engine.result_conduct_note, Engine.state_conduct_note, Engine.exchanges_note]
    exact ih
  | @ask k fault payload =>
    rw [Engine.result_conduct_ask, Engine.state_conduct_ask, Engine.exchanges_ask]
    cases (e.serve q s).result with
    | error f =>
      rw [fault]
      exact ⟨rfl, rfl, rfl⟩
    | ok p =>
      rw [payload]
      show _ = r p ∧ _
      cases r p <;> exact ⟨rfl, rfl, rfl⟩

/-- An operation with such a dialogue yields what is made of the answer, and sends what the question
takes. -/
lemma perform {r : Bytes → Except Fault Finding} {d : Talk Finding} (h : AsksOnce q r d)
    (op : Operation) (b : Iso14443b.Session) (htalk : op.talk b = d >>= fun a => pure (a, b))
    (e : Engine σ) (s : σ) :
    (op.perform e b s).1.result = (e.serve q s).result >>= r ∧
      ∃ answer, Transmits e.trailer e.settings.retries [⟨q, answer⟩]
        (op.perform e.recorded b { inner := s }).1.state.frames := by
  obtain ⟨hresult, -, hexchanges⟩ := h.conduct e s
  constructor
  · rw [(op.perform_spec e b s).1, htalk, (e.conduct_map d (fun a => (a, b)) s).1, ← hresult]
    cases (e.conduct d s).result <;> rfl
  · have hsent := e.transmits_perform op b s
    rw [htalk, e.exchanges_map d (fun a => (a, b)) s, hexchanges] at hsent
    exact ⟨_, hsent⟩

end AsksOnce

/-- If the condition holds, the dialogue asks one question, and otherwise it fails on the spot. -/
structure Guarded (P : Prop) (q : Call) (r : Bytes → Except Fault α) (d : Talk α) : Prop where
  asks : P → AsksOnce q r d
  fails : ¬P → ∃ text, d = .fail (.validation text)

namespace Guarded

variable {P : Prop} {q : Call} {r : Bytes → Except Fault α} {d : Talk α}

lemma always (h : AsksOnce q r d) : Guarded True q r d :=
  ⟨fun _ => h, fun hnot => absurd trivial hnot⟩

lemma congr {P' : Prop} (h : Guarded P q r d) (hiff : P ↔ P') : Guarded P' q r d := by
  rwa [← propext hiff]

lemma map (h : Guarded P q r d) (g : α → β) :
    Guarded P q (fun p => (r p).map g) (d >>= fun a => pure (g a)) := by
  refine ⟨fun hP => (h.asks hP).map g, fun hP => ?_⟩
  obtain ⟨text, rfl⟩ := h.fails hP
  exact ⟨text, rfl⟩

/-- A check in front adds to the condition. -/
lemma check {c : Prop} [Decidable c] {text : String} {g : β → Talk α} (h : Guarded P q r d) :
    Guarded (¬c ∧ P) q r
      (if c then (Dialogue.fail (.validation text) : Talk β) >>= g else d) := by
  by_cases hc : c
  · rw [if_pos hc]
    exact ⟨fun hall => absurd hc hall.1, fun _ => ⟨text, rfl⟩⟩
  · rw [if_neg hc]
    exact h.congr ⟨fun hP => ⟨hc, hP⟩, And.right⟩

end Guarded

/-! ## Checks -/

namespace Mifare

section Checks

variable {P : Prop} {q : Call} {r : Bytes → Except Fault α} {f : Unit → Talk α}

/-- A range of pages is not empty and lies on an Ultralight C tag. -/
def PagesValid (first n : UInt8) : Prop := 1 ≤ n.toNat ∧ first.toNat + n.toNat ≤ 48

lemma guarded_ensurePages (first n : UInt8) (h : Guarded P q r (f ())) :
    Guarded (PagesValid first n ∧ P) q r (ensurePages first n >>= f) := by
  have hzero : n = 0 ↔ n.toNat = 0 := UInt8.toNat_inj.symm
  have hvalid : PagesValid first n ↔ ¬(n = 0 ∨ ultralightCPages < first.toNat + n.toNat) := by
    unfold PagesValid ultralightCPages
    rw [hzero]
    omega
  rw [hvalid]
  unfold ensurePages
  dsimp only
  split
  · rename_i hbad
    exact ⟨fun hall => absurd hbad hall.1, fun _ => ⟨_, rfl⟩⟩
  · rename_i hgood
    exact h.congr ⟨fun hP => ⟨hgood, hP⟩, And.right⟩

lemma ensureUserData_bind {kind : String} {limit : Nat} {data : Bytes} (hpos : 1 ≤ data.length)
    (hle : data.length ≤ limit) (f : Unit → Talk α) :
    ensureUserData kind limit data >>= f = f () := by
  have hsome : ¬data.isEmpty = true := by
    rw [List.isEmpty_iff, ← List.length_eq_zero_iff]
    omega
  unfold ensureUserData
  rw [if_neg hsome, if_neg (Nat.not_lt.2 hle)]
  rfl

lemma guarded_ensureUserData (kind : String) (limit : Nat) (data : Bytes)
    (h : Guarded P q r (f ())) :
    Guarded ((1 ≤ data.length ∧ data.length ≤ limit) ∧ P) q r
      (ensureUserData kind limit data >>= f) := by
  by_cases hsize : 1 ≤ data.length ∧ data.length ≤ limit
  · rw [ensureUserData_bind hsize.1 hsize.2]
    exact h.congr ⟨fun hP => ⟨hsize, hP⟩, And.right⟩
  · refine ⟨fun hall => absurd hall.1 hsize, fun _ => ?_⟩
    unfold ensureUserData
    by_cases he : data.isEmpty = true
    · rw [if_pos he]
      exact ⟨_, rfl⟩
    · have hl : limit < data.length := by
        rw [List.isEmpty_iff, ← List.length_eq_zero_iff] at he
        omega
      rw [if_neg he, if_pos hl]
      exact ⟨_, rfl⟩

end Checks

/-! ## Pages of user data -/

/-- The mask of the first pages of user data chooses these. -/
lemma chosen_userMask : ∀ n ≤ 12, chosen 16 (userMask n).toNat = List.range' 4 n := by decide

lemma userMask_ne_zero {n : Nat} (hpos : 1 ≤ n) (hle : n ≤ 12) : userMask n ≠ 0 := by
  intro hzero
  have hchosen := congrArg List.length (chosen_userMask n hle)
  rw [hzero, List.length_range'] at hchosen
  have hnone : (chosen 16 (0 : UInt16).toNat).length = 0 := by decide
  omega

lemma length_padded (data : Bytes) : (padded data).length = 4 * pagesFor data.length :=
  (Bytes.length_fit _ _).trans (Nat.mul_comm _ _)

lemma pagesFor_pos {size : Nat} (h : 1 ≤ size) : 1 ≤ pagesFor size := by
  unfold pagesFor pageSize
  omega

lemma pagesFor_le {size n : Nat} (h : size ≤ 4 * n) : pagesFor size ≤ n := by
  unfold pagesFor pageSize
  omega

/-- The mask and the data that are written to an Ultralight tag for user data go together. -/
lemma userData_matches {data : Bytes} (hpos : 1 ≤ data.length) (hle : data.length ≤ 48) :
    userMask (pagesFor data.length) ≠ 0 ∧
      (padded data).length = 4 * count 16 (userMask (pagesFor data.length)).toNat := by
  have hpages := pagesFor_le (n := 12) hle
  refine ⟨userMask_ne_zero (pagesFor_pos hpos) hpages, ?_⟩
  rw [length_padded, count, chosen_userMask _ hpages, List.length_range']

lemma toNat_pagesFor {size : Nat} (h : size ≤ 144) :
    (UInt8.ofNat (pagesFor size)).toNat = pagesFor size := by
  have hle := pagesFor_le (n := 36) h
  rw [UInt8.toNat_ofNat']
  omega

/-- So do the range and the data that are written to an Ultralight C tag. -/
lemma userDataC_matches {data : Bytes} (hpos : 1 ≤ data.length) (hle : data.length ≤ 144) :
    PagesValid 4 (UInt8.ofNat (pagesFor data.length)) ∧
      (padded data).length = 4 * (UInt8.ofNat (pagesFor data.length)).toNat := by
  have hpages := pagesFor_le (n := 36) hle
  have hsome := pagesFor_pos hpos
  show (1 ≤ _ ∧ 4 + _ ≤ 48) ∧ _ = 4 * _
  rw [toNat_pagesFor hle, length_padded]
  exact ⟨⟨hsome, by omega⟩, rfl⟩

/-! ## The macros -/

lemma guarded_readUltralight (offset len : Nat) :
    Guarded (offset + len ≤ 64) ⟨Request.readUltralight.command, none⟩
      (Payload.slice · offset len) (readUltralight offset len) :=
  (Guarded.always (.require _ _)).check.congr (by simp [ultralightSize])

lemma guarded_readUltralightC (first n : UInt8) (options : Options) :
    Guarded (PagesValid first n) ⟨(Request.readUltralightC options first n).command, none⟩
      (Payload.slice · 0 (n.toNat * pageSize)) (readUltralightC first n options) :=
  (guarded_ensurePages first n (.always (.require _ _))).congr (and_iff_left trivial)

lemma guarded_writeUltralight (data : Bytes) (mask : UInt16) :
    Guarded (mask ≠ 0 ∧ data.length = 4 * count 16 mask.toNat)
      ⟨(Request.writeUltralight mask data).command, none⟩ writtenUid
      (writeUltralight data mask) :=
  (Guarded.always (.require _ _)).check.check.congr (by simp [pageSize, Nat.mul_comm])

lemma guarded_writeUltralightC (data : Bytes) (first n : UInt8) (options : Options) :
    Guarded (PagesValid first n ∧ data.length = 4 * n.toNat)
      ⟨(Request.writeUltralightC options first n data).command, none⟩ writtenUid
      (writeUltralightC data first n options) :=
  (guarded_ensurePages first n (Guarded.always (.require _ _)).check).congr
    (by simp [pageSize, Nat.mul_comm])

lemma guarded_writeUltralightUserData (data : Bytes) :
    Guarded (1 ≤ data.length ∧ data.length ≤ 48)
      ⟨(Request.writeUltralight (userMask (pagesFor data.length)) (padded data)).command, none⟩
      writtenUid (writeUltralightUserData data) := by
  have hchecks := guarded_ensureUserData "ultralight" ultralightUserSize data
    (f := fun _ => writeUltralight (padded data) (userMask (pagesFor data.length)))
    (guarded_writeUltralight _ _)
  exact hchecks.congr (and_iff_left_of_imp fun h => userData_matches h.1 h.2)

lemma guarded_writeUltralightCUserData (data : Bytes) :
    Guarded (1 ≤ data.length ∧ data.length ≤ 144)
      ⟨(Request.writeUltralightC userOptions 4 (UInt8.ofNat (pagesFor data.length))
        (padded data)).command, none⟩
      writtenUid (writeUltralightCUserData data) := by
  have hchecks := guarded_ensureUserData "ultralight c" ultralightCUserSize data
    (f := fun _ => writeUltralightC (padded data) 4 (UInt8.ofNat (pagesFor data.length))
      userOptions)
    (guarded_writeUltralightC _ _ _ _)
  exact hchecks.congr (and_iff_left_of_imp fun h => userDataC_matches h.1 h.2)

lemma guarded_readSector (sector : UInt8) (auth : SectorAuth) (mask : UInt16) :
    Guarded True ⟨(Request.readSector sector auth mask).command, some sectorRetries⟩
      (Payload.prefixed · 0) (readSector sector auth mask) :=
  .always (.note _ (.require _ _))

lemma guarded_writeSector (data : Bytes) (sector : UInt8) (auth : SectorAuth) (mask : UInt16) :
    Guarded (data.length = 16 * count 16 mask.toNat)
      ⟨(Request.writeSector sector auth mask data).command, some sectorRetries⟩ writtenUid
      (writeSector data sector auth mask) := by
  have hwrite : AsksOnce _ writtenUid _ :=
    .note ⟨.debug, sectorText "write" sector auth mask⟩ (.require
      ⟨(Request.writeSector sector auth mask data).command, some sectorRetries⟩ writtenUid)
  exact (Guarded.always hwrite).check.congr (by simp [blockSize, Nat.mul_comm])

lemma guarded_writeTrailers (mask : UInt64) (trailers : List (Octets 16)) :
    Guarded (mask.toNat < 2 ^ 40 ∧ count 64 mask.toNat = trailers.length)
      ⟨(Request.writeTrailers mask trailers).command, some sectorRetries⟩ writtenUid
      (writeTrailers mask trailers) :=
  (Guarded.always (.require _ _)).check.check.congr (by simp [maxSectors, Nat.shiftLeft_eq])

end Mifare

namespace MifareOperation

/-- The arguments that an operation accepts. -/
def Valid : MifareOperation → Prop
  | readUltralight offset len => offset + len ≤ 64
  | readUltralightAll | readUltralightUserData | readUltralightCUserData => True
  | readUltralightC first n _ => Mifare.PagesValid first n
  | writeUltralight data mask => mask ≠ 0 ∧ data.length = 4 * Mifare.count 16 mask.toNat
  | writeUltralightUserData data => 1 ≤ data.length ∧ data.length ≤ 48
  | writeUltralightC data first n _ => Mifare.PagesValid first n ∧ data.length = 4 * n.toNat
  | writeUltralightCUserData data => 1 ≤ data.length ∧ data.length ≤ 144
  | readSector _ _ _ => True
  | writeSector data _ _ mask => data.length = 16 * Mifare.count 16 mask.toNat
  | writeTrailers mask trailers =>
    mask.toNat < 2 ^ 40 ∧ Mifare.count 64 mask.toNat = trailers.length
  | authenticateUltralightC key _ => key.length = 16

/-- The operation to which one for all bytes or for user data passes its arguments on; any other
does its work itself. -/
def delegate : MifareOperation → MifareOperation
  | readUltralightAll => readUltralight 0 64
  | readUltralightUserData => readUltralight 16 48
  | readUltralightCUserData => readUltralightC 4 36 Mifare.userOptions
  | writeUltralightUserData data =>
    writeUltralight (Mifare.padded data) (Mifare.userMask (Mifare.pagesFor data.length))
  | writeUltralightCUserData data =>
    writeUltralightC (Mifare.padded data) 4 (UInt8.ofNat (Mifare.pagesFor data.length))
      Mifare.userOptions
  | op => op

/-- The one question that a macro asks.  The authentication of an Ultralight C tag is no macro of
the reader; it takes several questions. -/
def call? (op : MifareOperation) : Option Call :=
  match op.delegate with
  | readUltralight _ _ => some ⟨Mifare.Request.readUltralight.command, none⟩
  | readUltralightC first n options =>
    some ⟨(Mifare.Request.readUltralightC options first n).command, none⟩
  | writeUltralight data mask => some ⟨(Mifare.Request.writeUltralight mask data).command, none⟩
  | writeUltralightC data first n options =>
    some ⟨(Mifare.Request.writeUltralightC options first n data).command, none⟩
  | readSector sector auth mask =>
    some ⟨(Mifare.Request.readSector sector auth mask).command, some Mifare.sectorRetries⟩
  | writeSector data sector auth mask =>
    some ⟨(Mifare.Request.writeSector sector auth mask data).command, some Mifare.sectorRetries⟩
  | writeTrailers mask trailers =>
    some ⟨(Mifare.Request.writeTrailers mask trailers).command, some Mifare.sectorRetries⟩
  | _ => none

/-- The checks of the operation to which arguments are passed on find nothing. -/
lemma valid_delegate {op : MifareOperation} (h : op.Valid) : op.delegate.Valid := by
  cases op with
  | readUltralightAll => exact Nat.le_refl 64
  | readUltralightUserData => exact Nat.le_refl 64
  | readUltralightCUserData => exact ⟨by decide, by decide⟩
  | writeUltralightUserData data => exact Mifare.userData_matches h.1 h.2
  | writeUltralightCUserData data => exact Mifare.userDataC_matches h.1 h.2
  | _ => exact h

/-- A macro asks its question if its arguments are valid, and otherwise fails on the spot. -/
lemma guarded_talk {op : MifareOperation} {q : Call} (h : op.call? = some q) :
    ∃ r, Guarded op.Valid q r op.talk := by
  cases op
  case authenticateUltralightC key nonce => cases h
  all_goals obtain rfl := Option.some.inj h
  case readUltralight offset len => exact ⟨_, (Mifare.guarded_readUltralight offset len).map _⟩
  case readUltralightAll =>
    have hwhole := Mifare.guarded_readUltralight 0 64
    exact ⟨_, (hwhole.congr (iff_true_intro (Nat.le_refl 64))).map _⟩
  case readUltralightUserData =>
    have huser := Mifare.guarded_readUltralight 16 48
    exact ⟨_, (huser.congr (iff_true_intro (Nat.le_refl 64))).map _⟩
  case readUltralightC first n options =>
    exact ⟨_, (Mifare.guarded_readUltralightC first n options).map _⟩
  case readUltralightCUserData =>
    have huser := Mifare.guarded_readUltralightC 4 36 Mifare.userOptions
    exact ⟨_, (huser.congr (iff_true_intro ⟨by decide, by decide⟩)).map _⟩
  case writeUltralight data mask => exact ⟨_, (Mifare.guarded_writeUltralight data mask).map _⟩
  case writeUltralightUserData data =>
    exact ⟨_, (Mifare.guarded_writeUltralightUserData data).map _⟩
  case writeUltralightC data first n options =>
    exact ⟨_, (Mifare.guarded_writeUltralightC data first n options).map _⟩
  case writeUltralightCUserData data =>
    exact ⟨_, (Mifare.guarded_writeUltralightCUserData data).map _⟩
  case readSector sector auth mask =>
    exact ⟨_, (Mifare.guarded_readSector sector auth mask).map _⟩
  case writeSector data sector auth mask =>
    exact ⟨_, (Mifare.guarded_writeSector data sector auth mask).map _⟩
  case writeTrailers mask trailers =>
    exact ⟨_, (Mifare.guarded_writeTrailers mask trailers).map _⟩

/-- With valid arguments an operation does what the one does to which it passes them on. -/
lemma talk_delegate {op : MifareOperation} (h : op.Valid) : op.talk = op.delegate.talk := by
  cases op with
  | writeUltralightUserData data =>
    exact congrArg (Talk.find .uid)
      (Mifare.ensureUserData_bind h.1 h.2 fun _ => Mifare.writeUltralight _ _)
  | writeUltralightCUserData data =>
    exact congrArg (Talk.find .uid)
      (Mifare.ensureUserData_bind h.1 h.2 fun _ => Mifare.writeUltralightC _ _ _ _)
  | _ => rfl

end MifareOperation

/-! ## Readers that grant everything -/

/-- Every frame is sent, and answered by a reply of status zero. -/
structure Link.Grants (l : Link σ) (t : Trailer) : Prop where
  send : ∀ frame s, (l.send frame s).result = .ok ()
  receive : ∀ frame ms s, ∃ raw reply,
    (l.receive ms (l.send frame s).state).result = .ok raw ∧ Frame.decode t raw = .ok reply ∧
      reply.status = 0

namespace Engine

variable {e : Engine σ}

/-- A reply decides its exchange at once. -/
lemma serve_of_reply {q : Call} {frame : Bytes} {s : σ} {reply : Reply}
    (hf : Frame.encode e.trailer q.command.body = .ok frame)
    (h : (e.attempt frame s).result = .ok reply) :
    (e.serve q s).result = judge (.ok reply) ∧ (e.serve q s).state = (e.attempt frame s).state := by
  have hsettled : endsTransient (e.attempt frame s).result = false := by
    rw [h]
    rfl
  rw [serve_of_encode hf, ← h]
  exact attempts_settled q.command _ _ hsettled

/-- Such a reader is asked once. -/
lemma serve_granted (hl : e.link.Grants e.trailer) {q : Call} {frame : Bytes}
    (hf : Frame.encode e.trailer q.command.body = .ok frame) {t : Recorded σ} {s : σ}
    (hst : t.Shows s) :
    (∃ p, (e.recorded.serve q t).result = .ok p) ∧
      (e.recorded.serve q t).state.frames = t.frames ++ [frame] := by
  obtain ⟨raw, reply, hraw, hreply, hstatus⟩ := hl.receive frame e.settings.timeoutMs s
  have hattempt : (e.recorded.attempt frame t).result = .ok reply := by
    rw [(e.recorded_corresponds.attempt _ frame hf hst).1, result_attempt,
      (converse_answered (hl.send frame s) hraw).1, hreply]
  obtain ⟨hresult, hstate⟩ := serve_of_reply (e := e.recorded) hf hattempt
  refine ⟨⟨reply.payload, ?_⟩, ?_⟩
  · rw [hresult, judge, Reply.isSuccess, hstatus]
    rfl
  · rw [hstate, e.frames_attempt]

/-- An engine whose reader answers everything by a success and one payload. -/
def granting (payload : Bytes) : Engine Unit where
  link := Link.constant
    (Frame.closed .standard (UInt8.ofNat (7 + payload.length) :: 0 :: 0 :: 0 :: 0 :: payload))

section Granting

variable {payload : Bytes} (h : payload.length ≤ 248)
include h

lemma decode_granting :
    Frame.decode (granting payload).trailer
        (Frame.closed .standard (UInt8.ofNat (7 + payload.length) :: 0 :: 0 :: 0 :: 0 :: payload)) =
      .ok ⟨Octets.fill 3 0, 0, payload⟩ := by
  have hlen : (⟨Octets.fill 3 0, 0, payload⟩ : Reply).body.length = 4 + payload.length :=
    Reply.length_body _
  have htrailer : Trailer.standard.len = 2 := rfl
  have htotal : 1 + (4 + payload.length) + 2 = 7 + payload.length := by omega
  show Frame.decode .standard _ = _
  rw [Frame.decode_eq_ok_iff, Frame.encode_of_fits]
  · rw [hlen, htrailer, htotal]
    rfl
  · unfold Frame.Fits Frame.maxLength
    rw [hlen, htrailer]
    omega

lemma grants_granting : (granting payload).link.Grants (granting payload).trailer :=
  ⟨fun _ _ => rfl, fun _ _ _ => ⟨_, _, rfl, decode_granting h, rfl⟩⟩

lemma serve_granting {q : Call} (hfits : Frame.Fits (granting payload).trailer q.command.body) :
    ((granting payload).serve q ()).result = .ok payload := by
  have hattempt (frame : Bytes) : ((granting payload).attempt frame ()).result =
      .ok ⟨Octets.fill 3 0, 0, payload⟩ := by
    rw [result_attempt]
    exact (converse_answered rfl rfl).1.trans (decode_granting h)
  exact (serve_of_reply (Frame.encode_of_fits hfits) (hattempt _)).1

end Granting

end Engine

/-! ## Frames and refusals -/

namespace MifareOperation

variable {op : MifareOperation} {q : Call}

/-- Performing a macro is conducting its dialogue; the session has no part in it. -/
lemma refused_perform_iff (op : MifareOperation) (e : Engine σ) (b : Iso14443b.Session) (s : σ) :
    (Refused ((Operation.mifare op).perform e b s).1.result ↔
        Refused (e.conduct op.talk s).result) ∧
      ((Operation.mifare op).perform e b s).1.state = (e.conduct op.talk s).state := by
  obtain ⟨hresult, hstate⟩ := (Operation.mifare op).perform_spec e b s
  obtain ⟨hmap, hsame⟩ := e.conduct_map op.talk (fun a => (a, b)) s
  refine ⟨?_, hstate.trans hsame⟩
  rw [hresult]
  show Refused (Except.map _ (e.conduct (op.talk >>= fun a => pure (a, b)) s).result) ↔ _
  rw [hmap]
  cases (e.conduct op.talk s).result with
  | ok finding => exact iff_of_false (not_refused_ok _) (not_refused_ok _)
  | error f => exact ⟨Refused.of_error, Refused.of_error⟩

/-- What is not valid, or does not fit, is refused before the link is used. -/
lemma refused_conduct (h : op.call? = some q) (e : Engine σ) (s : σ)
    (hnot : ¬(op.Valid ∧ Frame.Fits e.trailer q.command.body)) :
    Refused (e.conduct op.talk s).result ∧ (e.conduct op.talk s).state = s := by
  obtain ⟨r, hguarded⟩ := guarded_talk h
  by_cases hvalid : op.Valid
  · obtain ⟨text, hserve⟩ := Engine.serve_of_not_fits (e := e) fun hf => hnot ⟨hvalid, hf⟩
    obtain ⟨hresult, hstate, -⟩ := (hguarded.asks hvalid).conduct e s
    rw [hresult, hstate, (hserve s).1, (hserve s).2]
    exact ⟨⟨text, rfl⟩, rfl⟩
  · obtain ⟨text, hfail⟩ := hguarded.fails hvalid
    rw [hfail]
    exact ⟨⟨text, rfl⟩, rfl⟩

/-- A macro whose question is answered by a payload is not refused. -/
lemma not_refused_conduct (h : op.call? = some q) (hvalid : op.Valid) {e : Engine σ} {s : σ}
    {p : Bytes} (hp : (e.serve q s).result = .ok p) : ¬Refused (e.conduct op.talk s).result := by
  obtain ⟨r, hguarded⟩ := guarded_talk h
  obtain ⟨-, -, hexchanges⟩ := (hguarded.asks hvalid).conduct e s
  have hanswered : Engine.answeredLast (e.exchanges op.talk s) false = true := by
    rw [hexchanges, hp]
    rfl
  have hnot : ∀ key nonce, op ≠ authenticateUltralightC key nonce := by
    rintro key nonce rfl
    cases h
  rintro ⟨text, ht⟩
  have hmalformed := Engine.fault_of_abides (op.abides_talk hnot) s hanswered ht
  cases hmalformed

/-- With valid arguments a macro sends what its one question takes. -/
lemma transmits_of_valid (h : op.call? = some q) (hvalid : op.Valid) (e : Engine σ)
    (b : Iso14443b.Session) (s : σ) :
    ∃ answer, Transmits e.trailer e.settings.retries [⟨q, answer⟩]
      ((Operation.mifare op).perform e.recorded b { inner := s }).1.state.frames := by
  obtain ⟨r, hguarded⟩ := guarded_talk h
  exact ((hguarded.asks hvalid).perform (.mifare op) b rfl e s).2

/-- **The macros validate exactly.**  Over any link and under any trailer, a macro sends a frame if
and only if its arguments are valid and its command fits a frame.  Otherwise it is refused, and the
link is not used.  What is sent is one and the same frame, once and once more for every retry; to a
reader that grants everything it is sent once, and the macro is not refused.  A macro that passes on
arguments to another one, such as those for user data, has valid ones for that if its own are valid,
and then does what that does; so no check of the other one refuses them. -/
theorem validates_exactly (h : op.call? = some q) (e : Engine σ) (b : Iso14443b.Session) (s : σ) :
    let run := (Operation.mifare op).perform e.recorded b { inner := s }
    (run.1.state.frames ≠ [] ↔ op.Valid ∧ Frame.Fits e.trailer q.command.body) ∧
      (¬(op.Valid ∧ Frame.Fits e.trailer q.command.body) →
        Refused run.1.result ∧ run.1.state = { inner := s }) ∧
      (op.Valid ∧ Frame.Fits e.trailer q.command.body →
        ∃ frame, Frame.encode e.trailer q.command.body = .ok frame ∧
          (∃ n ≤ q.bound.getD e.settings.retries,
            run.1.state.frames = List.replicate (n + 1) frame) ∧
          (e.link.Grants e.trailer → run.1.state.frames = [frame] ∧ ¬Refused run.1.result)) ∧
      (op.Valid → op.delegate.Valid ∧ op.talk = op.delegate.talk) := by
  intro run
  obtain ⟨hresult, hstate⟩ := refused_perform_iff op e.recorded b { inner := s }
  have hrefused : ¬(op.Valid ∧ Frame.Fits e.trailer q.command.body) →
      Refused run.1.result ∧ run.1.state = { inner := s } := by
    intro hnot
    obtain ⟨hr, hs⟩ := refused_conduct h e.recorded { inner := s } hnot
    exact ⟨hresult.2 hr, hstate.trans hs⟩
  have hsent : op.Valid ∧ Frame.Fits e.trailer q.command.body →
      ∃ frame, Frame.encode e.trailer q.command.body = .ok frame ∧
        (∃ n ≤ q.bound.getD e.settings.retries,
          run.1.state.frames = List.replicate (n + 1) frame) ∧
        (e.link.Grants e.trailer → run.1.state.frames = [frame] ∧ ¬Refused run.1.result) := by
    rintro ⟨hvalid, hfits⟩
    have hencode := Frame.encode_of_fits hfits
    obtain ⟨r, hguarded⟩ := guarded_talk h
    obtain ⟨-, hserved, -⟩ := (hguarded.asks hvalid).conduct e.recorded { inner := s }
    have hframes := congrArg Recorded.frames (hstate.trans hserved)
    obtain ⟨answer, hsent⟩ := transmits_of_valid h hvalid e b s
    refine ⟨_, hencode, hsent.of_encode hencode, fun hl => ?_⟩
    obtain ⟨⟨p, hp⟩, honce⟩ :=
      Engine.serve_granted hl hencode (t := { inner := s }) (s := s) ⟨rfl, rfl, rfl⟩
    exact ⟨hframes.trans honce, fun hr => not_refused_conduct h hvalid hp (hresult.1 hr)⟩
  refine ⟨⟨fun hframes => ?_, fun hall => ?_⟩, hrefused, hsent,
    fun hvalid => ⟨valid_delegate hvalid, talk_delegate hvalid⟩⟩
  · by_contra hnot
    have hunused : run.1.state = { inner := s } := (hrefused hnot).2
    rw [hunused] at hframes
    exact hframes rfl
  · obtain ⟨frame, -, ⟨n, -, hframes⟩, -⟩ := hsent hall
    rw [hframes]
    exact List.cons_ne_nil _ _

/-- One byte of user data is padded to a page and written by one frame. -/
theorem validates_exactly_userData :
    let op : MifareOperation := .writeUltralightUserData [0xAA]
    let c : Command := (Mifare.Request.writeUltralight 0x10 [0xAA, 0x00, 0x00, 0x00]).command
    let p : Bytes := [0x04, 0x01, 0x02, 0x03, 0x04]
    let t := (Engine.granting p).trailer
    let run := (Operation.mifare op).perform (Engine.granting p).recorded {} { inner := () }
    op.call? = some ⟨c, none⟩ ∧ (Engine.granting p).link.Grants t ∧
      run.1.state.frames =
        [Frame.closed t [0x0B, 0x04, 0x21, 0x10, 0x00, 0xAA, 0x00, 0x00, 0x00]] ∧
      ¬Refused run.1.result := by
  intro op c p t
  have hcall : op.call? = some ⟨c, none⟩ := by decide
  have hfits : Frame.Fits t c.body := by decide
  have hl : (Engine.granting p).link.Grants t := Engine.grants_granting (by decide)
  obtain ⟨-, -, hsent, -⟩ := validates_exactly hcall (Engine.granting p) {} ()
  obtain ⟨frame, hencode, -, hgranted⟩ := hsent ⟨⟨by decide, by decide⟩, hfits⟩
  have hdata : UInt8.ofNat (1 + c.body.length + t.len) :: c.body =
      [0x0B, 0x04, 0x21, 0x10, 0x00, 0xAA, 0x00, 0x00, 0x00] := by decide
  have hframe := Frame.encode_of_fits hfits
  rw [hdata] at hframe
  obtain rfl := Except.ok.inj (hframe.symm.trans hencode)
  exact ⟨hcall, hl, hgranted hl⟩

end MifareOperation
end TagReader
