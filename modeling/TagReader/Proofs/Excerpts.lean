/-
# Bytes at their place

Some operations ask for so many bytes: a block, pages, a range of an Ultralight tag, the blocks of a
tag of ST, a status byte for each block, the first bytes of an identifier.  `Operation.place?` says
where these stand in the payload of the reply.  An operation that asks for bytes yields exactly
those, and a payload that does not reach so far is an error (`Operation.cutsOut_of_place`): no short
reply passes for a full one.

Together with the readings by place this bounds every decoder, `Operation.reads_within_bounds`.
-/
import TagReader.Proofs.Bounds

namespace TagReader

variable {σ α β : Type}

/-! ## Cutting bytes out -/

/-- Bytes from a place on: exactly these, or the payload is too short. -/
def CutsAt (i k : Nat) (p : Bytes) (r : Except Fault Bytes) : Prop :=
  r = if i + k ≤ p.length then .ok ((p.drop i).take k) else .error (.invalidLength (i + k) p.length)

namespace Payload

variable (p : Bytes) (i k : Nat)

lemma cutsAt_slice : CutsAt i k p (slice p i k) := by
  unfold CutsAt
  by_cases h : i + k ≤ p.length
  · rw [if_pos h]
    exact slice_eq_ok_iff.2 ⟨h, rfl⟩
  · rw [if_neg h]
    exact Access.slice_of_short (Nat.not_le.1 h)

lemma cutsAt_octets : CutsAt i k p ((octets k p i).map Octets.bytes) := by
  unfold CutsAt octets
  by_cases h : i + k ≤ p.length
  · rw [dif_pos h, if_pos h]
    rfl
  · rw [dif_neg h, if_neg h]
    rfl

end Payload

/-- Blocks stand behind the byte that gives their size. -/
lemma Iso14443b.cutsAt_decodeBlocks (n : UInt8) (p : Bytes) :
    CutsAt 1 ((p.headD 0).toNat * n.toNat) p (decodeBlocks n p) := by
  match p with
  | [] =>
    show CutsAt 1 (0 * n.toNat) [] _
    rw [Nat.zero_mul]
    rfl
  | size :: rest => exact Payload.cutsAt_slice (size :: rest) 1 (size.toNat * n.toNat)

/-- Where the check byte of an identifier follows and disagrees, that is an error of its own. -/
lemma Iso14443a.cutsAt_decodeAnticollision (p : Bytes) :
    CutsAt 0 4 p ((decodeAnticollision p).map Octets.bytes) ∨
      4 < p.length ∧ ∃ text, (decodeAnticollision p).map Octets.bytes = .error (.format text) := by
  have hcuts := Payload.cutsAt_octets p 0 4
  unfold decodeAnticollision
  cases ho : Payload.octets 4 p 0 with
  | error f =>
    rw [ho] at hcuts
    exact .inl hcuts
  | ok uid =>
    rw [ho] at hcuts
    cases hb : p[4]? with
    | none => exact .inl hcuts
    | some bcc =>
      by_cases hcheck : bcc ≠ checkByte uid
      · refine .inr ⟨(List.getElem?_eq_some_iff.1 hb).1, ?_⟩
        show ∃ text, Except.map _ (if bcc ≠ checkByte uid then _ else _) = _
        rw [if_pos hcheck]
        exact ⟨_, rfl⟩
      · refine .inl ?_
        show CutsAt 0 4 p (Except.map _ (if _ then _ else _))
        rw [if_neg hcheck]
        exact hcuts

/-! ## Dialogues that fetch something -/

/-- The dialogue is refused, or asks one question and makes of the payload what `r` does. -/
inductive Fetches (r : Bytes → Except Fault α) : Talk α → Prop where
  | refused (f : Fault) : Fetches r (.fail f)
  | asked (q : Call) {k : Except Fault Bytes → Talk α} (fault : ∀ f, k (.error f) = .fail f)
    (payload : ∀ p, k (.ok p) = Dialogue.ofExcept (r p)) : Fetches r (.ask q k)

namespace Fetches

variable {r : Bytes → Except Fault α} {d : Talk α}

lemma map (h : Fetches r d) (g : α → β) :
    Fetches (fun p => (r p).map g) (d >>= fun a => pure (g a)) := by
  cases h with
  | refused f => exact .refused f
  | @asked q k fault payload =>
    refine .asked q (fun f => ?_) fun p => ?_
    · show (k (.error f)).andThen _ = _
      rw [fault]
      rfl
    · show (k (.ok p)).andThen _ = _
      rw [payload]
      cases r p <;> rfl

/-- Of octets the bytes are what is found. -/
lemma octets {n : Nat} {r : Bytes → Except Fault (Octets n)} {d : Talk (Octets n)}
    (h : Fetches r d) :
    Fetches (fun p => ((r p).map Octets.bytes).map Finding.bytes)
      (d.find fun o => .bytes o.bytes) := by
  have hsame : (fun p => ((r p).map Octets.bytes).map Finding.bytes) =
      fun p => (r p).map fun o => .bytes o.bytes := by
    funext p
    cases r p <;> rfl
  rw [hsame]
  exact h.map _

lemma decode (c : Command) (r : Bytes → Except Fault α) :
    Fetches r (do let p ← Talk.exchange c; Dialogue.ofExcept (r p)) :=
  .asked _ (fun _ => rfl) fun _ => rfl

lemma check {c : Prop} [Decidable c] {f : Fault} {g : β → Talk α} (h : Fetches r d) :
    Fetches r (if c then (Dialogue.fail f : Talk β) >>= g else d) := by
  by_cases hc : c
  · rw [if_pos hc]
    exact .refused f
  · rw [if_neg hc]
    exact h

/-- A value that must be right is checked before anything is asked. -/
lemma ofExcept {x : Except Fault β} {g : β → Talk α} (h : ∀ b, Fetches r (g b)) :
    Fetches r ((Dialogue.ofExcept x : Talk β) >>= g) := by
  rcases x with f | b
  · exact .refused f
  · exact h b

/-- What comes of the one exchange. -/
lemma result_conduct (h : Fetches r d) (e : Engine σ) (s : σ) :
    e.exchanges d s = [] ∧ (∃ f, (e.conduct d s).result = .error f) ∨
      ∃ x, e.exchanges d s = [x] ∧ (e.conduct d s).result = x.answer >>= r := by
  cases h with
  | refused f => exact .inl ⟨rfl, f, rfl⟩
  | asked q fault payload =>
    refine .inr ⟨⟨q, (e.serve q s).result⟩, ?_, ?_⟩
    · rw [Engine.exchanges_ask]
      rcases (e.serve q s).result with f | p
      · rw [fault]
        rfl
      · rw [payload]
        cases r p <;> rfl
    · rw [Engine.result_conduct_ask]
      rcases (e.serve q s).result with f | p
      · rw [fault]
        rfl
      · rw [payload]
        show _ = r p
        cases r p <;> rfl

end Fetches

/-! ## The operations that ask for bytes -/

namespace Operation

/-- Where the bytes that an operation asks for stand in the payload: from which place on, and how
many they are. -/
def place? : Operation → Option (Bytes → Nat × Nat)
  | iso14443a (.readBlock _) => some fun _ => (0, 16)
  | iso14443a .anticollision => some fun _ => (0, 4)
  | iso14443b (.read _ n) => some fun p => (1, (p.headD 0).toNat * n.toNat)
  | icode (.blockStatus _ _ n) => some fun _ => (0, n.toNat)
  | mifare (.readUltralight offset len) => some fun _ => (offset, len)
  | mifare .readUltralightAll => some fun _ => (0, 64)
  | mifare .readUltralightUserData => some fun _ => (16, 48)
  | mifare (.readUltralightC _ n _) => some fun _ => (0, n.toNat * 4)
  | mifare .readUltralightCUserData => some fun _ => (0, 144)
  | _ => none

/-- The bytes at the place of an operation, or an error; a check byte may be wrong. -/
def Cuts (op : Operation) (i k : Nat) (p : Bytes) (r : Except Fault Bytes) : Prop :=
  CutsAt i k p r ∨ op = .iso14443a .anticollision ∧ 4 < p.length ∧ ∃ text, r = .error (.format text)

variable {op : Operation} {place : Bytes → Nat × Nat}

/-- An operation that asks for bytes asks one question and cuts them out of the payload. -/
lemma fetches_talk (h : op.place? = some place) (b : Iso14443b.Session) :
    ∃ r : Bytes → Except Fault Bytes,
      Fetches (fun p => ((r p).map Finding.bytes).map (·, b)) (op.talk b) ∧
        ∀ p, op.Cuts (place p).1 (place p).2 p (r p) := by
  cases op with
  | iso14443a op =>
    cases op with
    | readBlock block =>
      obtain rfl := Option.some.inj h
      exact ⟨_, (Fetches.decode _ _).octets.map _, fun p => .inl (Payload.cutsAt_octets p 0 16)⟩
    | anticollision =>
      obtain rfl := Option.some.inj h
      refine ⟨_, (Fetches.decode _ Iso14443a.decodeAnticollision).octets.map _, fun p => ?_⟩
      exact (Iso14443a.cutsAt_decodeAnticollision p).imp_right fun hcheck => ⟨rfl, hcheck⟩
    | _ => cases h
  | iso14443b op =>
    cases op with
    | read first n =>
      obtain rfl := Option.some.inj h
      exact ⟨_, ((Fetches.decode _ _).map _).map _,
        fun p => .inl (Iso14443b.cutsAt_decodeBlocks n p)⟩
    | _ => cases h
  | icode op =>
    cases op with
    | blockStatus uid first n =>
      obtain rfl := Option.some.inj h
      exact ⟨_, ((Fetches.ofExcept fun tag => .decode _ _).map _).map _,
        fun p => .inl (Payload.cutsAt_slice p 0 n.toNat)⟩
    | _ => cases h
  | mifare op =>
    have hrange (offset len : Nat) : Fetches (Payload.slice · offset len)
        (Mifare.readUltralight offset len) := .check (.decode _ _)
    have hpages (first n : UInt8) (options : Mifare.Options) :
        Fetches (Payload.slice · 0 (n.toNat * 4)) (Mifare.readUltralightC first n options) := by
      unfold Mifare.readUltralightC Mifare.ensurePages
      dsimp only
      split
      · exact .refused _
      · exact .decode _ _
    cases op with
    | readUltralight offset len =>
      obtain rfl := Option.some.inj h
      exact ⟨_, ((hrange offset len).map _).map _, fun p => .inl (Payload.cutsAt_slice p _ _)⟩
    | readUltralightAll =>
      obtain rfl := Option.some.inj h
      exact ⟨_, ((hrange 0 64).map _).map _, fun p => .inl (Payload.cutsAt_slice p _ _)⟩
    | readUltralightUserData =>
      obtain rfl := Option.some.inj h
      exact ⟨_, ((hrange 16 48).map _).map _, fun p => .inl (Payload.cutsAt_slice p _ _)⟩
    | readUltralightC first n options =>
      obtain rfl := Option.some.inj h
      exact ⟨_, ((hpages first n options).map _).map _,
        fun p => .inl (Payload.cutsAt_slice p _ _)⟩
    | readUltralightCUserData =>
      obtain rfl := Option.some.inj h
      exact ⟨_, ((hpages 4 36 Mifare.userOptions).map _).map _,
        fun p => .inl (Payload.cutsAt_slice p _ _)⟩
    | _ => cases h
  | _ => cases h

/-- An operation that asks for bytes is refused before it asks anything, or fails as its one
exchange does, or cuts the bytes at their place out of the payload. -/
def CutsOut (op : Operation) (place : Bytes → Nat × Nat) (e : Engine σ) (b : Iso14443b.Session)
    (s : σ) : Prop :=
  e.exchanges (op.talk b) s = [] ∧ (∃ f, (op.perform e b s).1.result = .error f) ∨
    ∃ x, e.exchanges (op.talk b) s = [x] ∧
      (∀ f, x.answer = .error f → (op.perform e b s).1.result = .error f) ∧
      ∀ p, x.answer = .ok p → ∃ r, op.Cuts (place p).1 (place p).2 p r ∧
        (op.perform e b s).1.result = r.map .bytes

/-- No short payload passes for a full one. -/
lemma cutsOut_of_place (h : op.place? = some place) (e : Engine σ) (b : Iso14443b.Session) (s : σ) :
    op.CutsOut place e b s := by
  obtain ⟨r, hfetches, hcuts⟩ := fetches_talk h b
  unfold CutsOut
  rw [(op.perform_spec e b s).1]
  rcases hfetches.result_conduct e s with ⟨hnone, f, hf⟩ | ⟨x, hx, hresult⟩
  · rw [hf]
    exact .inl ⟨hnone, f, rfl⟩
  · refine .inr ⟨x, hx, fun f hf => ?_, fun p hp => ⟨r p, hcuts p, ?_⟩⟩
    · rw [hresult, hf]
      rfl
    · rw [hresult, hp]
      show Except.map _ (((r p).map _).map _) = _
      cases r p <;> rfl

open Access in
/-- **No decoder reads out of bounds, and no short reply passes for a full one.**  Followed place by
place, the readings of payloads, the readings of frames under any trailer, every decoder and every
operation touch no place outside, and yield what the library yields, whatever the bytes are.  An
operation that fails after a payload complains that it is malformed, or wraps that complaint.  An
operation that asks for bytes yields exactly those at their place in the payload, or an error. -/
theorem reads_within_bounds :
    (∀ (p : Bytes) (i : Nat), Safe (byte p i) (Payload.byte p i) ∧
      Safe (word16 p i) (Payload.word16 p i) ∧ Safe (prefixed p i) (Payload.prefixed p i) ∧
      (∀ len, Safe (slice p i len) (Payload.slice p i len)) ∧
      ∀ n, Safe (octets p n i) (Payload.octets n p i)) ∧
    (∀ (t : Trailer) (frame : Bytes), Safe (decode t frame) (Frame.decode t frame) ∧
      Safe (decodeCommand t frame) (Frame.decodeCommand t frame)) ∧
    (∀ p : Bytes, Safe (systemInformation p) (SystemInformation.decode p) ∧
      Safe (atqb p) (Atqb.ofBytes p) ∧ Safe (target p) (Target.ofReport p) ∧
      Safe (firmwareVersion p) (FirmwareVersion.ofBytes p) ∧
      Safe (access p) (Classic.SectorAccess.ofBits p) ∧
      Safe (valueBlock p) (Classic.ValueBlock.decode p)) ∧
    (∀ a : Atqa, Safe (uidLength a) a.uidLength) ∧
    (∀ block : Octets 16, Safe (sectorTrailer block) (Classic.SectorTrailer.decode block)) ∧
    (∀ text : String, Safe (hex (text.toList.flatMap String.utf8EncodeChar)) (Hex.parse text)) ∧
    (∀ (op : Operation) (b : Iso14443b.Session), Probing.Sound (op.probing b) (op.talk b)) ∧
    ∀ {σ : Type} (e : Engine σ) (op : Operation) (b : Iso14443b.Session) (s : σ),
      (Engine.answeredLast (e.exchanges (op.talk b) s) false = true →
        ∀ f, (op.perform e b s).1.result = .error f → op.Complains f) ∧
      ∀ place, op.place? = some place → op.CutsOut place e b s := by
  refine ⟨fun p i => ⟨safe_byte p i, safe_word16 p i, safe_prefixed p i, safe_slice p i,
    fun n => safe_octets p n i⟩, fun t frame => ⟨safe_decode t frame, safe_decodeCommand t frame⟩,
    fun p => ⟨safe_systemInformation p, safe_atqb p, safe_target p, safe_firmwareVersion p,
      safe_access p, safe_valueBlock p⟩, safe_uidLength, safe_sectorTrailer, fun text => safe_hex _,
    fun op b => op.sound_probing b, fun e op b s => ⟨fun ha f hf => ?_, fun place h => ?_⟩⟩
  · exact op.complains_of_answered s ha hf
  · exact cutsOut_of_place h e b s

end Operation

end TagReader
