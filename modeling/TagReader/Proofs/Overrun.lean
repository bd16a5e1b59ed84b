/-
# Which operations are refused late

The theory of `TagReader.Proofs.Refusal` applied to the operations of the library.  All but four
of them refuse early: their checks come first, they ask one question, and what they make of its
answer is never a refusal.  The other four ask a second question:

* authentication of a Classic block loads the key before the identifier goes out;
* presenting a password asks for a random number first;
* a write to a tag of ST falls back to the other block size, which may be the larger one;
* the identifier of a tag of ST is looked for by a short command and then by a longer one.

Where the first frame fits and the second does not, the refusal comes after the link has been
used.  `Operation.refusedLate_iff` gives the exact conditions.
-/
import TagReader.Proofs.Refusal

namespace TagReader

variable {σ α β : Type}

open Dialogue (RefusesEarly NeverRefuses)

/-! ## The ways of asking -/

namespace Talk

lemma refusesEarly_require (q : Call) : (Dialogue.require q : Talk Bytes).RefusesEarly := by
  intro r
  refine ⟨fun _ => ?_, Dialogue.neverRefuses_ofExcept⟩
  rcases r with f | p <;> trivial

lemma refusesEarly_exchange (c : Command) : (exchange c).RefusesEarly := refusesEarly_require _

lemma refusesEarly_exchangeWithin (bound : Nat) (c : Command) :
    (exchangeWithin bound c).RefusesEarly := refusesEarly_require _

lemma refusesEarly_order (c : Command) : (order c).RefusesEarly :=
  (refusesEarly_exchange c).bind fun _ => trivial

lemma refusesEarly_exchangeOptional (c : Command) : (exchangeOptional c).RefusesEarly := by
  intro r
  rcases r with f | p
  · cases f with
    | validation text => exact ⟨fun _ => trivial, fun h => absurd ⟨text, rfl⟩ h⟩
    | readerStatus code => exact ⟨fun _ => trivial, fun _ => trivial⟩
    | _ => exact ⟨fun _ => trivial, fun _ => by simp [NeverRefuses]⟩
  · exact ⟨fun _ => trivial, fun _ => trivial⟩

lemma asks_exchangeOptional (c : Command) : (exchangeOptional c).Asks := by
  rintro _ ⟨text, rfl⟩
  trivial

lemma neverRefuses_decode {r : Except Fault α} (h : OnlyMalformed r) :
    (Dialogue.ofExcept r : Talk α).NeverRefuses :=
  Dialogue.neverRefuses_ofExcept h.not_refused

/-- The answer to a question may be decoded. -/
lemma refusesEarly_decode {t : Talk Bytes} (h : t.RefusesEarly) {decode : Bytes → Except Fault α}
    (hd : ∀ p, OnlyMalformed (decode p)) :
    (do let p ← t; Dialogue.ofExcept (decode p) : Talk α).RefusesEarly :=
  h.bind fun p => neverRefuses_decode (hd p)

lemma neverRefuses_decoded {decode : Bytes → Except Fault α} (h : ∀ p, OnlyMalformed (decode p))
    (p : Option Bytes) : (decoded decode p).NeverRefuses := by
  rcases p with _ | p
  · trivial
  · exact (neverRefuses_decode (h p)).bind fun _ => trivial

lemma refusesEarly_find {t : Talk α} (h : t.RefusesEarly) (f : α → Finding) :
    (t.find f).RefusesEarly :=
  h.bind fun _ => trivial

lemma refusesEarly_findOption {t : Talk (Option α)} (h : t.RefusesEarly) (f : α → Finding) :
    (t.findOption f).RefusesEarly :=
  refusesEarly_find h _

lemma refusesEarly_finish {t : Talk Unit} (h : t.RefusesEarly) : t.finish.RefusesEarly :=
  refusesEarly_find h _

end Talk

open Talk

/-! ## Operations that refuse early -/

namespace Reader

lemma neverRefuses_versionBytes : versionBytes.NeverRefuses := by
  rintro (f | p)
  · simp [NeverRefuses]
  · trivial

lemma neverRefuses_version : version.NeverRefuses := by
  refine neverRefuses_versionBytes.bind fun raw => ?_
  rcases FirmwareVersion.ofBytes raw with f | v
  · simp [NeverRefuses]
  · trivial

lemma neverRefuses_probe : probe.NeverRefuses :=
  neverRefuses_version.bind fun _ => trivial

lemma refusesEarly_serial : serial.RefusesEarly := by
  refine (refusesEarly_exchange _).bind fun p => ?_
  cases p.isEmpty with
  | true => simp [NeverRefuses]
  | false => trivial

end Reader

lemma ReaderOperation.refusesEarly_talk (op : ReaderOperation) : op.talk.RefusesEarly := by
  cases op with
  | exchange c => exact refusesEarly_find (refusesEarly_exchange c) _
  | exchangeOptional c => exact refusesEarly_findOption (refusesEarly_exchangeOptional c) _
  | exchangeWithin c bound => exact refusesEarly_find (refusesEarly_exchangeWithin bound c) _
  | exchangeBytes body =>
    exact refusesEarly_find (Dialogue.refusesEarly_check fun c => refusesEarly_exchange c) _
  | versionBytes => exact refusesEarly_find Reader.neverRefuses_versionBytes.refusesEarly _
  | version => exact refusesEarly_find Reader.neverRefuses_version.refusesEarly _
  | probe => exact refusesEarly_find Reader.neverRefuses_probe.refusesEarly _
  | serial => exact refusesEarly_find Reader.refusesEarly_serial _

namespace Iso14443a

lemma refusesEarly_activate (c : Command) :
    (exchangeOptional c >>= decoded Target.ofReport).RefusesEarly :=
  (refusesEarly_exchangeOptional c).bind (neverRefuses_decoded Target.onlyMalformed_ofReport)

lemma refusesEarly_showCards : showCards.RefusesEarly := by
  refine (refusesEarly_exchangeOptional _).bind fun p => ?_
  rcases p with _ | p
  · trivial
  · exact neverRefuses_decode (TagList.onlyMalformed_decode p)

lemma refusesEarly_wupA : wupA.RefusesEarly := by
  refine (refusesEarly_exchangeOptional _).bind (neverRefuses_decoded fun p => ?_)
  exact (Payload.onlyMalformed_slice p 0 2).bind Atqa.onlyMalformed_ofBytes

lemma refusesEarly_writeBlock (data : Bytes) (block : UInt8) :
    (writeBlock data block).RefusesEarly := by
  unfold writeBlock
  rcases Octets.ofBytes? 16 data with _ | d
  · trivial
  · exact refusesEarly_order _

lemma refusesEarly_writePage (data : Bytes) (page : UInt8) :
    (writePage data page).RefusesEarly := by
  unfold writePage
  rcases Octets.ofBytes? 4 data with _ | d
  · trivial
  · exact refusesEarly_order _

lemma refusesEarly_loadKey (source : KeySource) : (loadKey source).RefusesEarly := by
  cases source with
  | explicit key => exact refusesEarly_order _
  | stored slot => exact refusesEarly_order _

lemma refusesEarly_passThrough (layer : Layer) (message : Bytes) :
    (passThrough layer message).RefusesEarly := by
  unfold passThrough
  by_cases h : message.length < 256
  · rw [dif_pos h]
    exact refusesEarly_decode (refusesEarly_exchange _) fun p =>
      Payload.onlyMalformed_prefixed p 0
  · rw [dif_neg h]
    trivial

end Iso14443a

/-- The handshake turns every fault of the channel into one of its own. -/
lemma UltralightC.neverRefuses_handshake (c : BlockCipher) (nonce : Block) :
    (handshake c nonce).NeverRefuses := by
  rintro (f | answer)
  · simp [NeverRefuses]
  · dsimp only
    split
    · simp [NeverRefuses]
    · rintro (f | answer')
      · simp [NeverRefuses]
      · dsimp only [judge]
        split
        · trivial
        · split
          · simp [NeverRefuses]
          · trivial

lemma Iso14443a.neverRefuses_authenticateUltralightC (s : UltralightC.Session) (nonce : Block) :
    (authenticateUltralightC s nonce).NeverRefuses :=
  (UltralightC.neverRefuses_handshake _ nonce).expand _

namespace Iso14443b

lemma refusesEarly_select (b : Session) : b.select.RefusesEarly := by
  refine (refusesEarly_exchangeOptional _).bind fun p => ?_
  refine (neverRefuses_decoded (fun p => Payload.onlyMalformed_byte p 0) p).bind fun chip => ?_
  rcases chip with _ | chip <;> trivial

lemma refusesEarly_protect (b : Session) (lock : UInt8) : (b.protect lock).RefusesEarly := by
  unfold Session.protect
  rcases b.chip with _ | chip
  · trivial
  · exact refusesEarly_order _

lemma refusesEarly_getUid : getUid.RefusesEarly :=
  (refusesEarly_exchangeOptional _).bind <| neverRefuses_decoded fun p =>
    (Payload.onlyMalformed_prefixed p 0).bind fun _ => .ok _

end Iso14443b

lemma Iso15693.refusesEarly_inventory : inventory.RefusesEarly := by
  refine (refusesEarly_exchangeOptional _).bind fun p => ?_
  rcases p with _ | p
  · trivial
  · exact neverRefuses_decode (TagList.onlyMalformed_decodeFixed p)

lemma Iso15693Operation.refusesEarly_talk (op : Iso15693Operation) : op.talk.RefusesEarly := by
  cases op with
  | inventory => exact refusesEarly_find Iso15693.refusesEarly_inventory _
  | stayQuiet uid =>
    exact refusesEarly_finish (Dialogue.refusesEarly_check fun tag => refusesEarly_order _)
  | readBlock uid block =>
    exact refusesEarly_find (Dialogue.refusesEarly_check fun tag => refusesEarly_exchange _) _
  | writeBlock uid block data =>
    refine refusesEarly_finish (RefusesEarly.unless ?_)
    exact Dialogue.refusesEarly_check fun tag => refusesEarly_order _
  | lockBlock uid block =>
    exact refusesEarly_finish (Dialogue.refusesEarly_check fun tag => refusesEarly_order _)
  | readBlocks uid first n =>
    refine refusesEarly_find (RefusesEarly.unless ?_) _
    exact Dialogue.refusesEarly_check fun tag => refusesEarly_exchange _
  | systemInformation uid =>
    refine refusesEarly_find (Dialogue.refusesEarly_check fun tag => ?_) _
    exact refusesEarly_decode (refusesEarly_exchange _) fun p =>
      SystemInformation.onlyMalformed_decode p

namespace Icode

/-- An identifier cannot be an address, or it is one. -/
lemma addressing_cases (uid : Option Uid) :
    (∃ f, addressing uid = .fail f) ∨
      ∃ tag, addressing uid = .done tag ∧ tag.isSome = uid.isSome := by
  rcases uid with _ | uid
  · exact .inr ⟨none, rfl, rfl⟩
  · have hbind : addressing (some uid) =
        (Dialogue.ofExcept (Iso15693.address uid) >>= fun a => pure (some a)) := rfl
    rw [hbind]
    rcases Iso15693.address uid with f | tag
    · exact .inl ⟨f, rfl⟩
    · exact .inr ⟨some tag, rfl, rfl⟩

lemma refusesEarly_addressing {f : Option Iso15693.Address → Talk α} (uid : Option Uid)
    (hf : ∀ tag, (f tag).RefusesEarly) : (addressing uid >>= f).RefusesEarly := by
  rcases addressing_cases uid with ⟨g, hg⟩ | ⟨tag, htag, -⟩
  · rw [hg]
    trivial
  · rw [htag]
    exact hf tag

lemma refusesEarly_password {f : Octets 4 → Talk α} (pwd : Bytes)
    (hf : ∀ p, (f p).RefusesEarly) : (password pwd >>= f).RefusesEarly := by
  unfold password
  rcases Octets.ofBytes? 4 pwd with _ | p
  · trivial
  · exact hf p

lemma refusesEarly_randomOctets (tag : Option Iso15693.Address) :
    (randomOctets tag).RefusesEarly :=
  refusesEarly_decode (refusesEarly_exchange _) fun p => Payload.onlyMalformed_octets 2 p 0

end Icode

lemma PicopassOperation.refusesEarly_talk (op : PicopassOperation) : op.talk.RefusesEarly := by
  have huid : Picopass.getUid.RefusesEarly :=
    (refusesEarly_exchangeOptional _).bind <| neverRefuses_decoded fun p =>
      (Payload.onlyMalformed_prefixed p 0).bind fun _ => .ok _
  cases op with
  | getUid => exact refusesEarly_findOption huid _
  | cards =>
    have hcards : Picopass.cards.RefusesEarly := huid.bind fun _ => trivial
    exact refusesEarly_find hcards _

namespace Mifare

lemma refusesEarly_writeUltralight (data : Bytes) (mask : UInt16) :
    (writeUltralight data mask).RefusesEarly := by
  refine RefusesEarly.unless (RefusesEarly.unless ?_)
  exact refusesEarly_decode (refusesEarly_exchange _) onlyMalformed_writtenUid

lemma refusesEarly_ensureUserData {f : Unit → Talk α} (kind : String) (limit : Nat) (data : Bytes)
    (hf : (f ()).RefusesEarly) : (ensureUserData kind limit data >>= f).RefusesEarly := by
  unfold ensureUserData
  by_cases he : data.isEmpty = true
  · rw [if_pos he]
    trivial
  · rw [if_neg he]
    by_cases hl : limit < data.length
    · rw [if_pos hl]
      trivial
    · rw [if_neg hl]
      exact hf

lemma refusesEarly_ensurePages {f : Unit → Talk α} (first n : UInt8) (hf : (f ()).RefusesEarly) :
    (ensurePages first n >>= f).RefusesEarly := by
  unfold ensurePages
  dsimp only
  split
  · trivial
  · exact hf

lemma refusesEarly_readUltralight (offset len : Nat) :
    (readUltralight offset len).RefusesEarly := by
  refine RefusesEarly.unless ?_
  exact refusesEarly_decode (refusesEarly_exchange _) fun p =>
    Payload.onlyMalformed_slice p _ _

lemma refusesEarly_readUltralightC (first n : UInt8) (options : Options) :
    (readUltralightC first n options).RefusesEarly := by
  refine refusesEarly_ensurePages first n ?_
  exact refusesEarly_decode (refusesEarly_exchange _) fun p =>
    Payload.onlyMalformed_slice p _ _

lemma refusesEarly_writeUltralightC (data : Bytes) (first n : UInt8) (options : Options) :
    (writeUltralightC data first n options).RefusesEarly := by
  refine refusesEarly_ensurePages first n (RefusesEarly.unless ?_)
  exact refusesEarly_decode (refusesEarly_exchange _) onlyMalformed_writtenUid

end Mifare

lemma MifareOperation.refusesEarly_talk (op : MifareOperation) : op.talk.RefusesEarly := by
  cases op with
  | readUltralight offset len =>
    exact refusesEarly_find (Mifare.refusesEarly_readUltralight offset len) _
  | readUltralightAll => exact refusesEarly_find (Mifare.refusesEarly_readUltralight _ _) _
  | readUltralightUserData => exact refusesEarly_find (Mifare.refusesEarly_readUltralight _ _) _
  | readUltralightC first n options =>
    exact refusesEarly_find (Mifare.refusesEarly_readUltralightC first n options) _
  | readUltralightCUserData =>
    exact refusesEarly_find (Mifare.refusesEarly_readUltralightC _ _ _) _
  | writeUltralight data mask =>
    exact refusesEarly_find (Mifare.refusesEarly_writeUltralight data mask) _
  | writeUltralightUserData data =>
    exact refusesEarly_find (Mifare.refusesEarly_ensureUserData _ _ data
      (Mifare.refusesEarly_writeUltralight _ _)) _
  | writeUltralightC data first n options =>
    exact refusesEarly_find (Mifare.refusesEarly_writeUltralightC data first n options) _
  | writeUltralightCUserData data =>
    exact refusesEarly_find (Mifare.refusesEarly_ensureUserData _ _ data
      (Mifare.refusesEarly_writeUltralightC _ _ _ _)) _
  | readSector sector auth mask =>
    have hread : (Mifare.readSector sector auth mask).RefusesEarly :=
      refusesEarly_decode
        (refusesEarly_exchangeWithin Mifare.sectorRetries
          (Mifare.Request.readSector sector auth mask).command)
        fun p => Payload.onlyMalformed_prefixed p 0
    exact refusesEarly_find hread _
  | writeSector data sector auth mask =>
    refine refusesEarly_find (RefusesEarly.unless ?_) _
    exact refusesEarly_decode
      (refusesEarly_exchangeWithin Mifare.sectorRetries
        (Mifare.Request.writeSector sector auth mask data).command)
      Mifare.onlyMalformed_writtenUid
  | writeTrailers mask trailers =>
    refine refusesEarly_find (RefusesEarly.unless (RefusesEarly.unless ?_)) _
    exact refusesEarly_decode (refusesEarly_exchangeWithin _ _) Mifare.onlyMalformed_writtenUid
  | authenticateUltralightC key nonce =>
    refine refusesEarly_find (Dialogue.refusesEarly_check fun s => ?_) _
    exact (Iso14443a.neverRefuses_authenticateUltralightC s nonce).refusesEarly

lemma Iso14443aOperation.refusesEarly_talk (op : Iso14443aOperation)
    (h : ∀ side uid source block, op ≠ .authenticate side uid source block) :
    op.talk.RefusesEarly := by
  cases op with
  | authenticate side uid source block => exact absurd rfl (h side uid source block)
  | activateIdle => exact refusesEarly_findOption (Iso14443a.refusesEarly_activate _) _
  | activateWakeup uid => exact refusesEarly_findOption (Iso14443a.refusesEarly_activate _) _
  | showCards => exact refusesEarly_find Iso14443a.refusesEarly_showCards _
  | readBlock block =>
    have hread : (Iso14443a.readBlock block).RefusesEarly :=
      refusesEarly_decode (refusesEarly_exchange _) fun p =>
        Payload.onlyMalformed_octets 16 p 0
    exact refusesEarly_find hread _
  | writeBlock data block =>
    exact refusesEarly_finish (Iso14443a.refusesEarly_writeBlock data block)
  | writePage data page => exact refusesEarly_finish (Iso14443a.refusesEarly_writePage data page)
  | changeValue change amount block store => exact refusesEarly_finish (refusesEarly_order _)
  | transfer block => exact refusesEarly_finish (refusesEarly_order _)
  | halt => exact refusesEarly_finish (refusesEarly_order _)
  | loadKey source => exact refusesEarly_finish (Iso14443a.refusesEarly_loadKey source)
  | storeKey slot key => exact refusesEarly_finish (refusesEarly_order _)
  | reqA =>
    have hreq : Iso14443a.reqA.RefusesEarly :=
      (refusesEarly_exchangeOptional _).bind fun _ => trivial
    exact refusesEarly_find hreq _
  | wupA => exact refusesEarly_findOption Iso14443a.refusesEarly_wupA _
  | anticollision =>
    have hanti : Iso14443a.anticollision.RefusesEarly :=
      refusesEarly_decode (refusesEarly_exchange _) fun p =>
        Iso14443a.onlyMalformed_decodeAnticollision p
    exact refusesEarly_find hanti _
  | select uid =>
    have hselect : (Iso14443a.select uid).RefusesEarly :=
      refusesEarly_decode (refusesEarly_exchange _) fun p => Payload.onlyMalformed_byte p 0
    exact refusesEarly_find hselect _
  | rats =>
    have hrats : Iso14443a.rats.RefusesEarly :=
      refusesEarly_decode (refusesEarly_exchange _) fun p =>
        Iso14443a.onlyMalformed_decodeAts p
    exact refusesEarly_find hrats _
  | passThrough layer message =>
    exact refusesEarly_find (Iso14443a.refusesEarly_passThrough layer message) _
  | authenticateUltralightC session nonce =>
    exact refusesEarly_find
      (Iso14443a.neverRefuses_authenticateUltralightC session nonce).refusesEarly _

lemma Iso14443bOperation.refusesEarly_talk (op : Iso14443bOperation) (b : Iso14443b.Session)
    (hw : ∀ first n data, op ≠ .write first n data) (hu : op ≠ .readUid) :
    (op.talk b).RefusesEarly := by
  cases op with
  | write first n data => exact absurd rfl (hw first n data)
  | readUid => exact absurd rfl hu
  | reqB family =>
    have hreq : (Iso14443b.reqB family).RefusesEarly :=
      (refusesEarly_exchangeOptional _).bind (neverRefuses_decoded Atqb.onlyMalformed_ofBytes)
    exact (refusesEarly_findOption hreq _).bind fun _ => trivial
  | select => exact (Iso14443b.refusesEarly_select b).bind fun _ => trivial
  | read first n =>
    have hread : (Iso14443b.read first n).RefusesEarly :=
      refusesEarly_decode (refusesEarly_exchange _) fun p =>
        Iso14443b.onlyMalformed_decodeBlocks n p
    exact (refusesEarly_find hread _).bind fun _ => trivial
  | getUid => exact (refusesEarly_findOption Iso14443b.refusesEarly_getUid _).bind fun _ => trivial
  | completion => exact (refusesEarly_finish (refusesEarly_order _)).bind fun _ => trivial
  | protect lock =>
    exact (refusesEarly_finish (Iso14443b.refusesEarly_protect b lock)).bind fun _ => trivial
  | protection =>
    have hprot : Iso14443b.protection.RefusesEarly :=
      refusesEarly_decode (refusesEarly_exchange _) fun p => Payload.onlyMalformed_byte p 1
    exact (refusesEarly_find hprot _).bind fun _ => trivial

lemma IcodeOperation.refusesEarly_talk (op : IcodeOperation)
    (h : ∀ uid id pwd, op ≠ .setPassword uid id pwd) : op.talk.RefusesEarly := by
  cases op with
  | setPassword uid id pwd => exact absurd rfl (h uid id pwd)
  | randomNumber uid =>
    refine refusesEarly_find (Icode.refusesEarly_addressing uid fun tag => ?_) _
    exact (Icode.refusesEarly_randomOctets tag).bind fun _ => trivial
  | writePassword uid id pwd =>
    refine refusesEarly_finish (Icode.refusesEarly_password pwd fun p => ?_)
    exact Dialogue.refusesEarly_check fun tag => refusesEarly_order _
  | lockPassword uid id =>
    exact refusesEarly_finish (Dialogue.refusesEarly_check fun tag => refusesEarly_order _)
  | joinPasswords uid =>
    exact refusesEarly_finish (Dialogue.refusesEarly_check fun tag => refusesEarly_order _)
  | protectPage uid page protection =>
    exact refusesEarly_finish (Dialogue.refusesEarly_check fun tag => refusesEarly_order _)
  | lockPage uid page =>
    exact refusesEarly_finish (Dialogue.refusesEarly_check fun tag => refusesEarly_order _)
  | blockStatus uid first n =>
    refine refusesEarly_find (Dialogue.refusesEarly_check fun tag => ?_) _
    exact refusesEarly_decode (refusesEarly_exchange _) fun p =>
      Payload.onlyMalformed_slice p 0 n.toNat
  | destroy uid =>
    exact refusesEarly_finish (Dialogue.refusesEarly_check fun tag => refusesEarly_order _)
  | hide uid =>
    exact refusesEarly_finish (Dialogue.refusesEarly_check fun tag => refusesEarly_order _)

/-! ## Operations that may be refused late -/

namespace Engine

variable {e : Engine σ}

lemma not_fits_iff {t : Trailer} {c : Command} :
    ¬Frame.Fits t c.body ↔ Frame.maxLength < 3 + c.params.length + t.len := by
  unfold Frame.Fits
  rw [Nat.not_le, Command.length_body]
  omega

lemma refused_order_iff (hl : e.link.Obliging) (c : Command) (s : σ) :
    Refused (e.conduct (order c) s).result ↔
      Frame.maxLength < 3 + c.params.length + e.trailer.len :=
  (refused_ask_iff hl (fun _ => rfl) (refusesEarly_order c) s).trans not_fits_iff

lemma fits_of_serve {q : Call} {s : σ} (h : ¬Refused (e.serve q s).result) :
    Frame.Fits e.trailer q.command.body := by
  by_contra hf
  obtain ⟨text, ht⟩ := serve_of_not_fits hf
  exact h ⟨text, (ht s).1⟩

/-- A question of which only a failure matters. -/
lemma refusesEarly_settle (q : Call) (a : α) :
    (.ask q fun
      | .ok _ => .done a
      | .error f => .fail f : Talk α).RefusesEarly := by
  rintro (f | p)
  · exact ⟨fun _ => trivial, fun h text ht => h ⟨text, congrArg Except.error ht⟩⟩
  · exact ⟨fun _ => trivial, fun _ => trivial⟩

variable (hl : e.link.Obliging)
include hl

/-- An authentication is refused late where the key is loaded and the identifier is too long. -/
lemma refusesLate_authenticate (side : KeySide) (uid : Uid) (source : KeySource) (block : UInt8)
    (s : σ) :
    e.RefusesLate (Iso14443a.authenticate side uid source block) s ↔
      (e.conduct (Iso14443a.loadKey source) s).result = .ok () ∧
        Frame.maxLength < 4 + uid.bytes.length + e.trailer.len := by
  have hasks : (Iso14443a.loadKey source).Asks := by
    cases source <;> exact (Dialogue.asks_require _).bind _
  have hlen : (Iso14443a.Request.authenticate side block uid).command.params.length =
      1 + uid.bytes.length := by
    cases side <;> exact Nat.add_comm _ _
  unfold Iso14443a.authenticate
  rw [refusesLate_bind hl (Iso14443a.refusesEarly_loadKey source) hasks]
  have hsecond : ∀ s', Refused (e.conduct (do
      Dialogue.say .debug (s!"authenticate block {block.toNat} of " ++ uid.display ++ " with " ++
        side.label)
      order (Iso14443a.Request.authenticate side block uid).command) s').result ↔
      Frame.maxLength < 4 + uid.bytes.length + e.trailer.len := by
    intro s'
    show Refused (e.conduct (.note _ (order _)) s').result ↔ _
    rw [result_conduct_note, refused_order_iff hl, hlen]
    omega
  constructor
  · rintro ⟨⟨⟩, hload, hr⟩
    exact ⟨hload, (hsecond _).1 hr⟩
  · rintro ⟨hload, hlong⟩
    exact ⟨(), hload, (hsecond _).2 hlong⟩

/-- A write to a tag of ST is refused late where the reader refuses the first block size and
the data do not fit with the other one. -/
lemma refusesLate_write (b : Iso14443b.Session) (first n : UInt8) (data : Bytes) (s : σ) :
    e.RefusesLate (b.write first n data) s ↔
      (∃ status, (e.serve (Iso14443b.Session.writeCall first n b.size data) s).result =
        .error (.readerStatus status)) ∧
        Frame.maxLength < 7 + n.toNat * b.size.other.byte.toNat + e.trailer.len := by
  have hlen : (Iso14443b.Session.writeCall first n b.size.other data).command.params.length =
      4 + n.toNat * b.size.other.byte.toNat := by
    show (Iso14443b.Request.write first n b.size.other data).command.params.length = _
    simp [Iso14443b.Request.command, Iso14443b.commandSt, Command.byte, Command.bytes,
      Iso14443b.blockData]
    omega
  unfold Iso14443b.Session.write
  rw [refusesLate_ask fun _ => rfl]
  -- Only a status of the reader leads from the first question to the second one.
  cases hr : (e.serve (Iso14443b.Session.writeCall first n b.size data) s).result with
  | ok p => exact iff_of_false (fun h => not_refused_ok b h.2) (by simp)
  | error f =>
    by_cases hf : ∃ status, f = .readerStatus status
    · obtain ⟨status, rfl⟩ := hf
      have hfits := fits_of_serve (hr ▸ not_refused_error (by simp))
      have hsecond := refused_ask_iff hl (fun _ => rfl)
        (refusesEarly_settle (Iso14443b.Session.writeCall first n b.size.other data)
          { b with size := b.size.other })
        (e.serve (Iso14443b.Session.writeCall first n b.size data) s).state
      show Frame.Fits e.trailer _ ∧ Refused (e.conduct (.note _ (.ask _ _)) _).result ↔ _
      rw [result_conduct_note]
      refine (and_congr_right fun _ => hsecond.trans not_fits_iff).trans ?_
      rw [hlen]
      exact ⟨fun h => ⟨⟨status, rfl⟩, by omega⟩, fun h => ⟨hfits, by omega⟩⟩
    · refine iff_of_false ?_ fun ⟨⟨status, hs⟩, _⟩ => hf ⟨status, Except.error.inj hs⟩
      rintro ⟨hfits, hrefused⟩
      have hnot := not_refused_serve hl s hfits
      rw [hr] at hnot
      cases f with
      | readerStatus status => exact hf ⟨status, rfl⟩
      | _ => exact hnot hrefused.of_error

/-- The search for an identifier is refused late where there is none and the frame of a read,
which is two bytes longer, does not fit. -/
lemma refusesLate_readUid (s : σ) :
    e.RefusesLate Iso14443b.readUid s ↔
      (e.conduct Iso14443b.getUid s).result = .ok none ∧ Frame.maxLength < 6 + e.trailer.len := by
  have hasks : Iso14443b.getUid.Asks := (asks_exchangeOptional _).bind _
  unfold Iso14443b.readUid
  rw [refusesLate_bind hl Iso14443b.refusesEarly_getUid hasks]
  -- An identifier ends the search, so the fallback alone can be refused.
  have hnone : ∀ P : Option Uid → Prop, (∃ uid, P uid ∧ uid = none ∧
      Frame.maxLength < 6 + e.trailer.len) ↔ P none ∧ Frame.maxLength < 6 + e.trailer.len :=
    fun P => ⟨fun ⟨_, h, rfl, hlong⟩ => ⟨h, hlong⟩, fun ⟨h, hlong⟩ => ⟨none, h, rfl, hlong⟩⟩
  refine Iff.trans (exists_congr fun uid => and_congr_right fun _ => ?_) (hnone _)
  cases uid with
  | some uid => exact iff_of_false (not_refused_ok _) fun h => Option.some_ne_none uid h.1
  | none =>
    refine (refused_ask_iff hl (fun _ => rfl) ?_ _).trans (not_fits_iff.trans ?_)
    · rintro (f | p)
      · cases f with
        | readerStatus status => exact ⟨fun _ => trivial, fun _ => trivial⟩
        | validation text => exact ⟨fun _ => trivial, fun h => absurd ⟨text, rfl⟩ h⟩
        | _ => exact ⟨fun _ => trivial, fun _ => by simp [NeverRefuses]⟩
      · refine ⟨fun h => absurd h (not_refused_ok p), fun _ => ?_⟩
        exact (neverRefuses_decode (Iso14443b.onlyMalformed_decodeBlocks 4 p)).bind
          fun _ => trivial
    · exact (and_iff_right rfl).symm

/-- Presenting a password is refused late where the tag gives a random number and the longer
frame with the password does not fit. -/
lemma refusesLate_present (tag : Option Iso15693.Address) (id : Icode.PasswordId) (pwd : Octets 4)
    (s : σ) :
    e.RefusesLate (do
      let number ← Icode.randomOctets tag
      order (Icode.Request.present tag id (Icode.masked pwd number)).command) s ↔
      (∃ o, (e.conduct (Icode.randomOctets tag) s).result = .ok o) ∧
        Frame.maxLength < (if tag.isSome then 18 else 10) + e.trailer.len := by
  have hasks : (Icode.randomOctets tag).Asks := (Dialogue.asks_require _).bind _
  have hlen : ∀ o, 3 + (Icode.Request.present tag id (Icode.masked pwd o)).command.params.length =
      if tag.isSome then 18 else 10 := by
    intro o
    have hmasked := (Icode.masked pwd o).length_eq
    rcases tag with _ | tag
    · simp [Icode.Request.command, Icode.command, Command.byte, Command.bytes, hmasked]
    · simp [Icode.Request.command, Icode.command, Command.byte, Command.bytes, hmasked,
        tag.length_eq]
  rw [refusesLate_bind hl (Icode.refusesEarly_randomOctets tag) hasks]
  simp only [refused_order_iff hl, hlen]
  constructor
  · rintro ⟨o, ho, hlong⟩
    exact ⟨⟨o, ho⟩, hlong⟩
  · rintro ⟨⟨o, ho⟩, hlong⟩
    exact ⟨o, ho, hlong⟩

omit hl in
/-- The random number is there as soon as its two bytes are. -/
lemma exists_randomNumber_iff {uid : Option Uid} {tag : Option Iso15693.Address}
    (h : Icode.addressing uid = .done tag) (s : σ) :
    (∃ w, (e.conduct (Icode.randomNumber uid) s).result = .ok w) ↔
      ∃ o, (e.conduct (Icode.randomOctets tag) s).result = .ok o := by
  have hmap := (e.conduct_map (Icode.randomOctets tag)
    (fun o => Bytes.toWord16 (o.bytes.getD 0 0) (o.bytes.getD 1 0)) s).1
  unfold Icode.randomNumber
  rw [h]
  show (∃ w, (e.conduct (Icode.randomOctets tag >>= _) s).result = .ok w) ↔ _
  rw [hmap]
  cases (e.conduct (Icode.randomOctets tag) s).result with
  | error f => exact iff_of_false (fun ⟨w, h⟩ => by cases h) (fun ⟨o, h⟩ => by cases h)
  | ok o => exact iff_of_true ⟨_, rfl⟩ ⟨o, rfl⟩

lemma refusesLate_setPassword (uid : Option Uid) (id : Icode.PasswordId) (pwd : Bytes) (s : σ) :
    e.RefusesLate (Icode.setPassword uid id pwd) s ↔
      pwd.length = 4 ∧ (uid = none → id = .privacy) ∧
        (∃ w, (e.conduct (Icode.randomNumber uid) s).result = .ok w) ∧
        Frame.maxLength < (if uid.isSome then 18 else 10) + e.trailer.len := by
  have hfail : ∀ f, ¬e.RefusesLate (.fail f : Talk Unit) s := fun f =>
    not_refusesLate hl (show RefusesEarly (.fail f) from trivial) s
  unfold Icode.setPassword Icode.password
  by_cases hp : pwd.length = 4
  · obtain ⟨p, rfl⟩ : ∃ p : Octets 4, pwd = p.bytes := ⟨⟨pwd, hp⟩, rfl⟩
    rw [Octets.ofBytes?_bytes]
    by_cases hid : uid.isNone ∧ id ≠ .privacy
    · refine iff_of_false ?_ fun h => hid.2 (h.2.1 (Option.isNone_iff_eq_none.1 hid.1))
      show ¬e.RefusesLate (if _ then _ else _) s
      rw [if_pos hid]
      exact hfail _
    · have hprivacy : uid = none → id = .privacy := by
        rintro rfl
        by_contra hne
        exact hid ⟨rfl, hne⟩
      show e.RefusesLate (if _ then _ else _) s ↔ _
      rw [if_neg hid]
      rcases Icode.addressing_cases uid with ⟨f, hf⟩ | ⟨tag, htag, hsome⟩
      · refine iff_of_false ?_ fun ⟨_, _, ⟨w, hw⟩, _⟩ => ?_
        · rw [hf]
          exact hfail f
        · unfold Icode.randomNumber at hw
          rw [hf] at hw
          cases hw
      · rw [htag, exists_randomNumber_iff htag, ← hsome]
        refine (refusesLate_present hl tag id p s).trans ?_
        exact ⟨fun h => ⟨hp, hprivacy, h⟩, fun h => h.2.2⟩
  · refine iff_of_false ?_ fun h => hp h.1
    rw [show Octets.ofBytes? 4 pwd = none from dif_neg hp]
    exact hfail _

end Engine

/-! ## All operations -/

/-- A link over which every frame is answered by the same one. -/
def Link.constant (frame : Bytes) : Link Unit where
  send _ := Run.value ()
  receive _ := Run.value frame
  discard := Run.value ()

lemma Link.obliging_constant (frame : Bytes) : (Link.constant frame).Obliging :=
  ⟨fun _ _ => not_refused_ok _, fun _ _ => not_refused_ok _⟩

/-- An engine whose reader reports a failure of every command. -/
def Engine.unlucky : Engine Unit where
  link := Link.constant (Frame.closed .standard [0x07, 0x00, 0x00, 0x00, 0x01])

namespace Operation

/-- An operation finds out that it cannot go on after it has used the link: the first question
of two has been answered in the way that leads to the second one, and the frame of the second
one would be too long. -/
def Overruns (e : Engine σ) (b : Iso14443b.Session) (s : σ) : Operation → Prop
  | iso14443a (.authenticate _ uid source _) =>
    (e.conduct (Iso14443a.loadKey source) s).result = .ok () ∧
      Frame.maxLength < 4 + uid.bytes.length + e.trailer.len
  | iso14443b (.write first n data) =>
    (∃ status, (e.serve (Iso14443b.Session.writeCall first n b.size data) s).result =
      .error (.readerStatus status)) ∧
      Frame.maxLength < 7 + n.toNat * b.size.other.byte.toNat + e.trailer.len
  | iso14443b .readUid =>
    (e.conduct Iso14443b.getUid s).result = .ok none ∧ Frame.maxLength < 6 + e.trailer.len
  | icode (.setPassword uid id pwd) =>
    pwd.length = 4 ∧ (uid = none → id = .privacy) ∧
      (∃ w, (e.conduct (Icode.randomNumber uid) s).result = .ok w) ∧
      Frame.maxLength < (if uid.isSome then 18 else 10) + e.trailer.len
  | _ => False

lemma refusesLate_perform_iff (e : Engine σ) (op : Operation) (b : Iso14443b.Session) (s : σ) :
    (Refused (op.perform e b s).1.result ∧
      (op.perform e.recorded b { inner := s }).1.state.events ≠ []) ↔
      e.RefusesLate (op.talk b) s := by
  rw [(perform_spec e op b s).1, (perform_spec e.recorded op b _).2]
  refine and_congr_left fun _ => ?_
  cases (e.conduct (op.talk b) s).result with
  | ok a => exact iff_of_false (not_refused_ok _) (not_refused_ok _)
  | error f => exact ⟨Refused.of_error, Refused.of_error⟩

/-- **Refusals after use of the link.**  Over a link that refuses nothing by itself, an operation
is refused although it has made a call exactly in the cases that `Overruns` lists: loading a key
before an identifier that is too long, a second write with blocks that are too large, and, under
a trailer that is nearly as long as a frame, the second questions of a search for an identifier
and of the presentation of a password.  In all other cases a refused operation has made no call. -/
theorem refusedLate_iff (e : Engine σ) (hl : e.link.Obliging) (op : Operation)
    (b : Iso14443b.Session) (s : σ) :
    (Refused (op.perform e b s).1.result ∧
      (op.perform e.recorded b { inner := s }).1.state.events ≠ []) ↔ op.Overruns e b s := by
  rw [refusesLate_perform_iff]
  have early : ∀ {d : Talk Finding}, d.RefusesEarly →
      ¬e.RefusesLate (do pure (← d, b)) s := fun hd h =>
    Engine.not_refusesLate hl hd s ((Engine.refusesLate_map _ s).1 h)
  cases op with
  | reader op => exact iff_of_false (early op.refusesEarly_talk) id
  | iso15693 op => exact iff_of_false (early op.refusesEarly_talk) id
  | picopass op => exact iff_of_false (early op.refusesEarly_talk) id
  | mifare op => exact iff_of_false (early op.refusesEarly_talk) id
  | iso14443a op =>
    cases op with
    | authenticate side uid source block =>
      refine (Engine.refusesLate_map _ s).trans ((Engine.refusesLate_map _ s).trans ?_)
      exact Engine.refusesLate_authenticate hl side uid source block s
    | _ => exact iff_of_false (early (Iso14443aOperation.refusesEarly_talk _ (by simp))) id
  | iso14443b op =>
    show e.RefusesLate (op.talk b) s ↔ _
    cases op with
    | write first n data =>
      exact (Engine.refusesLate_map _ s).trans (Engine.refusesLate_write hl b first n data s)
    | readUid =>
      refine (Engine.refusesLate_map _ s).trans ((Engine.refusesLate_map _ s).trans ?_)
      exact Engine.refusesLate_readUid hl s
    | _ =>
      exact iff_of_false (Engine.not_refusesLate hl
        (Iso14443bOperation.refusesEarly_talk _ b (by simp) (by simp)) s) id
  | icode op =>
    cases op with
    | setPassword uid id pwd =>
      refine (Engine.refusesLate_map _ s).trans ((Engine.refusesLate_map _ s).trans ?_)
      exact Engine.refusesLate_setPassword hl uid id pwd s
    | _ => exact iff_of_false (early (IcodeOperation.refusesEarly_talk _ (by simp))) id

/-- 62 blocks of two bytes fit a frame and 62 blocks of four do not, so a write of that many
blocks is refused after the reader has failed the first try. -/
theorem refusedLate_write :
    Engine.unlucky.link.Obliging ∧
      Refused ((iso14443b (.write 0 62 [])).perform Engine.unlucky {} ()).1.result ∧
      ((iso14443b (.write 0 62 [])).perform Engine.unlucky.recorded {}
        { inner := () }).1.state.events ≠ [] := by
  have hl : Engine.unlucky.link.Obliging := Link.obliging_constant _
  refine ⟨hl, (refusedLate_iff Engine.unlucky hl (iso14443b (.write 0 62 [])) {} ()).2 ⟨?_, ?_⟩⟩
  · exact ⟨0x01, by decide +kernel⟩
  · decide

end Operation

end TagReader
