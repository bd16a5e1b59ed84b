/-
# What operations ask, and how they fail

Every operation asks the reader by requests of its family, and its arguments say which.  This file
writes that down as a table, `Operation.Sends`, and beside it the ways in which an operation fails
after a reply, `Operation.Complains`: the payload is malformed, and the handshake and the probes
wrap such a fault as one of their own.

Both are shown at once.  A dialogue `Abides` if each of its questions is of a given kind, whatever
the answers are, and each of its failures that follows a payload is of a given kind too; the
predicate passes through sequences, so that one walk over the operations gives
`Operation.abides_talk`.  The engine turns it into statements about exchanges and frames.
-/
import TagReader.Proofs.Exchanges
import TagReader.Proofs.Overrun

namespace TagReader

variable {σ α β : Type}

/-! ## Dialogues that abide -/

namespace Dialogue

variable {ι κ : Type} {Q : ι → Prop} {P : Fault → Prop}

/-- All questions are of the one kind, and so are, of the other, the failures that follow an answer
without a fault before the next question; `answered` says whether such an answer was the last. -/
def Abides (Q : ι → Prop) (P : Fault → Prop) : Bool → Dialogue ι α → Prop
  | _, done _ => True
  | answered, fail f => answered = true → P f
  | answered, note _ d => d.Abides Q P answered
  | _, ask q k => Q q ∧ ∀ r, (k r).Abides Q P r.isOk

/-- Whatever the answers, all failures are of a kind. -/
def FailsBy (P : Fault → Prop) : Dialogue ι α → Prop
  | done _ => True
  | fail f => P f
  | note _ d => d.FailsBy P
  | ask _ k => ∀ r, (k r).FailsBy P

/-- A failure that no answer without a fault precedes may be of any kind. -/
lemma abides_fail (f : Fault) : (fail f : Dialogue ι α).Abides Q P false :=
  fun h => absurd h Bool.false_ne_true

lemma Abides.unanswered {d : Dialogue ι α} (h : d.Abides Q P true) : d.Abides Q P false := by
  induction d with
  | done a => trivial
  | fail f => exact abides_fail _
  | note n d ih => exact ih h
  | ask q k ih => exact h

lemma Abides.of_answered {d : Dialogue ι α} (h : d.Abides Q P true) (a : Bool) :
    d.Abides Q P a := by
  cases a with
  | true => exact h
  | false => exact h.unanswered

lemma Abides.bind {d : Dialogue ι α} {f : α → Dialogue ι β} {a : Bool} (h : d.Abides Q P a)
    (hf : ∀ x, (f x).Abides Q P true) : (d >>= f).Abides Q P a := by
  induction d generalizing a with
  | done x => exact (hf x).of_answered a
  | fail g => exact h
  | note n d ih => exact ih h
  | ask q k ih => exact ⟨h.1, fun r => ih r (h.2 r)⟩

/-- What is made of a value in the end cannot fail. -/
lemma Abides.map {d : Dialogue ι α} {a : Bool} (h : d.Abides Q P a) (g : α → β) :
    (d >>= fun x => pure (g x)).Abides Q P a :=
  h.bind fun _ => trivial

lemma abides_ofExcept {r : Except Fault α} (h : ∀ f, r = .error f → P f) (a : Bool) :
    (ofExcept r : Dialogue ι α).Abides Q P a := by
  rcases r with f | x
  · exact fun _ => h f rfl
  · trivial

lemma abides_require {q : ι} (h : Q q) (a : Bool) : (require q).Abides Q P a := by
  refine ⟨h, ?_⟩
  rintro (f | p)
  · exact abides_fail _
  · trivial

/-- A check that comes before all questions may fail in any way. -/
lemma abides_check {r : Except Fault α} {f : α → Dialogue ι β}
    (hf : ∀ x, r = .ok x → (f x).Abides Q P false) :
    ((ofExcept r : Dialogue ι α) >>= f).Abides Q P false := by
  rcases r with g | x
  · exact abides_fail _
  · exact hf x rfl

lemma Abides.unless {c : Prop} [Decidable c] {f : Fault} {g : β → Dialogue ι α}
    {d : Dialogue ι α} (h : ¬c → d.Abides Q P false) :
    (if c then (fail f : Dialogue ι β) >>= g else d).Abides Q P false := by
  by_cases hc : c
  · rw [if_pos hc]
    exact abides_fail _
  · rw [if_neg hc]
    exact h hc

/-- A dialogue that stands for one question hands its failures on as answers. -/
lemma abides_outcome {d : Dialogue ι α} {f : Except Fault α → Dialogue ι β} {a : Bool}
    (h : d.Abides Q (fun _ => True) a) (hf : ∀ r, (f r).Abides Q P true) :
    (d.outcome >>= f).Abides Q P a := by
  induction d generalizing a with
  | done x => exact (hf _).of_answered a
  | fail g => exact (hf _).of_answered a
  | note n d ih => exact ih h
  | ask q k ih => exact ⟨h.1, fun r => ih r (h.2 r)⟩

lemma FailsBy.abides_expand {d : Dialogue ι α} (h : d.FailsBy P) {Q : κ → Prop}
    {f : ι → Dialogue κ Bytes} (hf : ∀ q, (f q).Abides Q (fun _ => True) true) :
    (d.expand f).Abides Q P true := by
  induction d with
  | done x => trivial
  | fail g => exact fun _ => h
  | note n d ih => exact ih h
  | ask q k ih => exact abides_outcome (hf q) fun r => ih r (h r)

lemma abides_say (level : Level) (text : String) {a : Bool} :
    (say level text : Dialogue ι Unit).Abides Q P a := trivial

lemma Abides.imp {Q' : ι → Prop} {P' : Fault → Prop} {d : Dialogue ι α} {a : Bool}
    (h : d.Abides Q P a) (hQ : ∀ q, Q q → Q' q) (hP : ∀ f, P f → P' f) : d.Abides Q' P' a := by
  induction d generalizing a with
  | done x => trivial
  | fail g => exact fun ha => hP g (h ha)
  | note n d ih => exact ih h
  | ask q k ih => exact ⟨hQ q h.1, fun r => ih r (h.2 r)⟩

end Dialogue

/-! ## Conducting them -/

namespace Engine

variable {e : Engine σ} {d : Talk α} {Q : Call → Prop} {P : Fault → Prop} {a : Bool}

/-- The exchanges ask what the dialogue asks. -/
lemma call_of_abides (h : d.Abides Q P a) (s : σ) : ∀ x ∈ e.exchanges d s, Q x.call := by
  induction d generalizing a s with
  | done x => exact fun x hx => absurd hx List.not_mem_nil
  | fail f => exact fun x hx => absurd hx List.not_mem_nil
  | note n d ih => exact ih h s
  | ask q k ih =>
    intro x hx
    rcases List.mem_cons.1 hx with rfl | hx
    · exact h.1
    · exact ih _ (h.2 _) _ x hx

/-- Whether the last exchange has given a payload. -/
def answeredLast (xs : List Exchange) (a : Bool) : Bool :=
  (xs.getLast?.map fun x => x.answer.isOk).getD a

lemma answeredLast_cons (x : Exchange) (xs : List Exchange) (a : Bool) :
    answeredLast (x :: xs) a = answeredLast xs x.answer.isOk := by
  unfold answeredLast
  rw [List.getLast?_cons]
  cases xs.getLast? <;> rfl

/-- A failure after a payload is of the kind that the dialogue allows. -/
lemma fault_of_abides (h : d.Abides Q P a) (s : σ)
    (ha : answeredLast (e.exchanges d s) a = true) {f : Fault}
    (hf : (e.conduct d s).result = .error f) : P f := by
  induction d generalizing a s with
  | done x => cases hf
  | fail g =>
    obtain rfl := Except.error.inj hf
    exact h ha
  | note n d ih =>
    rw [result_conduct_note] at hf
    exact ih h s ha hf
  | ask q k ih =>
    rw [exchanges_ask, answeredLast_cons] at ha
    rw [result_conduct_ask] at hf
    exact ih _ (h.2 _) _ ha hf

end Engine

/-! ## Requests and complaints -/

/-- A request to the reader, of any family. -/
inductive Query where
  | reader (r : Reader.Request)
  | iso14443a (r : Iso14443a.Request)
  | iso14443b (r : Iso14443b.Request)
  | iso15693 (r : Iso15693.Request)
  | icode (r : Icode.Request)
  | picopass (r : Picopass.Request)
  | mifare (r : Mifare.Request)
deriving DecidableEq

/-- The command for a request. -/
def Query.command : Query → Command
  | reader r => r.command
  | iso14443a r => r.command
  | iso14443b r => r.command
  | iso15693 r => r.command
  | icode r => r.command
  | picopass r => r.command
  | mifare r => r.command

/-- The request to load a key. -/
def Iso14443a.Request.load : KeySource → Iso14443a.Request
  | .explicit key => loadKey key
  | .stored slot => loadStoredKey slot

/-- The requests of an operation on the reader itself.  A plain exchange has none of its own. -/
def ReaderOperation.Sends : ReaderOperation → Reader.Request → Prop
  | versionBytes, r | version, r | probe, r => r = .version
  | serial, r => r = .serial
  | exchange _, _ | exchangeOptional _, _ | exchangeWithin _ _, _ | exchangeBytes _, _ => False

/-- The requests of an operation on ISO14443A tags. -/
def Iso14443aOperation.Sends : Iso14443aOperation → Iso14443a.Request → Prop
  | activateIdle, r => r = .activateIdle
  | activateWakeup uid, r => r = .activateWakeup uid
  | showCards, r => r = .listCards
  | readBlock block, r => r = .readBlock block
  | writeBlock data block, r => ∃ d, data = d.bytes ∧ r = .writeBlock block d
  | writePage data page, r => ∃ d, data = d.bytes ∧ r = .writePage page d
  | changeValue change amount block store, r => r = .changeValue change store block amount
  | transfer block, r => r = .transfer block
  | halt, r => r = .halt
  | loadKey source, r => r = .load source
  | storeKey slot key, r => r = .storeKey slot key
  | authenticate side uid source block, r => r = .load source ∨ r = .authenticate side block uid
  | reqA, r => r = .reqA
  | wupA, r => r = .wupA
  | anticollision, r => r = .anticollision
  | select uid, r => r = .select uid
  | rats, r => r = .rats
  | passThrough layer message, r => ∃ short, r = .passThrough layer message short
  | authenticateUltralightC _ _, r => ∃ message short, r = .passThrough .three message short

/-- The requests of an operation on ISO14443B tags. -/
def Iso14443bOperation.Sends (b : Iso14443b.Session) :
    Iso14443bOperation → Iso14443b.Request → Prop
  | reqB family, r => r = .reqB family
  | select, r => r = .select
  | read first n, r => r = .read first n
  | getUid, r => r = .uid
  | readUid, r => r = .uid ∨ r = .read 0 4
  | write first n data, r => ∃ size, r = .write first n size data
  | completion, r => r = .completion
  | protect lock, r => ∃ chip, b.chip = some chip ∧ r = .protect chip lock
  | protection, r => r = .protection

/-- The requests of an operation on ISO15693 tags, which carry the identifier as an address. -/
def Iso15693Operation.Sends : Iso15693Operation → Iso15693.Request → Prop
  | inventory, r => r = .inventory
  | stayQuiet uid, r => ∃ tag, uid.bytes = tag.bytes ∧ r = .stayQuiet tag
  | readBlock uid block, r => ∃ tag, uid.bytes = tag.bytes ∧ r = .readBlock tag block
  | writeBlock uid block data, r => ∃ tag, uid.bytes = tag.bytes ∧ r = .writeBlock tag block data
  | lockBlock uid block, r => ∃ tag, uid.bytes = tag.bytes ∧ r = .lockBlock tag block
  | readBlocks uid first n, r => ∃ tag further, uid.bytes = tag.bytes ∧ n = further.toNat + 1 ∧
      r = .readBlocks tag first further
  | systemInformation uid, r => ∃ tag, uid.bytes = tag.bytes ∧ r = .systemInformation tag

/-- The requests of an operation on ICODE tags. -/
def IcodeOperation.Sends : IcodeOperation → Icode.Request → Prop
  | randomNumber uid, r => ∃ tag, uid.map Uid.bytes = tag.map Octets.bytes ∧ r = .random tag
  | setPassword uid id password, r => ∃ tag, uid.map Uid.bytes = tag.map Octets.bytes ∧
      (r = .random tag ∨
        ∃ p number, password = p.bytes ∧ r = .present tag id (Icode.masked p number))
  | writePassword uid id password, r => ∃ tag p, uid.bytes = tag.bytes ∧ password = p.bytes ∧
      r = .replace tag id p
  | lockPassword uid id, r => ∃ tag, uid.bytes = tag.bytes ∧ r = .lockPassword tag id
  | joinPasswords uid, r => ∃ tag, uid.bytes = tag.bytes ∧ r = .joinPasswords tag
  | protectPage uid page protection, r => ∃ tag, uid.bytes = tag.bytes ∧
      r = .protectPage tag page protection
  | lockPage uid page, r => ∃ tag, uid.bytes = tag.bytes ∧ r = .lockPage tag page
  | blockStatus uid first n, r => ∃ tag, uid.bytes = tag.bytes ∧ r = .blockStatus tag first n
  | destroy uid, r => ∃ tag, uid.bytes = tag.bytes ∧ r = .destroy tag
  | hide uid, r => ∃ tag, uid.bytes = tag.bytes ∧ r = .hide tag

/-- The request of an operation on Picopass cards. -/
def PicopassOperation.Sends : PicopassOperation → Picopass.Request → Prop
  | getUid, r | cards, r => r = .selectUid

/-- The requests of a MIFARE macro. -/
def MifareOperation.Sends : MifareOperation → Mifare.Request → Prop
  | readUltralight _ _, r | readUltralightAll, r | readUltralightUserData, r =>
    r = .readUltralight
  | readUltralightC first n options, r => r = .readUltralightC options first n
  | readUltralightCUserData, r => r = .readUltralightC Mifare.userOptions 4 36
  | writeUltralight data mask, r => r = .writeUltralight mask data
  | writeUltralightUserData data, r =>
    r = .writeUltralight (Mifare.userMask (Mifare.pagesFor data.length)) (Mifare.padded data)
  | writeUltralightC data first n options, r => r = .writeUltralightC options first n data
  | writeUltralightCUserData data, r => r = .writeUltralightC Mifare.userOptions 4
      (UInt8.ofNat (Mifare.pagesFor data.length)) (Mifare.padded data)
  | readSector sector auth mask, r => r = .readSector sector auth mask
  | writeSector data sector auth mask, r => r = .writeSector sector auth mask data
  | writeTrailers mask trailers, r =>
    mask.toNat < 1 <<< Mifare.maxSectors ∧ r = .writeTrailers mask trailers
  | authenticateUltralightC _ _, _ => False

namespace Operation

/-- A plain exchange, of which the caller gives the command. -/
def Plain : Operation → Prop
  | reader (.exchange _) | reader (.exchangeOptional _) | reader (.exchangeWithin _ _)
  | reader (.exchangeBytes _) => True
  | _ => False

/-- The requests by which an operation may ask.  The authentication of an Ultralight C tag passes
messages through to it. -/
def Sends (b : Iso14443b.Session) : Operation → Query → Prop
  | reader op, .reader r => op.Sends r
  | iso14443a op, .iso14443a r => op.Sends r
  | iso14443b op, .iso14443b r => op.Sends b r
  | iso15693 op, .iso15693 r => op.Sends r
  | icode op, .icode r => op.Sends r
  | picopass op, .picopass r => op.Sends r
  | mifare (.authenticateUltralightC _ _), .iso14443a r =>
    ∃ message short, r = .passThrough .three message short
  | mifare op, .mifare r => op.Sends r
  | _, _ => False

/-- The faults by which an operation may fail after a payload. -/
def Complains : Operation → Fault → Prop
  | reader .version, f | reader .probe, f =>
    ∃ g : Fault, g.isMalformed = true ∧ f = .deviceNotPresent g.message
  | iso14443a (.authenticateUltralightC _ _), f | mifare (.authenticateUltralightC _ _), f =>
    ∃ text, f = .authentication text
  | _, f => f.isMalformed = true

end Operation

/-! ## The ways of asking -/

namespace Talk

variable {Q : Call → Prop} {P : Fault → Prop}

/-- The fault is about the form of a payload. -/
abbrev Malformed (f : Fault) : Prop := f.isMalformed = true

lemma abides_exchange {c : Command} (h : Q ⟨c, none⟩) (a : Bool) : (exchange c).Abides Q P a :=
  Dialogue.abides_require h a

lemma abides_order {c : Command} (h : Q ⟨c, none⟩) (a : Bool) : (order c).Abides Q P a :=
  (abides_exchange h a).map _

lemma abides_exchangeOptional {c : Command} (h : Q ⟨c, none⟩) (a : Bool) :
    (exchangeOptional c).Abides Q P a := by
  refine ⟨h, ?_⟩
  rintro (f | p)
  · cases f with
    | readerStatus status => trivial
    | _ => exact Dialogue.abides_fail _
  · trivial

variable {decode : Bytes → Except Fault α} (hd : ∀ p, OnlyMalformed (decode p))
include hd

lemma abides_ofDecode {t : Talk Bytes} {a : Bool} (h : t.Abides Q Malformed a) :
    (do let p ← t; Dialogue.ofExcept (decode p) : Talk α).Abides Q Malformed a :=
  h.bind fun p => Dialogue.abides_ofExcept (hd p) true

lemma abides_decode {c : Command} (h : Q ⟨c, none⟩) (a : Bool) :
    (do let p ← exchange c; Dialogue.ofExcept (decode p) : Talk α).Abides Q Malformed a :=
  abides_ofDecode hd (abides_exchange h a)

lemma abides_decoded (p : Option Bytes) : (decoded decode p).Abides Q Malformed true := by
  rcases p with _ | p
  · trivial
  · exact (Dialogue.abides_ofExcept (hd p) true).map _

lemma abides_decodeOptional {c : Command} (h : Q ⟨c, none⟩) (a : Bool) :
    (do let p ← exchangeOptional c; decoded decode p : Talk (Option α)).Abides Q Malformed a := by
  exact (abides_exchangeOptional h a).bind (abides_decoded hd)

end Talk

open Talk

/-! ## Every operation -/

/-- A question that is one of some requests. -/
abbrev Call.Among {ρ : Type} (command : ρ → Command) (sends : ρ → Prop) (q : Call) : Prop :=
  ∃ r, sends r ∧ q.command = command r

lemma FirmwareVersion.onlyMalformed_ofBytes (bs : Bytes) : OnlyMalformed (ofBytes bs) := by
  unfold ofBytes
  split
  · exact .ok _
  · exact .error rfl

/-- A payload may be the length of an identifier and the identifier. -/
lemma Uid.onlyMalformed_prefixed (p : Bytes) :
    OnlyMalformed (do pure (⟨← Payload.prefixed p 0⟩ : Uid)) :=
  (Payload.onlyMalformed_prefixed p 0).bind fun _ => .ok _

lemma ReaderOperation.abides_talk (op : ReaderOperation) (h : ¬(Operation.reader op).Plain) :
    op.talk.Abides (Call.Among Reader.Request.command op.Sends) (Operation.reader op).Complains
      false := by
  have hversion (P : Fault → Prop) : Reader.versionBytes.Abides
      (Call.Among Reader.Request.command (· = .version)) P false := by
    refine ⟨⟨_, rfl, rfl⟩, ?_⟩
    rintro (f | p)
    · exact Dialogue.abides_fail _
    · trivial
  have hparsed : Reader.version.Abides (Call.Among Reader.Request.command (· = .version))
      (Operation.reader .version).Complains false := by
    refine (hversion _).bind fun raw => ?_
    rcases hv : FirmwareVersion.ofBytes raw with f | v
    · exact fun _ => ⟨f, FirmwareVersion.onlyMalformed_ofBytes raw f hv, rfl⟩
    · trivial
  cases op with
  | versionBytes => exact (hversion _).map _
  | version => exact hparsed.map _
  | probe => exact (hparsed.bind fun v => (Dialogue.abides_say _ _).map _).map _
  | serial =>
    refine Dialogue.Abides.map ((abides_exchange ⟨_, rfl, rfl⟩ _).bind fun p => ?_) _
    cases p.isEmpty with
    | true => exact fun _ => rfl
    | false => trivial
  | _ => exact absurd trivial h

/-- The handshake turns every fault into one of its own. -/
lemma UltralightC.failsBy_handshake (c : BlockCipher) (nonce : Block) :
    (handshake c nonce).FailsBy fun f => ∃ text, f = .authentication text := by
  rintro (f | answer)
  · exact ⟨_, rfl⟩
  · dsimp only
    split
    · exact ⟨_, rfl⟩
    · rintro (f | answer')
      · exact ⟨_, rfl⟩
      · dsimp only [judge]
        split
        · trivial
        · split
          · exact ⟨_, rfl⟩
          · trivial

namespace Iso14443a

variable {Q : Call → Prop} {a : Bool}

lemma abides_loadKey {source : KeySource} (h : Q ⟨(Request.load source).command, none⟩) :
    (loadKey source).Abides Q Malformed a := by
  cases source with
  | explicit key => exact abides_order h a
  | stored slot => exact abides_order h a

lemma abides_passThrough {layer : Layer} {message : Bytes} {P : Fault → Prop}
    (h : ∀ short, Q ⟨(Request.passThrough layer message short).command, none⟩)
    (hP : ∀ f, f.isMalformed = true → P f) (hlong : a = true → P (Command.uncountable message)) :
    (passThrough layer message).Abides Q P a := by
  unfold passThrough
  by_cases hshort : message.length < 256
  · rw [dif_pos hshort]
    exact (abides_decode (fun p => Payload.onlyMalformed_prefixed p 0) (h hshort) a).imp
      (fun _ hq => hq) hP
  · rw [dif_neg hshort]
    exact hlong

/-- The handshake passes messages through, and every fault of it is one of its own. -/
lemma abides_authenticate (s : UltralightC.Session) (nonce : Block)
    (h : ∀ message short, Q ⟨(Request.passThrough .three message short).command, none⟩) :
    (authenticateUltralightC s nonce).Abides Q (fun f => ∃ text, f = .authentication text)
      true := by
  refine (UltralightC.failsBy_handshake (Des.twoKey s.key) nonce).abides_expand fun message => ?_
  exact abides_passThrough (h message) (fun _ _ => trivial) fun _ => trivial

end Iso14443a

lemma Iso14443aOperation.abides_talk (op : Iso14443aOperation) :
    op.talk.Abides (Call.Among Iso14443a.Request.command op.Sends)
      (Operation.iso14443a op).Complains false := by
  cases op with
  | activateIdle =>
    exact (abides_decodeOptional Target.onlyMalformed_ofReport ⟨_, rfl, rfl⟩ _).map _
  | activateWakeup uid =>
    exact (abides_decodeOptional Target.onlyMalformed_ofReport ⟨_, rfl, rfl⟩ _).map _
  | showCards =>
    refine Dialogue.Abides.map ((abides_exchangeOptional ⟨_, rfl, rfl⟩ _).bind fun p => ?_) _
    rcases p with _ | p
    · trivial
    · exact Dialogue.abides_ofExcept (TagList.onlyMalformed_decode p) true
  | readBlock block =>
    exact (abides_decode (fun p => Payload.onlyMalformed_octets 16 p 0) ⟨_, rfl, rfl⟩ _).map _
  | writeBlock data block =>
    refine Dialogue.Abides.map ?_ _
    unfold Iso14443a.writeBlock
    split
    · exact abides_order ⟨_, ⟨_, Octets.ofBytes?_eq_some_iff.1 ‹_›, rfl⟩, rfl⟩ _
    · exact Dialogue.abides_fail _
  | writePage data page =>
    refine Dialogue.Abides.map ?_ _
    unfold Iso14443a.writePage
    split
    · exact abides_order ⟨_, ⟨_, Octets.ofBytes?_eq_some_iff.1 ‹_›, rfl⟩, rfl⟩ _
    · exact Dialogue.abides_fail _
  | changeValue change amount block store => exact (abides_order ⟨_, rfl, rfl⟩ _).map _
  | transfer block => exact (abides_order ⟨_, rfl, rfl⟩ _).map _
  | halt => exact (abides_order ⟨_, rfl, rfl⟩ _).map _
  | loadKey source => exact (Iso14443a.abides_loadKey ⟨_, rfl, rfl⟩).map _
  | storeKey slot key => exact (abides_order ⟨_, rfl, rfl⟩ _).map _
  | authenticate side uid source block =>
    refine Dialogue.Abides.map ((Iso14443a.abides_loadKey ⟨_, .inl rfl, rfl⟩).bind fun _ => ?_) _
    exact abides_order ⟨_, .inr rfl, rfl⟩ true
  | reqA => exact ((abides_exchangeOptional ⟨_, rfl, rfl⟩ _).map _).map _
  | wupA =>
    exact (abides_decodeOptional (fun p => (Payload.onlyMalformed_slice p 0 2).bind
      Atqa.onlyMalformed_ofBytes) ⟨_, rfl, rfl⟩ _).map _
  | anticollision =>
    exact (abides_decode Iso14443a.onlyMalformed_decodeAnticollision ⟨_, rfl, rfl⟩ _).map _
  | select uid =>
    exact (abides_decode (fun p => Payload.onlyMalformed_byte p 0) ⟨_, rfl, rfl⟩ _).map _
  | rats => exact (abides_decode Iso14443a.onlyMalformed_decodeAts ⟨_, rfl, rfl⟩ _).map _
  | passThrough layer message =>
    exact (Iso14443a.abides_passThrough (fun short => ⟨_, ⟨short, rfl⟩, rfl⟩) (fun _ hf => hf)
      fun hf => absurd hf Bool.false_ne_true).map _
  | authenticateUltralightC session nonce =>
    exact (Iso14443a.abides_authenticate session nonce
      fun message short => ⟨_, ⟨message, short, rfl⟩, rfl⟩).unanswered.map _

lemma Iso14443bOperation.abides_talk (op : Iso14443bOperation) (b : Iso14443b.Session) :
    (op.talk b).Abides (Call.Among Iso14443b.Request.command (op.Sends b)) Malformed false := by
  cases op with
  | reqB family =>
    exact ((abides_decodeOptional Atqb.onlyMalformed_ofBytes ⟨_, rfl, rfl⟩ _).map _).map _
  | select =>
    refine Dialogue.Abides.map ((abides_exchangeOptional ⟨_, rfl, rfl⟩ _).bind fun p => ?_) _
    refine (abides_decoded (fun p => Payload.onlyMalformed_byte p 0) p).bind fun chip => ?_
    rcases chip with _ | chip <;> trivial
  | read first n =>
    exact ((abides_decode (Iso14443b.onlyMalformed_decodeBlocks n) ⟨_, rfl, rfl⟩ _).map _).map _
  | getUid =>
    exact ((abides_decodeOptional Uid.onlyMalformed_prefixed ⟨_, rfl, rfl⟩ _).map _).map _
  | readUid =>
    refine Dialogue.Abides.map (Dialogue.Abides.map ((abides_decodeOptional
      Uid.onlyMalformed_prefixed ⟨_, .inl rfl, rfl⟩ _).bind fun uid => ?_) _) _
    -- Without an identifier the blocks that may hold one are read.
    rcases uid with _ | uid
    · refine ⟨⟨_, .inr rfl, rfl⟩, ?_⟩
      rintro (f | p)
      · cases f with
        | readerStatus status => trivial
        | _ => exact Dialogue.abides_fail _
      · exact (Dialogue.abides_ofExcept (Iso14443b.onlyMalformed_decodeBlocks 4 p) true).map _
    · trivial
  | write first n data =>
    refine Dialogue.Abides.map (d := b.write first n data) ?_ _
    refine ⟨⟨_, ⟨_, rfl⟩, rfl⟩, ?_⟩
    rintro (f | p)
    · cases f with
      | readerStatus status =>
        refine ⟨⟨_, ⟨_, rfl⟩, rfl⟩, ?_⟩
        rintro (f | p)
        · exact Dialogue.abides_fail _
        · trivial
      | _ => exact Dialogue.abides_fail _
    · trivial
  | completion => exact ((abides_order ⟨_, rfl, rfl⟩ _).map _).map _
  | protect lock =>
    refine Dialogue.Abides.map (Dialogue.Abides.map ?_ _) _
    unfold Iso14443b.Session.protect
    split
    · exact abides_order ⟨_, ⟨_, ‹_›, rfl⟩, rfl⟩ _
    · exact Dialogue.abides_fail _
  | protection =>
    exact ((abides_decode (fun p => Payload.onlyMalformed_byte p 1) ⟨_, rfl, rfl⟩ _).map _).map _

lemma PicopassOperation.abides_talk (op : PicopassOperation) :
    op.talk.Abides (Call.Among Picopass.Request.command op.Sends) Malformed false := by
  cases op with
  | getUid =>
    exact (abides_decodeOptional Uid.onlyMalformed_prefixed ⟨_, rfl, rfl⟩ _).map _
  | cards =>
    exact ((abides_decodeOptional Uid.onlyMalformed_prefixed ⟨_, rfl, rfl⟩ _).map _).map _

namespace Iso15693

variable {Q : Call → Prop} {P : Fault → Prop}

lemma bytes_of_address {uid : Uid} {tag : Address} (h : address uid = .ok tag) :
    uid.bytes = tag.bytes := by
  unfold address at h
  split at h
  · obtain rfl := Except.ok.inj h
    exact Octets.ofBytes?_eq_some_iff.1 ‹_›
  · cases h

/-- An identifier is made an address before anything is asked. -/
lemma abides_addressing {uid : Uid} {f : Address → Talk α}
    (hf : ∀ tag, uid.bytes = tag.bytes → (f tag).Abides Q P false) :
    (addressing uid >>= f).Abides Q P false :=
  Dialogue.abides_check fun tag htag => hf tag (bytes_of_address htag)

/-- An order to one tag. -/
lemma abides_orderTo {uid : Uid} {c : Address → Command}
    (h : ∀ tag, uid.bytes = tag.bytes → Q ⟨c tag, none⟩) :
    (do let tag ← addressing uid; order (c tag)).Abides Q P false :=
  abides_addressing fun tag htag => abides_order (h tag htag) false

end Iso15693

lemma Iso15693Operation.abides_talk (op : Iso15693Operation) :
    op.talk.Abides (Call.Among Iso15693.Request.command op.Sends) Malformed false := by
  cases op with
  | inventory =>
    refine Dialogue.Abides.map ((abides_exchangeOptional ⟨_, rfl, rfl⟩ _).bind fun p => ?_) _
    rcases p with _ | p
    · trivial
    · exact Dialogue.abides_ofExcept (TagList.onlyMalformed_decodeFixed p) true
  | stayQuiet uid =>
    exact (Iso15693.abides_orderTo fun tag htag => ⟨_, ⟨tag, htag, rfl⟩, rfl⟩).map _
  | readBlock uid block =>
    exact (Iso15693.abides_addressing fun tag htag =>
      abides_exchange ⟨_, ⟨tag, htag, rfl⟩, rfl⟩ _).map _
  | writeBlock uid block data =>
    exact Dialogue.Abides.map (.unless fun _ => Iso15693.abides_orderTo
      fun tag htag => ⟨_, ⟨tag, htag, rfl⟩, rfl⟩) _
  | lockBlock uid block =>
    exact (Iso15693.abides_orderTo fun tag htag => ⟨_, ⟨tag, htag, rfl⟩, rfl⟩).map _
  | readBlocks uid first n =>
    refine Dialogue.Abides.map (.unless fun hn => Iso15693.abides_addressing fun tag htag =>
      abides_exchange ⟨_, ⟨tag, UInt8.ofNat (n - 1), htag, ?_, rfl⟩, rfl⟩ _) _
    rw [UInt8.toNat_ofNat']
    omega
  | systemInformation uid =>
    exact (Iso15693.abides_addressing fun tag htag =>
      abides_decode SystemInformation.onlyMalformed_decode ⟨_, ⟨tag, htag, rfl⟩, rfl⟩ _).map _

namespace Icode

variable {Q : Call → Prop} {P : Fault → Prop}

lemma abides_addressing {uid : Option Uid} {f : Option Iso15693.Address → Talk α}
    (hf : ∀ tag, uid.map Uid.bytes = tag.map Octets.bytes → (f tag).Abides Q P false) :
    (addressing uid >>= f).Abides Q P false := by
  rcases uid with _ | uid
  · exact hf none rfl
  · have hbind : addressing (some uid) =
        (Dialogue.ofExcept (Iso15693.address uid) >>= fun tag => pure (some tag)) := rfl
    rw [hbind]
    rcases haddress : Iso15693.address uid with g | tag
    · exact Dialogue.abides_fail _
    · exact hf (some tag) (congrArg some (Iso15693.bytes_of_address haddress))

lemma abides_password {pwd : Bytes} {f : Octets 4 → Talk α}
    (hf : ∀ p, pwd = p.bytes → (f p).Abides Q P false) :
    (password pwd >>= f).Abides Q P false := by
  unfold password
  cases hp : Octets.ofBytes? 4 pwd with
  | none => exact Dialogue.abides_fail _
  | some p => exact hf p (Octets.ofBytes?_eq_some_iff.1 hp)

lemma abides_randomOctets {tag : Option Iso15693.Address}
    (h : Q ⟨(Request.random tag).command, none⟩) :
    (randomOctets tag).Abides Q Malformed false :=
  abides_decode (fun p => Payload.onlyMalformed_octets 2 p 0) h false

end Icode

lemma IcodeOperation.abides_talk (op : IcodeOperation) :
    op.talk.Abides (Call.Among Icode.Request.command op.Sends) Malformed false := by
  cases op with
  | randomNumber uid =>
    exact (Icode.abides_addressing fun tag htag =>
      (Icode.abides_randomOctets ⟨_, ⟨tag, htag, rfl⟩, rfl⟩).map _).map _
  | setPassword uid id pwd =>
    refine Dialogue.Abides.map (Icode.abides_password fun p hp => .unless fun _ =>
      Icode.abides_addressing fun tag htag => ?_) _
    refine (Icode.abides_randomOctets ⟨_, ⟨tag, htag, .inl rfl⟩, rfl⟩).bind fun number => ?_
    exact abides_order ⟨_, ⟨tag, htag, .inr ⟨p, number, hp, rfl⟩⟩, rfl⟩ true
  | writePassword uid id pwd =>
    exact Dialogue.Abides.map (Icode.abides_password fun p hp => Iso15693.abides_orderTo
      fun tag htag => ⟨_, ⟨tag, p, htag, hp, rfl⟩, rfl⟩) _
  | lockPassword uid id =>
    exact (Iso15693.abides_orderTo fun tag htag => ⟨_, ⟨tag, htag, rfl⟩, rfl⟩).map _
  | joinPasswords uid =>
    exact (Iso15693.abides_orderTo fun tag htag => ⟨_, ⟨tag, htag, rfl⟩, rfl⟩).map _
  | protectPage uid page protection =>
    exact (Iso15693.abides_orderTo fun tag htag => ⟨_, ⟨tag, htag, rfl⟩, rfl⟩).map _
  | lockPage uid page =>
    exact (Iso15693.abides_orderTo fun tag htag => ⟨_, ⟨tag, htag, rfl⟩, rfl⟩).map _
  | blockStatus uid first n =>
    exact (Iso15693.abides_addressing fun tag htag =>
      abides_decode (fun p => Payload.onlyMalformed_slice p 0 n.toNat)
        ⟨_, ⟨tag, htag, rfl⟩, rfl⟩ _).map _
  | destroy uid =>
    exact (Iso15693.abides_orderTo fun tag htag => ⟨_, ⟨tag, htag, rfl⟩, rfl⟩).map _
  | hide uid =>
    exact (Iso15693.abides_orderTo fun tag htag => ⟨_, ⟨tag, htag, rfl⟩, rfl⟩).map _

namespace Mifare

variable {Q : Call → Prop}

lemma abides_readUltralight {offset len : Nat} (h : Q ⟨Request.readUltralight.command, none⟩) :
    (readUltralight offset len).Abides Q Malformed false :=
  .unless fun _ => abides_decode (fun p => Payload.onlyMalformed_slice p offset len) h false

lemma abides_ensurePages {first n : UInt8} {f : Unit → Talk α} {P : Fault → Prop}
    (hf : (f ()).Abides Q P false) : (ensurePages first n >>= f).Abides Q P false := by
  unfold ensurePages
  dsimp only
  split
  · exact Dialogue.abides_fail _
  · exact hf

lemma abides_ensureUserData {kind : String} {limit : Nat} {data : Bytes} {f : Unit → Talk α}
    {P : Fault → Prop} (hf : (f ()).Abides Q P false) :
    (ensureUserData kind limit data >>= f).Abides Q P false := by
  unfold ensureUserData
  by_cases he : data.isEmpty = true
  · rw [if_pos he]
    exact Dialogue.abides_fail _
  · rw [if_neg he]
    by_cases hl : limit < data.length
    · rw [if_pos hl]
      exact Dialogue.abides_fail _
    · rw [if_neg hl]
      exact hf

lemma abides_readUltralightC {first n : UInt8} {options : Options}
    (h : Q ⟨(Request.readUltralightC options first n).command, none⟩) :
    (readUltralightC first n options).Abides Q Malformed false :=
  abides_ensurePages <| abides_decode (fun p => Payload.onlyMalformed_slice p 0 _) h false

lemma abides_writeUltralight {data : Bytes} {mask : UInt16}
    (h : Q ⟨(Request.writeUltralight mask data).command, none⟩) :
    (writeUltralight data mask).Abides Q Malformed false :=
  .unless fun _ => .unless fun _ => abides_decode onlyMalformed_writtenUid h false

lemma abides_writeUltralightC {data : Bytes} {first n : UInt8} {options : Options}
    (h : Q ⟨(Request.writeUltralightC options first n data).command, none⟩) :
    (writeUltralightC data first n options).Abides Q Malformed false :=
  abides_ensurePages <| .unless fun _ => abides_decode onlyMalformed_writtenUid h false

end Mifare

lemma MifareOperation.abides_talk (op : MifareOperation)
    (h : ∀ key nonce, op ≠ .authenticateUltralightC key nonce) :
    op.talk.Abides (Call.Among Mifare.Request.command op.Sends) Malformed false := by
  cases op with
  | readUltralight offset len => exact (Mifare.abides_readUltralight ⟨_, rfl, rfl⟩).map _
  | readUltralightAll => exact (Mifare.abides_readUltralight ⟨_, rfl, rfl⟩).map _
  | readUltralightUserData => exact (Mifare.abides_readUltralight ⟨_, rfl, rfl⟩).map _
  | readUltralightC first n options =>
    exact (Mifare.abides_readUltralightC ⟨_, rfl, rfl⟩).map _
  | readUltralightCUserData => exact (Mifare.abides_readUltralightC ⟨_, rfl, rfl⟩).map _
  | writeUltralight data mask => exact (Mifare.abides_writeUltralight ⟨_, rfl, rfl⟩).map _
  | writeUltralightUserData data =>
    exact Dialogue.Abides.map
      (Mifare.abides_ensureUserData (Mifare.abides_writeUltralight ⟨_, rfl, rfl⟩)) _
  | writeUltralightC data first n options =>
    exact (Mifare.abides_writeUltralightC ⟨_, rfl, rfl⟩).map _
  | writeUltralightCUserData data =>
    exact Dialogue.Abides.map
      (Mifare.abides_ensureUserData (Mifare.abides_writeUltralightC ⟨_, rfl, rfl⟩)) _
  | readSector sector auth mask =>
    exact Dialogue.Abides.map (abides_ofDecode (fun p => Payload.onlyMalformed_prefixed p 0)
      (Dialogue.abides_require ⟨_, rfl, rfl⟩ false)) _
  | writeSector data sector auth mask =>
    refine Dialogue.Abides.map (Dialogue.Abides.unless fun _ => ?_) _
    exact abides_ofDecode (t := Talk.exchangeWithin _ _) Mifare.onlyMalformed_writtenUid
      (Dialogue.abides_require ⟨_, rfl, rfl⟩ false)
  | writeTrailers mask trailers =>
    exact Dialogue.Abides.map (.unless fun hm => .unless fun _ =>
      abides_ofDecode Mifare.onlyMalformed_writtenUid
        (Dialogue.abides_require ⟨_, ⟨Nat.not_le.1 hm, rfl⟩, rfl⟩ false)) _
  | authenticateUltralightC key nonce => exact absurd rfl (h key nonce)

namespace Operation

variable (b : Iso14443b.Session)

/-- A question that the caller gives, or one of the requests of an operation. -/
def Asks (op : Operation) (q : Call) : Prop :=
  op.Plain ∨ ∃ r, op.Sends b r ∧ q.command = r.command

/-- **Every operation asks by its requests, and complains in its way.** -/
theorem abides_talk (op : Operation) : (op.talk b).Abides (op.Asks b) op.Complains false := by
  by_cases hplain : op.Plain
  · -- A plain exchange asks what the caller gives; only its complaints are known.
    cases op with
    | reader op =>
      cases op with
      | exchange c => exact ((abides_exchange (.inl hplain) _).map _).map _
      | exchangeOptional c => exact ((abides_exchangeOptional (.inl hplain) _).map _).map _
      | exchangeWithin c bound => exact ((Dialogue.abides_require (.inl hplain) _).map _).map _
      | exchangeBytes body =>
        exact Dialogue.Abides.map (Dialogue.Abides.map (Dialogue.abides_check fun c _ =>
          abides_exchange (.inl hplain) _) _) _
      | _ => exact absurd hplain id
    | _ => exact absurd hplain id
  cases op with
  | reader op =>
    exact ((op.abides_talk hplain).map _).imp (fun q ⟨r, hr, hq⟩ => .inr ⟨.reader r, hr, hq⟩)
      fun _ hf => hf
  | iso14443a op =>
    exact (op.abides_talk.map _).imp (fun q ⟨r, hr, hq⟩ => .inr ⟨.iso14443a r, hr, hq⟩)
      fun _ hf => hf
  | iso14443b op =>
    exact (op.abides_talk b).imp (fun q ⟨r, hr, hq⟩ => .inr ⟨.iso14443b r, hr, hq⟩) fun _ hf => hf
  | iso15693 op =>
    exact (op.abides_talk.map _).imp (fun q ⟨r, hr, hq⟩ => .inr ⟨.iso15693 r, hr, hq⟩)
      fun _ hf => hf
  | icode op =>
    exact (op.abides_talk.map _).imp (fun q ⟨r, hr, hq⟩ => .inr ⟨.icode r, hr, hq⟩) fun _ hf => hf
  | picopass op =>
    exact (op.abides_talk.map _).imp (fun q ⟨r, hr, hq⟩ => .inr ⟨.picopass r, hr, hq⟩)
      fun _ hf => hf
  | mifare op =>
    -- One of the macros is no request of its own family, and complains in its own way.
    by_cases hkey : ∃ key nonce, op = .authenticateUltralightC key nonce
    · obtain ⟨key, nonce, rfl⟩ := hkey
      refine Dialogue.Abides.map (Dialogue.Abides.map (Dialogue.abides_check fun s _ => ?_) _) _
      exact (Iso14443a.abides_authenticate s nonce
        fun message short => .inr ⟨.iso14443a _, ⟨message, short, rfl⟩, rfl⟩).unanswered
    · have hnot (key : Bytes) (nonce : Block) : op ≠ .authenticateUltralightC key nonce :=
        fun h => hkey ⟨key, nonce, h⟩
      refine ((op.abides_talk hnot).map _).imp (fun q ⟨r, hr, hq⟩ => .inr ⟨.mifare r, ?_, hq⟩) ?_
      · cases op with
        | authenticateUltralightC key nonce => exact absurd rfl (hnot key nonce)
        | _ => exact hr
      · cases op with
        | authenticateUltralightC key nonce => exact absurd rfl (hnot key nonce)
        | _ => exact fun _ hf => hf

variable {e : Engine σ} {b} {op : Operation}

/-- What an operation sends are the frames of its requests. -/
lemma exists_query_of_sent (hplain : ¬op.Plain) (s : σ) {frame : Bytes}
    (hmem : frame ∈ (op.perform e.recorded b { inner := s }).1.state.frames) :
    ∃ r, op.Sends b r ∧ Frame.encode e.trailer r.command.body = .ok frame := by
  obtain ⟨x, hx, hframe⟩ := (e.transmits_perform op b s).exists_of_mem hmem
  obtain hp | ⟨r, hr, hcommand⟩ := Engine.call_of_abides (op.abides_talk b) s x hx
  · exact absurd hp hplain
  · exact ⟨r, hr, by rw [← hcommand]; exact hframe⟩

/-- An operation that fails after a payload complains in its way. -/
lemma complains_of_answered (s : σ)
    (ha : Engine.answeredLast (e.exchanges (op.talk b) s) false = true) {f : Fault}
    (hf : (op.perform e b s).1.result = .error f) : op.Complains f := by
  refine Engine.fault_of_abides (op.abides_talk b) s ha ?_
  rw [(op.perform_spec e b s).1] at hf
  cases hr : (e.conduct (op.talk b) s).result with
  | ok a =>
    rw [hr] at hf
    cases hf
  | error g =>
    rw [hr] at hf
    exact congrArg _ (Except.error.inj hf)

end Operation

end TagReader
