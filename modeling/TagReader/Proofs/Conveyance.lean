/-
# A simulated tag behind a reader

A message to the active tag travels in a command of the reader, and what the tag answers in the
reply to it.  This file follows one message to the simulated Ultralight C tag and back.

* `UltralightC.Tag.react_proof`: a tag that has sent its challenge accepts the proof of a host with
  the same key and gives its own.  It does so once; after that the message is out of order
  (`UltralightC.Tag.react_spent`).
* `Responder.respond_conveyance`: the reader hands the message on, and the tag's reaction back.
* `Engine.channel_eq`: for the host, a message to the tag is one exchange with the reader.
-/
import TagReader.Link.Responder
import TagReader.Proofs.Acts
import TagReader.Proofs.Framing
import TagReader.Proofs.Handshake

namespace TagReader

/-! ## The tag -/

namespace UltralightC

lemma take_drop_toBytes (b : UInt8) (x : Block) : ((b :: x.toBytes).drop 1).take 8 = x.toBytes :=
  rfl

lemma carried_toBytes (b : UInt8) (x : Block) : carried (b :: x.toBytes) = x := by
  rw [carried, take_drop_toBytes, Block.ofBytes_toBytes]

section Proof

variable (c : BlockCipher) (nonce challenge : Block)

lemma length_proofMessage : (proofMessage (proof c nonce challenge)).length = 17 := by
  rw [proofMessage_eq]
  rfl

lemma proofMessage_ne_opening : proofMessage (proof c nonce challenge) ≠ opening := by
  intro h
  have hlen := congrArg List.length h
  rw [length_proofMessage] at hlen
  exact absurd hlen (by decide)

/-- Read block by block, the host's message is its proof again. -/
lemma ofBytes_drop_proofMessage :
    Block.ofBytes ((proofMessage (proof c nonce challenge)).drop 1) =
        firstBlock c nonce challenge ∧
      Block.ofBytes ((proofMessage (proof c nonce challenge)).drop 9) =
        lastBlock c nonce challenge := by
  rw [proofMessage_eq]
  exact ⟨Block.ofBytes_append _ _, Block.ofBytes_toBytes _⟩

end Proof

namespace Tag

variable (t : Tag) (nonce : Block)

/-- The challenge that a tag sends. -/
def issued : Block := (Des.twoKey t.key).encrypt t.nonce

/-- The tag after it has sent its challenge. -/
def opened : Tag := { t with challenge := some t.issued }

/-- The tag after it has used its challenge. -/
def spent : Tag := { t with challenge := none }

lemma react_opening : t.react opening = (.answer (continues :: t.issued.toBytes), t.opened) :=
  if_pos rfl

lemma react_spent {message : Bytes} (h : message ≠ opening) :
    t.spent.react message = (.outOfOrder, t.spent) :=
  if_neg h

/-- A tag that finds its own nonce gives its proof. -/
lemma check_of_decryptChain {challenge x y host : Block}
    (h : (Des.twoKey t.key).decryptChain challenge [x, y] = [host, t.nonce.rotate]) :
    t.check challenge x y = 0x00 :: ((Des.twoKey t.key).encrypt (host.rotate ^^^ y)).toBytes := by
  simp only [check, h, if_true, BlockCipher.encryptChain, List.flatMap_singleton]

/-- The host's proof under the tag's challenge is accepted, and uses the challenge up. -/
lemma react_proof :
    let c := Des.twoKey t.key
    t.opened.react (proofMessage (proof c nonce t.issued)) =
      (.answer (0x00 :: (counterproof c nonce t.issued).toBytes), t.spent) := by
  intro c
  obtain ⟨hfirst, hlast⟩ := ofBytes_drop_proofMessage c nonce t.issued
  -- The tag undoes the chaining of the host, which has undone the encryption of the challenge.
  have hplain : c.decryptChain t.issued [firstBlock c nonce t.issued, lastBlock c nonce t.issued] =
      [nonce, t.nonce.rotate] := by
    rw [← proof_eq, proof, c.decryptChain_encryptChain, issued, c.decrypt_encrypt]
  have hcheck := t.opened.check_of_decryptChain hplain
  have hseventeen : ¬(proofMessage (proof c nonce t.issued)).length ≠ 17 :=
    not_not.2 (length_proofMessage c nonce t.issued)
  rw [Block.rotate_eq] at hcheck
  simp only [react, if_neg (proofMessage_ne_opening c nonce t.issued), if_neg hseventeen, hfirst,
    hlast]
  exact congrArg (fun bs => (Reaction.answer bs, t.spent)) hcheck

end Tag
end UltralightC

/-! ## The reader -/

namespace Responder

/-- The body of the command that passes a message on. -/
def conveyance (message : Bytes) : Bytes := 0xA0 :: 0xD1 :: UInt8.ofNat message.length :: message

variable {message frame bs : Bytes}

lemma exists_frame (h : message.length ≤ 249) :
    ∃ frame, Frame.encode Trailer.standard (conveyance message) = .ok frame := by
  have hfits : Frame.Fits Trailer.standard (conveyance message) := by
    show 1 + (message.length + 1 + 1 + 1) + 2 ≤ 255
    omega
  exact ⟨_, Frame.encode_of_fits hfits⟩

lemma respond_conveyance (h : Frame.encode Trailer.standard (conveyance message) = .ok frame)
    (t : UltralightC.Tag) :
    respond frame (.tag t) = (carry (t.react message).1, .tag (t.react message).2) := by
  have hbody : Frame.decodeCommand Trailer.standard frame = .ok (conveyance message) :=
    Frame.decodeCommand_eq_ok_iff.2 ⟨by simp [conveyance], h⟩
  rw [respond, hbody]
  rfl

/-- What a tag answers arrives behind its length. -/
lemma decode_carry (h : bs.length ≤ 247) :
    (carry (.answer bs)).bind (Frame.decode Trailer.standard) =
      .ok ⟨Octets.fill 3 0, 0x00, UInt8.ofNat bs.length :: bs⟩ := by
  have hfits : ¬Frame.maxLength < Frame.headerLength + (UInt8.ofNat bs.length :: bs).length +
      Trailer.standard.len := by
    show ¬255 < 5 + (bs.length + 1) + 2
    omega
  have hframe : reply 0x00 (UInt8.ofNat bs.length :: bs) = .ok _ := if_neg hfits
  rw [carry, hframe]
  exact Frame.decode_eq_ok_iff.2 (Frame.encodeReply_eq_ok_iff.1 hframe)

end Responder

/-! ## The host -/

namespace Payload

variable {bs : Bytes}

/-- What stands in front, behind its length, is found. -/
lemma prefixed_of_counted (h : bs.length < 256) (rest : Bytes) :
    prefixed (UInt8.ofNat bs.length :: (bs ++ rest)) 0 = .ok bs := by
  have hcount : (UInt8.ofNat bs.length).toNat = bs.length := UInt8.toNat_ofNat_of_lt h
  have hslice : slice (UInt8.ofNat bs.length :: (bs ++ rest)) 1 bs.length = .ok bs := by
    rw [slice_eq_ok_iff]
    simp only [List.drop_one, List.tail_cons, List.take_left, List.length_cons,
      List.length_append, and_true]
    omega
  show slice (UInt8.ofNat bs.length :: (bs ++ rest)) 1 (UInt8.ofNat bs.length).toNat = .ok bs
  rw [hcount, hslice]

lemma prefixed_of_length (h : bs.length < 256) :
    prefixed (UInt8.ofNat bs.length :: bs) 0 = .ok bs := by
  have hcounted := prefixed_of_counted h []
  rwa [List.append_nil] at hcounted

end Payload

/-- A message to the active tag is one exchange, whose payload holds the tag's answer. -/
lemma Engine.channel_eq {σ : Type} (e : Engine σ) {message : Bytes} (h : message.length < 256)
    (s : σ) :
    let o := e.exchange (Iso14443a.Request.passThrough .three message h).command s
    (e.channel message s).result = o.result.bind (Payload.prefixed · 0) ∧
      (e.channel message s).state = o.state := by
  intro o
  have hdialogue : Iso14443a.passThrough .three message =
      (Talk.exchange (Iso14443a.Request.passThrough .three message h).command >>=
        fun p => Dialogue.ofExcept (Payload.prefixed p 0)) := dif_pos h
  obtain ⟨hresult, hstate⟩ := e.conduct_bind
    (Talk.exchange (Iso14443a.Request.passThrough .three message h).command)
    (fun p => Dialogue.ofExcept (Payload.prefixed p 0)) s
  rw [conduct_exchange, Run.result_bind] at hresult
  rw [conduct_exchange, Run.state_bind] at hstate
  rw [channel, hdialogue, hresult, hstate]
  rcases (e.exchange (Iso14443a.Request.passThrough .three message h).command s).result with f | p
  · exact ⟨rfl, rfl⟩
  · dsimp only [Except.bind]
    cases Payload.prefixed p 0 <;> exact ⟨rfl, rfl⟩

end TagReader
