/-
# A handshake over a lossy link

Host and tag hold the same key, but messages get lost on the way to the reader or back.  The host
repeats its attempts, and the tag does not know a repetition from a first message:

* an opening may reach the tag any number of times, and each time it sends the same challenge
  (`reachedAfter_opening`);
* the host's proof uses the challenge up when it first reaches the tag, and from then on it is out
  of order (`reachedAfter_proof`).  The reader does not answer then, which is a fault and not a
  rejected key.

So an exchange with the tag ends with the first attempt that brings its answer, which is the first
intact one for the opening (`Engine.channel_opening`), and for the proof the first one that arrives
at all, if it is intact (`Engine.channel_proof`).  The main result,
`UltralightC.Session.run_over_losses`, puts both together.
-/
import TagReader.Proofs.Conveyance
import TagReader.Proofs.Losses

namespace TagReader

open UltralightC

variable {message frame bs : Bytes} {fates : Nat → Fate} {t : Tag}

/-! ## When a tag answers -/

namespace Fate

/-- The first attempts have not arrived. -/
def Unreached (fates : Nat → Fate) (n : Nat) : Prop := ∀ i < n, fates i = .requestLost

/-- The attempt is the first one that arrives, and its reply arrives too. -/
def Answered (fates : Nat → Fate) (n : Nat) : Prop := Unreached fates n ∧ fates n = .intact

lemma unreached_succ {n : Nat} :
    Unreached fates (n + 1) ↔ Unreached fates n ∧ fates n = .requestLost :=
  Nat.forall_lt_succ_right

lemma answered_iff {n : Nat} :
    Answered fates n ↔ First (fun n => fates n ≠ .requestLost) n ∧ fates n = .intact := by
  constructor
  · rintro ⟨hlost, hfate⟩
    exact ⟨⟨by simp [hfate], fun i hi => not_not.2 (hlost i hi)⟩, hfate⟩
  · rintro ⟨hfirst, hfate⟩
    exact ⟨fun i hi => not_not.1 (hfirst.2 i hi), hfate⟩

lemma Answered.first {n : Nat} (h : Answered fates n) : First (Answered fates) n := by
  refine ⟨h, fun i hi hi' => ?_⟩
  have hlost := h.1 i hi
  rw [hi'.2] at hlost
  cases hlost

end Fate

/-! ## The tag over some attempts -/

section Attempts

open Responder (conveyance respond carry)

variable {r : Responder} {n : Nat}

lemma heardAt_lost (hfate : fates n ≠ .intact) :
    Fate.heardAt respond Trailer.standard frame r fates n = .error .timeout := by
  rw [Fate.heardAt]
  cases h : fates n with
  | intact => exact absurd h hfate
  | requestLost => rfl
  | replyLost => rfl

lemma reachedAfter_requestLost (hfate : fates n = .requestLost) :
    Fate.reachedAfter respond frame r fates (n + 1) =
      Fate.reachedAfter respond frame r fates n := by
  rw [Fate.reachedAfter, hfate, Fate.reached]

section Tag

variable (hframe : Frame.encode Trailer.standard (conveyance message) = .ok frame)
variable (hreached : Fate.reachedAfter respond frame r fates n = .tag t)
include hframe hreached

lemma heardAt_intact (hfate : fates n = .intact) :
    Fate.heardAt respond Trailer.standard frame r fates n =
      (carry (t.react message).1).bind (Frame.decode Trailer.standard) := by
  rw [Fate.heardAt, hfate, hreached, Fate.heard, Responder.respond_conveyance hframe]

lemma reachedAfter_arrived (hfate : fates n ≠ .requestLost) :
    Fate.reachedAfter respond frame r fates (n + 1) = .tag (t.react message).2 := by
  rw [Fate.reachedAfter, hreached]
  cases h : fates n with
  | requestLost => exact absurd h hfate
  | intact => rw [Fate.reached, Responder.respond_conveyance hframe]
  | replyLost => rw [Fate.reached, Responder.respond_conveyance hframe]

end Tag

/-- Openings leave the tag as it was, but for the challenge that it remembers. -/
lemma reachedAfter_opening
    (hframe : Frame.encode Trailer.standard (conveyance opening) = .ok frame) (n : Nat) :
    ∃ challenge,
      Fate.reachedAfter respond frame (.tag t) fates n = .tag { t with challenge } := by
  induction n with
  | zero => exact ⟨t.challenge, rfl⟩
  | succ n ih =>
    obtain ⟨challenge, hreached⟩ := ih
    by_cases hfate : fates n = .requestLost
    · exact ⟨challenge, by rw [reachedAfter_requestLost hfate, hreached]⟩
    · refine ⟨some t.issued, ?_⟩
      rw [reachedAfter_arrived hframe hreached hfate, Tag.react_opening]
      rfl

/-- The host's proof uses the challenge up once it has arrived. -/
lemma reachedAfter_proof {nonce : Block}
    (hframe : Frame.encode Trailer.standard (conveyance
      (proofMessage (proof (Des.twoKey t.key) nonce t.issued))) = .ok frame) (n : Nat) :
    (Fate.Unreached fates n →
      Fate.reachedAfter respond frame (.tag t.opened) fates n = .tag t.opened) ∧
      (¬Fate.Unreached fates n →
        Fate.reachedAfter respond frame (.tag t.opened) fates n = .tag t.spent) := by
  induction n with
  | zero => exact ⟨fun _ => rfl, fun h => absurd (fun i hi => absurd hi (Nat.not_lt_zero i)) h⟩
  | succ n ih =>
    obtain ⟨hopened, hspent⟩ := ih
    rw [Fate.unreached_succ]
    by_cases hfate : fates n = .requestLost
    · rw [reachedAfter_requestLost hfate]
      exact ⟨fun h => hopened h.1, fun h => hspent fun hn => h ⟨hn, hfate⟩⟩
    · refine ⟨fun h => absurd h.2 hfate, fun _ => ?_⟩
      by_cases hn : Fate.Unreached fates n
      · rw [reachedAfter_arrived hframe (hopened hn) hfate, Tag.react_proof]
      · rw [reachedAfter_arrived hframe (hspent hn) hfate,
          Tag.react_spent _ (proofMessage_ne_opening _ _ _)]

end Attempts

/-! ## One message to the tag -/

namespace Engine

open Responder (conveyance respond carry)

variable (settings : Settings) {s : Lossy (Script Responder)}

/-- If some attempts bring a certain answer and all others none, the first one of them ends the
exchange. -/
lemma channel_lossy {r : Responder} {p : Nat → Prop} (hmessage : message.length ≤ 249)
    (hframe : Frame.encode Trailer.standard (conveyance message) = .ok frame)
    (hbs : bs.length ≤ 247) (h : s.Faces r fates)
    (hanswer : ∀ n, p n → Fate.heardAt respond Trailer.standard frame r fates n =
      (carry (.answer bs)).bind (Frame.decode Trailer.standard))
    (hnone : ∀ n, ¬p n →
      endsTransient (Fate.heardAt respond Trailer.standard frame r fates n) = true) :
    let o := (lossy respond Trailer.standard settings).channel message s
    (∀ k ≤ settings.retries, First p k → o.result = .ok bs ∧
        o.state.Faces (Fate.reachedAfter respond frame r fates (k + 1))
          (fun n => fates (k + 1 + n))) ∧
      ((∀ k ≤ settings.retries, ¬p k) → ∃ f, o.result = .error f) := by
  intro o
  have hshort : message.length < 256 := by omega
  obtain ⟨hresult, hstate⟩ :=
    (lossy respond Trailer.standard settings).channel_eq hshort s
  have hexchange : (lossy respond Trailer.standard settings).exchange
        (Iso14443a.Request.passThrough .three message hshort).command =
      (lossy respond Trailer.standard settings).attempts _ frame settings.retries
        settings.retries :=
    exchangeWithin_of_encode hframe
  obtain ⟨hends, hfails⟩ := attempts_lossy respond Trailer.standard frame settings
    (Iso14443a.Request.passThrough .three message hshort).command settings.retries
    settings.retries h
  rw [← hexchange] at hends hfails
  have hsettled (n : Nat) :
      endsTransient (Fate.heardAt respond Trailer.standard frame r fates n) = false ↔ p n := by
    by_cases hn : p n
    · rw [hanswer n hn, Responder.decode_carry hbs]
      exact iff_of_true rfl hn
    · rw [hnone n hn]
      exact iff_of_false (by decide) hn
  simp only [hsettled] at hends
  refine ⟨fun k hk hfirst => ?_, fun hall => ?_⟩
  · obtain ⟨hres, hfaces⟩ := hends k hk hfirst
    rw [hanswer k hfirst.1, Responder.decode_carry hbs] at hres
    refine ⟨?_, hstate ▸ hfaces⟩
    rw [show o.result = _ from hresult, hres]
    exact Payload.prefixed_of_length (by omega)
  · obtain ⟨f, hf⟩ := hfails fun k hk => hnone k (hall k hk)
    exact ⟨f, by rw [show o.result = _ from hresult, hf]; rfl⟩

/-- The tag's challenge comes with the first attempt that is intact. -/
lemma channel_opening (h : s.Faces (.tag t) fates) :
    let o := (lossy respond Trailer.standard settings).channel opening s
    (∀ k ≤ settings.retries, First (fun n => fates n = .intact) k →
      o.result = .ok (continues :: t.issued.toBytes) ∧
        o.state.Faces (.tag t.opened) (fun n => fates (k + 1 + n))) ∧
      ((∀ k ≤ settings.retries, fates k ≠ .intact) → ∃ f, o.result = .error f) := by
  intro o
  have hmessage : opening.length ≤ 249 := by decide
  obtain ⟨frame, hframe⟩ := Responder.exists_frame hmessage
  have hlen : (continues :: t.issued.toBytes).length ≤ 247 := by
    rw [List.length_cons, Block.length_toBytes]
    decide
  have hanswer (n : Nat) (hn : fates n = .intact) :
      Fate.heardAt respond Trailer.standard frame (.tag t) fates n =
        (carry (.answer (continues :: t.issued.toBytes))).bind (Frame.decode Trailer.standard) := by
    obtain ⟨challenge, hreached⟩ := reachedAfter_opening (t := t) hframe n
    rw [heardAt_intact hframe hreached hn, Tag.react_opening]
    rfl
  have hnone (n : Nat) (hn : fates n ≠ .intact) :
      endsTransient (Fate.heardAt respond Trailer.standard frame (.tag t) fates n) = true := by
    rw [heardAt_lost hn]
    rfl
  obtain ⟨hends, hfails⟩ := channel_lossy settings hmessage hframe hlen h hanswer hnone
  refine ⟨fun k hk hfirst => ?_, hfails⟩
  obtain ⟨hresult, hfaces⟩ := hends k hk hfirst
  obtain ⟨challenge, hreached⟩ := reachedAfter_opening (t := t) hframe k
  have harrived : fates k ≠ .requestLost := by simp [hfirst.1]
  rw [reachedAfter_arrived hframe hreached harrived, Tag.react_opening] at hfaces
  exact ⟨hresult, hfaces⟩

/-- The tag's own proof comes with the first attempt that arrives, or not at all. -/
lemma channel_proof (nonce : Block) (h : s.Faces (.tag t.opened) fates) :
    let c := Des.twoKey t.key
    let o := (lossy respond Trailer.standard settings).channel
      (proofMessage (proof c nonce t.issued)) s
    (∀ n ≤ settings.retries, Fate.Answered fates n →
      o.result = .ok (0x00 :: (counterproof c nonce t.issued).toBytes)) ∧
      ((∀ n ≤ settings.retries, ¬Fate.Answered fates n) → ∃ f, o.result = .error f) := by
  intro c o
  have hmessage : (proofMessage (proof c nonce t.issued)).length ≤ 249 := by
    rw [length_proofMessage]
    decide
  obtain ⟨frame, hframe⟩ := Responder.exists_frame hmessage
  have hlen : (0x00 :: (counterproof c nonce t.issued).toBytes).length ≤ 247 := by
    rw [List.length_cons, Block.length_toBytes]
    decide
  have hanswer (n : Nat) (hn : Fate.Answered fates n) :
      Fate.heardAt respond Trailer.standard frame (.tag t.opened) fates n =
        (carry (.answer (0x00 :: (counterproof c nonce t.issued).toBytes))).bind
          (Frame.decode Trailer.standard) := by
    rw [heardAt_intact hframe ((reachedAfter_proof hframe n).1 hn.1) hn.2, Tag.react_proof]
  have hnone (n : Nat) (hn : ¬Fate.Answered fates n) : endsTransient
      (Fate.heardAt respond Trailer.standard frame (.tag t.opened) fates n) = true := by
    by_cases hfate : fates n = .intact
    · -- The proof has arrived before, so that the tag finds it out of order.
      have hspent := (reachedAfter_proof hframe n).2 fun hlost => hn ⟨hlost, hfate⟩
      rw [heardAt_intact hframe hspent hfate, Tag.react_spent _ (proofMessage_ne_opening _ _ _)]
      rfl
    · rw [heardAt_lost hfate]
      rfl
  obtain ⟨hends, hfails⟩ := channel_lossy settings hmessage hframe hlen h hanswer hnone
  exact ⟨fun n hn hfate => (hends n hn hfate.first).1, hfails⟩

end Engine

/-! ## The handshake -/

namespace UltralightC

/-- Both messages get through.  Some attempt at the first one is intact, and so is the first
attempt at the second one that arrives; that begins after the first intact attempt. -/
def GetsThrough (bound : Nat) (fates : Nat → Fate) : Prop :=
  ∃ k ≤ bound, First (fun n => fates n = .intact) k ∧
    ∃ j ≤ bound, First (fun n => fates (k + 1 + n) ≠ .requestLost) j ∧
      fates (k + 1 + j) = .intact

instance (bound : Nat) (fates : Nat → Fate) : Decidable (GetsThrough bound fates) := by
  unfold GetsThrough
  infer_instance

lemma getsThrough_of_intact {bound : Nat} (h : ∀ n, fates n = .intact) :
    GetsThrough bound fates := by
  refine ⟨0, Nat.zero_le _, First.zero (h 0), 0, Nat.zero_le _, First.zero ?_, h _⟩
  simp [h]

lemma getsThrough_iff {bound k : Nat} (hk : k ≤ bound)
    (hfirst : First (fun n => fates n = .intact) k) :
    GetsThrough bound fates ↔ ∃ n ≤ bound, Fate.Answered (fun n => fates (k + 1 + n)) n := by
  simp only [Fate.answered_iff]
  refine ⟨fun ⟨i, _, hi, hrest⟩ => ?_, fun hrest => ⟨k, hk, hfirst, hrest⟩⟩
  obtain rfl := hi.unique hfirst
  exact hrest

lemma run_handshake_lossy (settings : Settings) (nonce : Block) {s : Lossy (Script Responder)}
    (h : s.Faces (.tag t) fates) :
    let e := Engine.lossy Responder.respond Trailer.standard settings
    let o := (handshake (Des.twoKey t.key) nonce).run e.channel s
    (GetsThrough settings.retries fates → o.result = .ok true) ∧
      (¬GetsThrough settings.retries fates →
        ∃ text, o.result = .error (.authentication text)) := by
  intro e o
  let c := Des.twoKey t.key
  obtain ⟨hopened, hunopened⟩ := Engine.channel_opening settings h
  by_cases hsome : ∃ k ≤ settings.retries, fates k = .intact
  · obtain ⟨k, hk, hfirst⟩ := exists_first hsome
    obtain ⟨hchallenge, hfaces⟩ := hopened k hk hfirst
    obtain ⟨hproved, hunproved⟩ := Engine.channel_proof settings nonce hfaces
    have hlen (b : UInt8) (x : Block) : 9 ≤ (b :: x.toBytes).length := by
      rw [List.length_cons, Block.length_toBytes]
    obtain ⟨hresult, -⟩ :=
      run_handshake_challenged c nonce e.channel s hchallenge (hlen _ _) rfl
    rw [carried_toBytes] at hresult
    rw [getsThrough_iff hk hfirst, show o.result = _ from hresult]
    refine ⟨fun ⟨n, hn, hanswered⟩ => ?_, fun hnot => ?_⟩
    · rw [hproved n hn hanswered, (run_settle_long c nonce _ _ _ (hlen _ _)).1,
        take_drop_toBytes, decide_eq_true rfl]
    · obtain ⟨f, hf⟩ := hunproved fun n hn hanswered => hnot ⟨n, hn, hanswered⟩
      rw [hf]
      exact ⟨_, rfl⟩
  · have hlost : ∀ k ≤ settings.retries, fates k ≠ .intact :=
      fun k hk hfate => hsome ⟨k, hk, hfate⟩
    obtain ⟨f, hf⟩ := hunopened hlost
    refine ⟨fun ⟨k, hk, hfirst, _⟩ => absurd hfirst.1 (hlost k hk), fun _ => ?_⟩
    refine (run_handshake_refused c nonce e.channel s ?_).1
    rintro ⟨bs, hbs, -⟩
    cases hf.symm.trans hbs

/-- **No loss of messages is taken for a wrong key.**  Over a link that loses messages, a try with
a tag that holds the same key succeeds exactly if both messages get through within the bound on
retries, as they do where nothing is lost.  Otherwise it is a failure; in no case has the tag
rejected the key. -/
theorem Session.run_over_losses (s : Session) (nonce tagNonce : Block) (remembered : Option Block)
    (settings : Settings) (script : Script Responder) (fates : Nat → Fate) :
    let e := Engine.lossy Responder.respond Trailer.standard settings
    let tag : Tag := ⟨s.key, tagNonce, remembered⟩
    let link : Lossy (Script Responder) :=
      { inner := { script with queue := [], responder := some (.tag tag) }, fates }
    let o := s.run e.channel nonce link
    (o.1.result = .ok true ↔ GetsThrough settings.retries fates) ∧
      (o.2.progress = .authenticated ↔ GetsThrough settings.retries fates) ∧
      ((∃ text, o.1.result = .error (.authentication text)) ↔
        ¬GetsThrough settings.retries fates) ∧
      (o.2.progress = .failed ↔ ¬GetsThrough settings.retries fates) ∧
      o.1.result ≠ .ok false ∧
      ((∀ n, fates n = .intact) → o.1.result = .ok true) := by
  intro e tag link o
  have hfaces : link.Faces (.tag tag) fates := ⟨rfl, rfl, rfl⟩
  obtain ⟨hsucceeds, hfails⟩ := run_handshake_lossy settings nonce hfaces
  have hprogress : o.2.progress = .after o.1.result := rfl
  rw [hprogress]
  by_cases hgets : GetsThrough settings.retries fates
  · have hresult : o.1.result = .ok true := hsucceeds hgets
    simp [hresult, hgets, Progress.after]
  · obtain ⟨text, hresult⟩ : ∃ text, o.1.result = .error (.authentication text) := hfails hgets
    have hloses : ¬∀ n, fates n = .intact := fun hall => hgets (getsThrough_of_intact hall)
    simp [hresult, hgets, hloses, Progress.after]

-- The opening may be repeated, but one lost reply to the proof is enough for a failure.
example : GetsThrough 3 fun n => if n = 0 then .replyLost else .intact := by decide
example : ¬GetsThrough 3 fun n => if n = 1 then .replyLost else .intact := by decide

end UltralightC
end TagReader
