/-
# The raw channel to a tag

Raw messages go to the active tag in a command of the reader, and the tag's answer comes back in the
reply to it.  In both directions the bytes stand behind a byte that counts them, inside a frame that
counts itself, and the two counts have different limits.  This file says that nothing else happens
to the bytes.

* `Iso14443a.guarded_passThrough`: the message is asked for by one question if a byte can count it.
  What fits a frame can be counted, so that the frame alone decides (`Iso14443a.countable_of_fits`).
* `Engine.serve_of_received`: a sound reply that comes back is what the exchange is judged by, at
  whatever attempt it comes.
* `Payload.prefixed_of_short`: what is shorter than its length is missed, where the same reader finds
  what stands behind its length (`Payload.prefixed_of_counted`).

The main result is `Iso14443a.passThrough_transparent`.
-/
import TagReader.Proofs.Conveyance
import TagReader.Proofs.Validation

namespace TagReader

variable {σ : Type}

/-! ## Replies that come back -/

namespace Frame

variable {t : Trailer} {status : UInt8} {payload raw : Bytes}

lemma decode_of_encodeReply (h : encodeReply t status payload = .ok raw) :
    decode t raw = .ok ⟨Octets.fill 3 0, status, payload⟩ :=
  decode_eq_ok_iff.2 (encodeReply_eq_ok_iff.1 h)

/-- A reader can make a frame around what leaves room for five bytes and the trailer. -/
lemma exists_encodeReply_iff :
    (∃ raw, encodeReply t status payload = .ok raw) ↔ payload.length + 5 + t.len ≤ 255 := by
  by_cases hlong : maxLength < headerLength + payload.length + t.len
  · rw [encodeReply, if_pos hlong]
    rw [maxLength, headerLength] at hlong
    exact iff_of_false (by rintro ⟨raw, ⟨⟩⟩) (by omega)
  · rw [encodeReply, if_neg hlong]
    rw [maxLength, headerLength] at hlong
    exact iff_of_true ⟨_, rfl⟩ (by omega)

end Frame

/-- An attempt during which a frame came back is one that was answered by it. -/
lemma Attempt.course_of_received {t : Trailer} {a : Attempt t} {frame raw : Bytes} {ms : Nat}
    (h : Event.received ms (.ok raw) ∈ a.events frame ms) : a.course = .answered raw := by
  rw [Attempt.events, List.mem_append] at h
  rcases h with h | h
  · cases hcourse : a.course with
    | unsent f => simp [hcourse, Course.events] at h
    | unanswered f => simp [hcourse, Course.events] at h
    | answered raw' =>
      have hraw : raw = raw' := by simpa [hcourse, Course.events] using h
      rw [hraw]
  · simp at h

/-- A sound reply ends the attempts, so the exchange is judged by it. -/
lemma Attempts.answer_of_received {t : Trailer} {bound : Nat} {k : Attempts t bound}
    {frame raw : Bytes} {ms : Nat} {reply : Reply}
    (h : Event.received ms (.ok raw) ∈ k.events frame ms)
    (hreply : Frame.decode t raw = .ok reply) : k.answer = Engine.judge (.ok reply) := by
  obtain ⟨a, ha, hreceived⟩ := List.mem_flatMap.1 h
  have houtcome : a.outcome = .ok reply := by
    rw [Attempt.outcome, Attempt.course_of_received hreceived]
    exact hreply
  rw [← Engine.judge_outcome]
  rcases List.mem_append.1 ha with hearlier | hlast
  · have htransient := k.earlier_transient a hearlier
    rw [houtcome] at htransient
    cases htransient
  · rw [← List.mem_singleton.1 hlast, houtcome]

namespace Engine

variable {e : Engine σ} {q : Call} {frame raw : Bytes} {s : σ} {reply : Reply}

/-- A sound reply that comes back during an exchange is what the exchange is judged by. -/
lemma serve_of_received (hf : Frame.encode e.trailer q.command.body = .ok frame)
    (hreply : Frame.decode e.trailer raw = .ok reply)
    (h : Event.received e.settings.timeoutMs (.ok raw) ∈
      (e.recorded.serve q { inner := s }).state.events) :
    (e.recorded.serve q { inner := s }).result = judge (.ok reply) := by
  obtain ⟨k, hresult, hevents⟩ := e.attempts_recorded q.command frame
    (q.bound.getD e.settings.retries) (q.bound.getD e.settings.retries) { inner := s }
  rw [serve_of_encode (e := e.recorded) hf] at h ⊢
  have hreceived : Event.received e.settings.timeoutMs (.ok raw) ∈
      [] ++ k.events frame e.settings.timeoutMs := hevents ▸ h
  exact hresult.trans (k.answer_of_received hreceived hreply)

/-- If the link takes the frame and yields a sound reply, then that comes back. -/
lemma received_of_receive (hf : Frame.encode e.trailer q.command.body = .ok frame)
    (hreply : Frame.decode e.trailer raw = .ok reply)
    (hsend : (e.link.send frame s).result = .ok ())
    (hreceive : (e.link.receive e.settings.timeoutMs (e.link.send frame s).state).result =
      .ok raw) :
    Event.received e.settings.timeoutMs (.ok raw) ∈
      (e.recorded.serve q { inner := s }).state.events := by
  have hst : Recorded.Shows ({ inner := s } : Recorded σ) s := ⟨rfl, rfl, rfl⟩
  obtain ⟨hsent, hshows⟩ := e.link.recorded_corresponds.send frame hst
  obtain ⟨hgot, -⟩ := e.link.recorded_corresponds.receive e.settings.timeoutMs hshows
  obtain ⟨hconverse, hstate⟩ :=
    converse_answered (e := e.recorded) (hsent.trans hsend) (hgot.trans hreceive)
  have hattempt : (e.recorded.attempt frame { inner := s }).result = .ok reply := by
    rw [result_attempt, hconverse]
    exact hreply
  have hsettled : endsTransient (e.recorded.converse frame { inner := s }).result = false := by
    rw [← result_attempt, hattempt]
    rfl
  rw [(serve_of_reply (e := e.recorded) hf hattempt).2, state_attempt_settled hsettled, hstate]
  have hevents := events_receive e (e.recorded.link.send frame { inner := s }).state
    e.settings.timeoutMs
  have hraw : (e.recorded.link.receive e.settings.timeoutMs
      (e.recorded.link.send frame { inner := s }).state).result = .ok raw := hgot.trans hreceive
  rw [hraw] at hevents
  show _ ∈ (e.recorded.link.receive e.settings.timeoutMs _).state.events
  rw [hevents]
  exact List.mem_append_right _ List.mem_cons_self

end Engine

/-! ## Operations that ask one question -/

section Operations

variable {P : Prop} {q : Call} {r : Bytes → Except Fault Finding} {d : Talk Finding}
  {op : Operation} {b : Iso14443b.Session}

lemma AsksOnce.state_perform (h : AsksOnce q r d) (htalk : op.talk b = d >>= fun a => pure (a, b))
    (e : Engine σ) (s : σ) : (op.perform e b s).1.state = (e.serve q s).state := by
  rw [(op.perform_spec e b s).2, htalk, (e.conduct_map d (fun a => (a, b)) s).2]
  exact (h.conduct e s).2.1

/-- Where the condition fails or the command does not fit, the operation is refused before the link
is used. -/
lemma Guarded.refused_perform (h : Guarded P q r d)
    (htalk : op.talk b = d >>= fun a => pure (a, b)) (e : Engine σ) (s : σ)
    (hnot : ¬(P ∧ Frame.Fits e.trailer q.command.body)) :
    Refused (op.perform e b s).1.result ∧ (op.perform e b s).1.state = s := by
  by_cases hP : P
  · have hasks := h.asks hP
    obtain ⟨text, hserve⟩ := Engine.serve_of_not_fits (e := e) fun hf => hnot ⟨hP, hf⟩
    rw [(hasks.perform op b htalk e s).1, hasks.state_perform htalk e s, (hserve s).1,
      (hserve s).2]
    exact ⟨⟨text, rfl⟩, rfl⟩
  · obtain ⟨text, rfl⟩ := h.fails hP
    obtain ⟨hresult, hstate⟩ := op.perform_spec e b s
    rw [hresult, hstate, htalk]
    exact ⟨⟨text, rfl⟩, rfl⟩

end Operations

/-! ## Bytes behind their length -/

namespace Payload

/-- Where fewer bytes stand than are announced, as many are missed. -/
lemma prefixed_of_short {p : Bytes} (h : p.length < 1 + (p.headD 0).toNat) :
    prefixed p 0 = .error (.invalidLength (1 + (p.headD 0).toNat) p.length) := by
  cases p with
  | nil => rfl
  | cons n p =>
    rw [List.headD_cons] at h ⊢
    show slice (n :: p) 1 n.toNat = _
    rw [slice, ensure, if_pos h]
    rfl

end Payload

namespace Iso14443a

/-! ## Messages -/

/-- The code of the command that passes messages through at a layer. -/
def Layer.code : Layer → UInt8
  | three => 0xD1
  | four => 0xD2

/-- The command that carries a message to the tag. -/
def carrier (layer : Layer) (message : Bytes) : Command :=
  ⟨0xA0, layer.code, UInt8.ofNat message.length :: message⟩

variable {t : Trailer} {layer : Layer} {message : Bytes}

lemma fits_carrier_iff :
    Frame.Fits t (carrier layer message).body ↔ message.length + 4 + t.len ≤ 255 := by
  have hlength : (carrier layer message).body.length = message.length + 3 := rfl
  rw [Frame.Fits, Frame.maxLength, hlength]
  omega

/-- What fits a frame can be counted by a byte, with room to spare. -/
lemma countable_of_fits (h : Frame.Fits t (carrier layer message).body) :
    message.length < 256 := by
  have hfits := fits_carrier_iff.1 h
  omega

/-- A message is asked for by one question, if a byte can count it. -/
lemma guarded_passThrough (layer : Layer) (message : Bytes) :
    Guarded (message.length < 256) ⟨carrier layer message, none⟩
      (fun p => Payload.prefixed p 0) (passThrough layer message) := by
  rw [passThrough]
  by_cases h : message.length < 256
  · rw [dif_pos h]
    refine ⟨fun _ => ?_, fun hnot => absurd h hnot⟩
    cases layer with
    | three => exact .require _ _
    | four => exact .require _ _
  · rw [dif_neg h]
    exact ⟨fun hlt => absurd hlt h, fun _ => ⟨_, rfl⟩⟩

/-- **The raw channel is transparent.**  Over any link and under any trailer, a message is sent if
and only if it fits a frame with the four bytes in front of it; otherwise it is refused, and the
link is not used.  Every frame that is sent carries the message behind its length, and nothing else.
A reply of the reader decides, at whatever attempt it comes: if an answer of the tag stands in front
of its payload, behind its length, then the operation yields this answer, whatever follows.  Readers
can make such a reply for every answer that fits a frame with the six bytes in front of it.  If the
payload has fewer bytes than it announces, then they are missed. -/
theorem passThrough_transparent (e : Engine σ) (layer : Layer) (message : Bytes)
    (b : Iso14443b.Session) (s : σ) :
    let op := Operation.iso14443a (.passThrough layer message)
    let body := [0xA0, layer.code, UInt8.ofNat message.length] ++ message
    let run := op.perform e.recorded b { inner := s }
    let comes (raw : Bytes) := Event.received e.settings.timeoutMs (.ok raw) ∈ run.1.state.events
    (op.perform e b s).1.result = run.1.result ∧
      if message.length + 4 + e.trailer.len ≤ 255 then
        ∃ frame, Frame.encode e.trailer body = .ok frame ∧
          Frame.decodeCommand e.trailer frame = .ok body ∧
          (∃ n ≤ e.settings.retries, run.1.state.frames = List.replicate (n + 1) frame) ∧
          (∀ (answer rest : Bytes),
            (∃ raw, Frame.encodeReply e.trailer 0
              (UInt8.ofNat answer.length :: (answer ++ rest)) = .ok raw) ↔
              answer.length + rest.length + 6 + e.trailer.len ≤ 255) ∧
          ∀ payload raw, Frame.encodeReply e.trailer 0 payload = .ok raw →
            ((e.link.send frame s).result = .ok () →
              (e.link.receive e.settings.timeoutMs (e.link.send frame s).state).result =
                .ok raw → comes raw) ∧
            (∀ answer rest, payload = UInt8.ofNat answer.length :: (answer ++ rest) →
              comes raw → run.1.result = .ok (.bytes answer)) ∧
            (payload.length < 1 + (payload.headD 0).toNat → comes raw →
              run.1.result =
                .error (.invalidLength (1 + (payload.headD 0).toNat) payload.length))
      else Refused run.1.result ∧ run.1.state = { inner := s } := by
  intro op body run comes
  have hst : Recorded.Shows ({ inner := s } : Recorded σ) s := ⟨rfl, rfl, rfl⟩
  have hguarded := (guarded_passThrough layer message).map Finding.bytes
  have htalk : op.talk b = Talk.find .bytes (passThrough layer message) >>= fun a => pure (a, b) :=
    rfl
  refine ⟨(e.recorded_corresponds.perform op b hst).1.symm, ?_⟩
  split
  case isTrue hroom =>
    have hfits : Frame.Fits e.trailer (carrier layer message).body := fits_carrier_iff.2 hroom
    have hasks := hguarded.asks (countable_of_fits hfits)
    have hencode := Frame.encode_of_fits hfits
    have hresult := (hasks.perform op b htalk e.recorded { inner := s }).1
    have hstate := hasks.state_perform htalk e.recorded { inner := s }
    obtain ⟨answer, hsent⟩ := (hasks.perform op b htalk e s).2
    have hlong : 2 ≤ (carrier layer message).body.length := Nat.le_add_left 2 (message.length + 1)
    -- A payload that comes back is taken apart, and nothing else is done with it.
    have hyields {payload raw : Bytes} (hraw : Frame.encodeReply e.trailer 0 payload = .ok raw)
        (hcomes : comes raw) : run.1.result = (Payload.prefixed payload 0).map .bytes := by
      have hcomes : _ ∈ run.1.state.events := hcomes
      rw [hstate] at hcomes
      rw [Engine.serve_of_received hencode (Frame.decode_of_encodeReply hraw) hcomes] at hresult
      exact hresult
    refine ⟨_, hencode, Frame.decodeCommand_eq_ok_iff.2 ⟨hlong, hencode⟩,
      hsent.of_encode hencode, ?_, ?_⟩
    · intro answer rest
      rw [Frame.exists_encodeReply_iff, List.length_cons, List.length_append]
    · intro payload raw hraw
      refine ⟨?_, ?_, ?_⟩
      · intro hsend hreceive
        show _ ∈ run.1.state.events
        rw [hstate]
        exact Engine.received_of_receive hencode (Frame.decode_of_encodeReply hraw) hsend hreceive
      · rintro answer rest rfl hcomes
        have hlen := Frame.exists_encodeReply_iff.1 ⟨raw, hraw⟩
        rw [List.length_cons, List.length_append] at hlen
        rw [hyields hraw hcomes, Payload.prefixed_of_counted (by omega) rest]
        rfl
      · intro hshort hcomes
        rw [hyields hraw hcomes, Payload.prefixed_of_short hshort]
        rfl
  case isFalse hroom =>
    exact hguarded.refused_perform htalk e.recorded { inner := s } fun h =>
      hroom (fits_carrier_iff.1 h.2)

end Iso14443a

end TagReader
