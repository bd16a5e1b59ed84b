/-
# The form of frames

Frames of both directions are made in the same way: a byte that counts, a body, and the trailer
over both.  The body is that of a command (`Command.body`), or that of a reply (`Reply.body`): three
reserved bytes, the status and the payload.  So every reading of a frame can be said by the encoder:

* a frame opens to some bytes exactly if it is the frame around them (`openFrame_eq_ok_iff`);
* hence a frame carries a command or a reply exactly if it is the frame around its body
  (`decodeCommand_eq_ok_iff`, `decode_eq_ok_iff`);
* a frame that does not open has a wrong length, or a right one and a wrong trailer.

The main results are `Frame.decode_inbound`, which says byte by byte what a frame from the reader
is, and `Frame.decodeCommand_outbound`, on what the host sends and the reader makes of it.
-/
import Mathlib.Data.List.Basic
import TagReader.Proofs.Transmissions
import TagReader.Reader

namespace TagReader

variable {σ : Type}

/-- The body of a reply, as it stands in a frame. -/
def Reply.body (r : Reply) : Bytes := r.reserved.bytes ++ r.status :: r.payload

lemma Reply.length_body (r : Reply) : r.body.length = 4 + r.payload.length := by
  rw [body, List.length_append, r.reserved.length_eq, List.length_cons]
  omega

namespace Frame

variable {t : Trailer} {frame body data : Bytes} {least : Nat}

/-! ## The parts of a frame -/

/-- The bytes of a frame in front of its trailer. -/
def content (t : Trailer) (frame : Bytes) : Bytes := frame.take (frame.length - t.len)

/-- The bytes of a frame in the place of its trailer. -/
def check (t : Trailer) (frame : Bytes) : Bytes := frame.drop (frame.length - t.len)

/-- A frame has the length that it declares, and room for `least` bytes and its trailer. -/
structure Sized (t : Trailer) (least : Nat) (frame : Bytes) : Prop where
  counted : declared frame = frame.length
  least_le : least + t.len ≤ frame.length

lemma content_append_check (t : Trailer) (frame : Bytes) :
    content t frame ++ check t frame = frame :=
  List.take_append_drop _ _

lemma length_closed (t : Trailer) (data : Bytes) :
    (closed t data).length = data.length + t.len := by
  rw [closed, List.length_append, t.length_compute]

lemma content_closed (t : Trailer) (data : Bytes) : content t (closed t data) = data := by
  rw [content, length_closed, Nat.add_sub_cancel, closed, List.take_left]

lemma check_closed (t : Trailer) (data : Bytes) : check t (closed t data) = t.compute data := by
  rw [check, length_closed, Nat.add_sub_cancel, closed, List.drop_left]

/-! ## Opening a frame -/

lemma openFrame_of_not_sized (h : ¬Sized t least frame) :
    openFrame t least frame = .error (.frameLength (declared frame) frame.length) := by
  refine if_pos ?_
  by_contra hsize
  rw [not_or, not_not, Nat.not_lt] at hsize
  exact h ⟨hsize.1.symm, hsize.1 ▸ hsize.2⟩

/-- The trailer decides on a frame of the right length. -/
lemma openFrame_of_sized (h : Sized t least frame) :
    openFrame t least frame =
      if t.compute (content t frame) = check t frame then .ok (content t frame)
      else .error (.checksumMismatch (t.compute (content t frame)) (check t frame)) := by
  have hsize : ¬(frame.length ≠ declared frame ∨ declared frame < least + t.len) := by
    rw [not_or, not_not, Nat.not_lt, h.counted]
    exact ⟨rfl, h.least_le⟩
  by_cases hc : t.compute (content t frame) = check t frame
  · have hv : t.verify (content t frame) (check t frame) = .ok () := if_pos hc
    unfold content check at hv
    rw [if_pos hc, openFrame, if_neg hsize]
    dsimp only
    rw [hv]
    rfl
  · have hv : t.verify (content t frame) (check t frame) =
        .error (.checksumMismatch (t.compute (content t frame)) (check t frame)) := if_neg hc
    unfold content check at hv
    rw [if_neg hc, openFrame, if_neg hsize]
    dsimp only
    rw [hv]
    rfl

lemma encode_eq_ok_iff : encode t body = .ok frame ↔
    Fits t body ∧ frame = closed t (UInt8.ofNat (1 + body.length + t.len) :: body) := by
  by_cases hfit : Fits t body
  · rw [encode_of_fits hfit]
    exact ⟨fun h => ⟨hfit, (Except.ok.inj h).symm⟩, fun h => congrArg _ h.2.symm⟩
  · obtain ⟨text, ht⟩ := encode_of_not_fits hfit
    rw [ht]
    exact iff_of_false (by rintro ⟨⟩) fun h => hfit h.1

/-- What is opened begins with a byte that counts, and an encoder would have put the same one. -/
lemma exists_body_of_sized (h : Sized t (least + 1) frame)
    (hc : t.compute (content t frame) = check t frame) :
    ∃ body, least ≤ body.length ∧ encode t body = .ok frame ∧
      content t frame = UInt8.ofNat (1 + body.length + t.len) :: body := by
  have hclosed : frame = closed t (content t frame) := by
    rw [closed, hc, content_append_check]
  have hlen : frame.length = (content t frame).length + t.len := by
    rw [← length_closed, ← hclosed]
  have hle := h.least_le
  rcases hcontent : content t frame with _ | ⟨first, body⟩
  · rw [hcontent, List.length_nil] at hlen
    omega
  · rw [hcontent] at hclosed hlen
    rw [List.length_cons] at hlen
    -- The first byte is the length, so that its value is the one that an encoder puts there.
    have hcount : first.toNat = 1 + body.length + t.len := by
      have hdeclared := h.counted
      rw [hlen, hclosed, closed, declared, List.cons_append, List.headD_cons] at hdeclared
      omega
    have hfirst : first = UInt8.ofNat (1 + body.length + t.len) := by
      rw [← hcount, UInt8.ofNat_toNat]
    have hfit : Fits t body := by
      have hbyte := first.toNat_lt
      unfold Fits maxLength
      omega
    refine ⟨body, by omega, encode_eq_ok_iff.2 ⟨hfit, ?_⟩, by rw [← hfirst]⟩
    rwa [← hfirst]

/-- A frame opens to the bytes that it was made around. -/
lemma openFrame_eq_ok_iff : openFrame t (least + 1) frame = .ok data ↔
    ∃ body, least ≤ body.length ∧ encode t body = .ok frame ∧
      data = UInt8.ofNat (1 + body.length + t.len) :: body := by
  constructor
  · intro h
    by_cases hs : Sized t (least + 1) frame
    · rw [openFrame_of_sized hs] at h
      by_cases hc : t.compute (content t frame) = check t frame
      · rw [if_pos hc] at h
        obtain rfl := Except.ok.inj h
        exact exists_body_of_sized hs hc
      · rw [if_neg hc] at h
        cases h
    · rw [openFrame_of_not_sized hs] at h
      cases h
  · rintro ⟨body, hlen, henc, rfl⟩
    obtain ⟨-, hclosed⟩ := encode_eq_ok_iff.1 henc
    have hs : Sized t (least + 1) frame := by
      refine ⟨(declared_of_encode henc).2, ?_⟩
      rw [hclosed, length_closed, List.length_cons]
      omega
    rw [openFrame_of_sized hs, hclosed, content_closed, check_closed, if_pos rfl]

/-! ## Commands and replies -/

lemma decodeCommand_eq_ok_iff :
    decodeCommand t frame = .ok body ↔ 2 ≤ body.length ∧ encode t body = .ok frame := by
  constructor
  · intro h
    rcases ho : openFrame t (2 + 1) frame with f | data
    · rw [decodeCommand, ho] at h
      cases h
    · obtain ⟨body', hlen, henc, rfl⟩ := openFrame_eq_ok_iff.1 ho
      rw [decodeCommand, ho] at h
      obtain rfl : body' = body := Except.ok.inj h
      exact ⟨hlen, henc⟩
  · rintro ⟨hlen, henc⟩
    rw [decodeCommand, openFrame_eq_ok_iff.2 ⟨body, hlen, henc, rfl⟩]
    rfl

lemma decode_eq_ok_iff {r : Reply} : decode t frame = .ok r ↔ encode t r.body = .ok frame := by
  constructor
  · intro h
    rcases ho : openFrame t (4 + 1) frame with f | data
    · rw [decode, headerLength, ho] at h
      cases h
    · obtain ⟨body, hlen, henc, rfl⟩ := openFrame_eq_ok_iff.1 ho
      -- The body has the four bytes in front of the payload, so the places of a reply exist.
      obtain ⟨x, y, z, status, payload, rfl⟩ :
          ∃ x y z status payload, body = x :: y :: z :: status :: payload := by
        match body, hlen with
        | x :: y :: z :: status :: payload, _ => exact ⟨x, y, z, status, payload, rfl⟩
      rw [decode, headerLength, ho] at h
      obtain rfl := Except.ok.inj h
      exact henc
  · intro henc
    have hlen : 4 ≤ r.body.length := by
      rw [r.length_body]
      omega
    have ho := openFrame_eq_ok_iff.2 ⟨r.body, hlen, henc, rfl⟩
    rw [decode, headerLength, ho]
    obtain ⟨⟨reserved, hres⟩, status, payload⟩ := r
    obtain ⟨x, y, z, rfl⟩ := List.length_eq_three.1 hres
    rfl

lemma decode_of_not_sized (h : ¬Sized t headerLength frame) :
    decode t frame = .error (.frameLength (declared frame) frame.length) := by
  rw [decode, openFrame_of_not_sized h]
  rfl

lemma decode_of_mismatch (h : Sized t headerLength frame)
    (hc : t.compute (content t frame) ≠ check t frame) :
    decode t frame =
      .error (.checksumMismatch (t.compute (content t frame)) (check t frame)) := by
  rw [decode, openFrame_of_sized h, if_neg hc]
  rfl

/-- Readers make the frame around a reply without reserved bits. -/
lemma encodeReply_eq_ok_iff {status : UInt8} {payload : Bytes} :
    encodeReply t status payload = .ok frame ↔
      encode t (Reply.body ⟨Octets.fill 3 0, status, payload⟩) = .ok frame := by
  have htotal : 1 + (Reply.body ⟨Octets.fill 3 0, status, payload⟩).length + t.len =
      headerLength + payload.length + t.len := by
    rw [Reply.length_body, headerLength]
    dsimp only
    omega
  rw [encode_eq_ok_iff, Fits, htotal]
  by_cases hlong : maxLength < headerLength + payload.length + t.len
  · rw [encodeReply, if_pos hlong]
    exact iff_of_false (by rintro ⟨⟩) fun h => absurd h.1 (Nat.not_le.2 hlong)
  · rw [encodeReply, if_neg hlong]
    exact ⟨fun h => ⟨Nat.not_lt.1 hlong, (Except.ok.inj h).symm⟩, fun h => congrArg _ h.2.symm⟩

lemma encode_injective {body body' : Bytes} (h : encode t body = .ok frame)
    (h' : encode t body' = .ok frame) : body = body' := by
  obtain ⟨-, hclosed⟩ := encode_eq_ok_iff.1 h
  obtain ⟨-, hclosed'⟩ := encode_eq_ok_iff.1 h'
  have hcontent := congrArg (content t) (hclosed.symm.trans hclosed')
  rw [content_closed, content_closed] at hcontent
  exact (List.cons.inj hcontent).2

/-! ## Frames from the reader -/

/-- The form of a frame from the reader. -/
structure Inbound (t : Trailer) (frame : Bytes) : Prop where
  /-- There is room for the header and the trailer. -/
  least_le : 5 + t.len ≤ frame.length
  /-- The first byte is the number of all bytes. -/
  counted : frame.head?.map UInt8.toNat = some frame.length
  /-- The last bytes are the trailer over all bytes before them. -/
  closing : check t frame = t.compute (content t frame)

/-- The places of a reply in its frame. -/
structure Carries (t : Trailer) (frame : Bytes) (r : Reply) : Prop where
  /-- Three bytes behind the first one. -/
  reserved : r.reserved.bytes = (frame.drop 1).take 3
  /-- The fifth byte. -/
  status : frame[4]? = some r.status
  /-- All bytes from there to the trailer. -/
  payload : r.payload = (content t frame).drop 5

/-- The first byte of a frame of the right length counts all its bytes. -/
lemma sized_iff (h : 0 < least) : Sized t least frame ↔
    frame.head?.map UInt8.toNat = some frame.length ∧ least + t.len ≤ frame.length := by
  rcases frame with _ | ⟨first, rest⟩
  · refine iff_of_false (fun hs => ?_) fun hs => by cases hs.1
    have hle := hs.least_le
    rw [List.length_nil] at hle
    omega
  · exact ⟨fun hs => ⟨congrArg some hs.counted, hs.least_le⟩,
      fun hs => ⟨Option.some.inj hs.1, hs.2⟩⟩

lemma inbound_iff : Inbound t frame ↔
    Sized t headerLength frame ∧ t.compute (content t frame) = check t frame := by
  rw [sized_iff (by decide)]
  exact ⟨fun h => ⟨⟨h.counted, h.least_le⟩, h.closing.symm⟩,
    fun h => ⟨h.1.2, h.1.1, h.2.symm⟩⟩

lemma Inbound.length_le (h : Inbound t frame) : frame.length ≤ 255 := by
  obtain ⟨first, -, hfirst⟩ := Option.map_eq_some_iff.1 h.counted
  have hbyte := first.toNat_lt
  omega

lemma inbound_of_decode {r : Reply} (h : decode t frame = .ok r) : Inbound t frame := by
  rw [inbound_iff]
  by_cases hs : Sized t headerLength frame
  · refine ⟨hs, ?_⟩
    by_contra hc
    rw [decode_of_mismatch hs hc] at h
    cases h
  · rw [decode_of_not_sized hs] at h
    cases h

lemma carries_of_decode {r : Reply} (h : decode t frame = .ok r) : Carries t frame r := by
  obtain ⟨-, hclosed⟩ := encode_eq_ok_iff.1 (decode_eq_ok_iff.1 h)
  obtain ⟨⟨reserved, hres⟩, status, payload⟩ := r
  obtain ⟨x, y, z, rfl⟩ := List.length_eq_three.1 hres
  rw [hclosed]
  refine ⟨rfl, rfl, ?_⟩
  rw [content_closed]
  rfl

lemma exists_reply_of_inbound (h : Inbound t frame) : ∃ r, decode t frame = .ok r := by
  obtain ⟨hs, hc⟩ := inbound_iff.1 h
  exact ⟨_, by rw [decode, openFrame_of_sized hs, if_pos hc]; rfl⟩

lemma decode_of_not_inbound (h : ¬Inbound t frame) :
    decode t frame = .error (.frameLength (declared frame) frame.length) ∨
      decode t frame =
        .error (.checksumMismatch (t.compute (content t frame)) (check t frame)) := by
  by_cases hs : Sized t headerLength frame
  · exact .inr (decode_of_mismatch hs fun hc => h (inbound_iff.2 ⟨hs, hc⟩))
  · exact .inl (decode_of_not_sized hs)

/-- **The frames that the host accepts.**  A frame carries a reply exactly if it has the form of a
frame from the reader, and the reply is then found at its places; a frame of any other form is
refused by a transient fault.  Any status and any payload can be put into a frame as long as that
has at most 255 bytes, and they are found in it again; and the frames that carry a reply without
reserved bits are the ones made in this way. -/
theorem decode_inbound (t : Trailer) :
    (∀ frame,
      ((∃ r, decode t frame = .ok r) ↔ Inbound t frame) ∧
      (∀ r, decode t frame = .ok r → Carries t frame r) ∧
      (¬Inbound t frame →
        decode t frame = .error (.frameLength (declared frame) frame.length) ∨
          decode t frame =
            .error (.checksumMismatch (t.compute (content t frame)) (check t frame))) ∧
      ∀ f, decode t frame = .error f → f.isTransient = true) ∧
    (∀ status payload,
      if 5 + payload.length + t.len ≤ 255 then
        ∃ frame, encodeReply t status payload = .ok frame ∧
          decode t frame = .ok ⟨Octets.fill 3 0, status, payload⟩
      else ∃ text, encodeReply t status payload = .error (.validation text)) ∧
    ∀ frame r, decode t frame = .ok r → r.reserved = Octets.fill 3 0 →
      encodeReply t r.status r.payload = .ok frame := by
  refine ⟨fun frame => ⟨⟨?_, exists_reply_of_inbound⟩, fun r => carries_of_decode,
    decode_of_not_inbound, fun f => isTransient_of_decode⟩, fun status payload => ?_, ?_⟩
  · rintro ⟨r, hr⟩
    exact inbound_of_decode hr
  · by_cases hfit : 5 + payload.length + t.len ≤ 255
    · rw [if_pos hfit]
      have hok : encodeReply t status payload = .ok _ := if_neg (Nat.not_lt.2 hfit)
      exact ⟨_, hok, decode_eq_ok_iff.2 (encodeReply_eq_ok_iff.1 hok)⟩
    · rw [if_neg hfit]
      exact ⟨_, if_pos (Nat.not_le.1 hfit)⟩
  · rintro frame ⟨_, status, payload⟩ hr rfl
    exact encodeReply_eq_ok_iff.2 (decode_eq_ok_iff.1 hr)

end Frame

/-! ## Frames to the reader -/

namespace Engine

variable (e : Engine σ)

/-- Asking one question and failing with its fault is the exchange itself. -/
lemma conduct_exchange (c : Command) : e.conduct (Talk.exchange c) = e.exchange c := by
  funext s
  have hserve : e.serve ⟨c, none⟩ = e.exchange c := rfl
  rcases h : e.exchange c s with ⟨_ | payload, s', notes⟩
  · simp only [conduct, Talk.exchange, Dialogue.require, Dialogue.run, Run.andThen, Run.attempt,
      hserve, h, Dialogue.ofExcept, Run.fail, List.append_nil]
  · simp only [conduct, Talk.exchange, Dialogue.require, Dialogue.run, Run.andThen, Run.attempt,
      hserve, h, Dialogue.ofExcept, Run.value, List.append_nil]

lemma conduct_exchangeBytes (c : Command) :
    e.conduct (Reader.exchangeBytes c.body) = e.exchange c :=
  e.conduct_exchange c

lemma conduct_exchangeBytes_short {body : Bytes} (h : body.length < 2) :
    ∃ text, ∀ s, e.conduct (Reader.exchangeBytes body) s = ⟨.error (.validation text), s, []⟩ := by
  match body, h with
  | [], _ => exact ⟨_, fun _ => rfl⟩
  | [_], _ => exact ⟨_, fun _ => rfl⟩

end Engine

/-- **What the host sends is what the reader decodes.**  A command can be sent exactly if its frame
has at most 255 bytes; the frame counts its bytes, the reader finds the body of the command in it
and in the body the command, and an exchange of the command sends this frame and no other.  The
reader accepts no other frames than those made around a body of two bytes or more, and commands
with the same frame are the same.  Over every link, a recorded one included, a command given by its
body is exchanged like the command, and a body of fewer than two bytes is refused without a call. -/
theorem Frame.decodeCommand_outbound (t : Trailer) :
    (∀ c : Command,
      if 3 + c.params.length + t.len ≤ 255 then
        ∃ frame, encode t c.body = .ok frame ∧
          frame.head?.map UInt8.toNat = some frame.length ∧
          decodeCommand t frame = .ok c.body ∧ Command.ofBody c.body = .ok c ∧
          ∀ {σ : Type} (e : Engine σ) (s : Recorded σ), e.trailer = t →
            ∃ retries ≤ e.settings.retries,
              (e.recorded.exchange c s).state.frames =
                s.frames ++ List.replicate (retries + 1) frame
      else ∃ text, encode t c.body = .error (.validation text)) ∧
    (∀ frame body,
      decodeCommand t frame = .ok body ↔ 2 ≤ body.length ∧ encode t body = .ok frame) ∧
    (∀ (c c' : Command) frame,
      encode t c.body = .ok frame → encode t c'.body = .ok frame → c = c') ∧
    ∀ {σ : Type} (e : Engine σ), e.trailer = t →
      (∀ c : Command, e.conduct (Reader.exchangeBytes c.body) = e.exchange c) ∧
      ∀ body : Bytes, body.length < 2 → ∃ text, ∀ s,
        e.conduct (Reader.exchangeBytes body) s = ⟨.error (.validation text), s, []⟩ := by
  refine ⟨fun c => ?_, fun frame body => decodeCommand_eq_ok_iff, fun c c' frame h h' => ?_,
    fun e _ => ⟨e.conduct_exchangeBytes, fun body => e.conduct_exchangeBytes_short⟩⟩
  · have hfits : Fits t c.body ↔ 3 + c.params.length + t.len ≤ 255 := by
      unfold Fits maxLength
      rw [Command.length_body]
      omega
    by_cases hfit : 3 + c.params.length + t.len ≤ 255
    · rw [if_pos hfit]
      have hok := encode_of_fits (hfits.2 hfit)
      refine ⟨_, hok, ?_, decodeCommand_eq_ok_iff.2 ⟨?_, hok⟩, c.ofBody_body, ?_⟩
      · exact congrArg some (declared_of_encode hok).2
      · rw [Command.length_body]
        omega
      · rintro σ e s rfl
        exact e.frames_exchangeWithin hok _ s
    · rw [if_neg hfit]
      exact encode_of_not_fits (mt hfits.1 hfit)
  · have hbody := congrArg Command.ofBody (encode_injective h h')
    rw [Command.ofBody_body, Command.ofBody_body] at hbody
    exact Except.ok.inj hbody

end TagReader
