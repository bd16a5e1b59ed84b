/-
# Frames

Host and reader exchange frames.  A frame starts with a byte that counts all its bytes, the
count and the trailer included, so a frame has at most 255 bytes.

* Towards the reader: length, command body, trailer.
* From the reader: length, three reserved bytes, status, payload, trailer.

Both directions have an encoder and a decoder here: hosts encode commands and decode
replies, readers (and their simulations) do the reverse.  The trailer follows the bytes that
it protects, so a frame is `closed t data`, its data followed by their trailer.
-/
import TagReader.Trailer

namespace TagReader

/-- A reply from the reader.  Its status has not been judged yet. -/
structure Reply where
  /-- Three bytes of the header without a meaning. -/
  reserved : Octets 3
  /-- What the reader reports; zero is success. -/
  status : UInt8
  /-- The bytes between the status and the trailer. -/
  payload : Bytes
deriving DecidableEq

/-- Whether the reader reports success. -/
def Reply.isSuccess (r : Reply) : Bool := r.status == 0

namespace Frame

/-- The most bytes that a frame can have. -/
def maxLength : Nat := 255

/-- The bytes in front of the payload of a reply: length, reserved, status. -/
def headerLength : Nat := 5

/-- Data followed by their trailer. -/
def closed (t : Trailer) (data : Bytes) : Bytes := data ++ t.compute data

/-- The frame around the body of a command. -/
def encode (t : Trailer) (body : Bytes) : Except Fault Bytes :=
  let total := 1 + body.length + t.len
  if maxLength < total then
    .error (.validation
      s!"command of {body.length} bytes does not fit in a {maxLength} byte frame")
  else .ok (closed t (UInt8.ofNat total :: body))

/-- The body of a command fits a frame. -/
def Fits (t : Trailer) (body : Bytes) : Prop := 1 + body.length + t.len ≤ maxLength

instance (t : Trailer) (body : Bytes) : Decidable (Fits t body) :=
  inferInstanceAs (Decidable (_ ≤ _))

theorem encode_of_fits {t : Trailer} {body : Bytes} (h : Fits t body) :
    encode t body = .ok (closed t (UInt8.ofNat (1 + body.length + t.len) :: body)) :=
  if_neg (Nat.not_lt.2 h)

theorem encode_of_not_fits {t : Trailer} {body : Bytes} (h : ¬Fits t body) :
    ∃ text, encode t body = .error (.validation text) :=
  ⟨_, if_pos (Nat.not_le.1 h)⟩

theorem exists_of_encode_eq_error {t : Trailer} {body : Bytes} {f : Fault}
    (h : encode t body = .error f) : ∃ text, f = .validation text := by
  by_cases hfit : Fits t body
  · simp [encode_of_fits hfit] at h
  · obtain ⟨text, ht⟩ := encode_of_not_fits hfit
    rw [ht] at h
    exact ⟨text, (Except.error.inj h).symm⟩

/-- The frame around a reply, as a reader builds it. -/
def encodeReply (t : Trailer) (status : UInt8) (payload : Bytes) : Except Fault Bytes :=
  let total := headerLength + payload.length + t.len
  if maxLength < total then
    .error (.validation
      s!"payload of {payload.length} bytes does not fit in a {maxLength} byte frame")
  else .ok (closed t (UInt8.ofNat total :: 0 :: 0 :: 0 :: status :: payload))

/-- The number of bytes that a frame claims to have. -/
def declared (frame : Bytes) : Nat := (frame.headD 0).toNat

/-- The bytes of a frame that its trailer protects, once the frame has the length that it
declares, is not shorter than `least` and its trailer is right. -/
def openFrame (t : Trailer) (least : Nat) (frame : Bytes) : Except Fault Bytes :=
  if frame.length ≠ declared frame ∨ declared frame < least + t.len then
    .error (.frameLength (declared frame) frame.length)
  else
    let data := frame.take (frame.length - t.len)
    match t.verify data (frame.drop (frame.length - t.len)) with
    | .ok _ => .ok data
    | .error e => .error e

/-- A frame that is sent has the length that it declares. -/
theorem declared_of_encode {t : Trailer} {body frame : Bytes} (h : encode t body = .ok frame) :
    frame ≠ [] ∧ declared frame = frame.length := by
  by_cases hfit : Fits t body
  · rw [encode_of_fits hfit] at h
    cases h
    unfold Fits maxLength at hfit
    refine ⟨by simp [closed], ?_⟩
    simp only [closed, declared, List.cons_append, List.headD_cons, List.length_cons,
      List.length_append, t.length_compute, UInt8.toNat_ofNat']
    omega
  · obtain ⟨text, ht⟩ := encode_of_not_fits hfit
    rw [ht] at h
    cases h

/-- A frame that cannot be opened fails by its length or by its trailer. -/
theorem isTransient_of_openFrame {t : Trailer} {least : Nat} {frame : Bytes} {f : Fault}
    (h : openFrame t least frame = .error f) : f.isTransient = true := by
  unfold openFrame at h
  split at h
  · cases h
    rfl
  · dsimp only [Trailer.verify] at h
    split at h
    · cases h
    · rename_i hv
      split at hv
      · cases hv
      · cases hv
        cases h
        rfl

/-- Reads a frame from the reader. -/
def decode (t : Trailer) (frame : Bytes) : Except Fault Reply := do
  let data ← openFrame t headerLength frame
  pure ⟨Octets.window 3 1 data, data.getD 4 0, data.drop headerLength⟩

/-- A frame that is no reply is worth another attempt. -/
theorem isTransient_of_decode {t : Trailer} {frame : Bytes} {f : Fault}
    (h : decode t frame = .error f) : f.isTransient = true := by
  unfold decode at h
  cases ho : openFrame t headerLength frame with
  | ok data =>
    rw [ho] at h
    cases h
  | error g =>
    rw [ho] at h
    cases h
    exact isTransient_of_openFrame ho

/-- Reads a frame towards the reader, and yields the body of the command. -/
def decodeCommand (t : Trailer) (frame : Bytes) : Except Fault Bytes := do
  let data ← openFrame t 3 frame
  pure (data.drop 1)

end Frame

end TagReader
