/-
# A scripted link

For rehearsals without a reader there is a link that follows a script.  It keeps every frame
it is given and answers from a queue.  Once the queue is empty, a responder computes the
answer from the last frame sent, if there is a responder and a frame; otherwise nothing
arrives in time.

The script is generic in its responder; see `TagReader.Link.Responder` for those at hand.
-/
import TagReader.Crc16
import TagReader.Frame
import TagReader.Link.Basic

namespace TagReader

/-- The state of a scripted link, with a responder of type `ρ`. -/
structure Script (ρ : Type) where
  /-- The frames sent so far, oldest first. -/
  sent : List Bytes := []
  /-- What the next calls of `receive` yield. -/
  queue : List (Except Fault Bytes) := []
  /-- Who answers once the queue is empty. -/
  responder : Option ρ := none
  /-- How often `receive` has been called. -/
  receives : Nat := 0
  /-- How often `discard` has been called. -/
  discards : Nat := 0

namespace Script

variable {ρ : Type}

/-- The script with one more answer in its queue. -/
def push (answer : Except Fault Bytes) (s : Script ρ) : Script ρ :=
  { s with queue := s.queue ++ [answer] }

/-- The script with one more reply in its queue, in a frame with the standard trailer. -/
def pushReply (status : UInt8) (payload : Bytes) (s : Script ρ) : Except Fault (Script ρ) := do
  let frame ← Frame.encodeReply Trailer.standard status payload
  pure (s.push (.ok frame))

/-- The script with another responder. -/
def answeredBy (r : ρ) (s : Script ρ) : Script ρ := { s with responder := some r }

/-- The command bodies of the frames sent so far, as far as they carry the standard trailer. -/
def sentBodies (s : Script ρ) : List Bytes :=
  s.sent.filterMap fun f => (Frame.decodeCommand Trailer.standard f).toOption

/-- A frame is kept. -/
def send (frame : Bytes) : Run (Script ρ) Unit := fun s =>
  ⟨.ok (), { s with sent := s.sent ++ [frame] }, []⟩

/-- The queue answers; after it, the responder. -/
def receive (respond : Bytes → ρ → Except Fault Bytes × ρ) : Run (Script ρ) Bytes := fun s =>
  let s := { s with receives := s.receives + 1 }
  match s.queue, s.responder, s.sent.getLast? with
  | answer :: rest, _, _ => ⟨answer, { s with queue := rest }, []⟩
  | [], some r, some frame =>
    match respond frame r with
    | (answer, r') => ⟨answer, { s with responder := some r' }, []⟩
  | [], _, _ => ⟨.error .timeout, s, []⟩

/-- The call is counted. -/
def discard : Run (Script ρ) Unit := fun s => ⟨.ok (), { s with discards := s.discards + 1 }, []⟩

/-- The link that follows a script. -/
def link (respond : Bytes → ρ → Except Fault Bytes × ρ) : Link (Script ρ) where
  send := send
  receive _ := receive respond
  discard := discard

/-- How a script is shown in reports. -/
def inspect (s : Script ρ) : String :=
  Inspect.record "MockTransport"
    [("sent", toString s.sent.length), ("pending", toString s.queue.length),
      ("responder", toString s.responder.isSome)]

end Script

end TagReader
