/-
# Responders

Who answers on a scripted link once its queue is empty: a reader with a simulated Ultralight C
tag before it, a reader that echoes the command, or one that always gives the same reply.  All
of them speak frames with the standard trailer.
-/
import TagReader.Link.Script
import TagReader.UltralightC.Tag

namespace TagReader

/-- Who answers on a scripted link. -/
inductive Responder where
  /-- A reader that passes raw messages through to a tag. -/
  | tag (t : UltralightC.Tag)
  /-- A reader that sends the command back. -/
  | echo
  /-- A reader that always sends the same frame. -/
  | constant (frame : Bytes)
deriving DecidableEq

namespace Responder

/-- A reply in a frame with the standard trailer. -/
def reply (status : UInt8) (payload : Bytes) : Except Fault Bytes :=
  Frame.encodeReply Trailer.standard status payload

/-- A reader that always gives the same reply.  Its frame is made beforehand, so a payload that
fits no frame is a fault of making the responder and not of its answers. -/
def always (status : UInt8) (payload : Bytes) : Except Fault Responder := do
  let frame ← reply status payload
  pure (constant frame)

/-- The message to the tag in a command body that passes one through: it stands behind the
control byte, the code and a length byte. -/
def passedThrough? (body : Bytes) : Option Bytes :=
  match body with
  | 0xA0 :: 0xD1 :: _ :: message => some message
  | _ => none

/-- The reader's frame for a tag's reaction. -/
def carry : UltralightC.Tag.Reaction → Except Fault Bytes
  | .answer bs => reply 0x00 (UInt8.ofNat bs.length :: bs)
  | .refuse => reply 0x01 []
  | .outOfOrder => .error (.communication "step 2 before step 1")

/-- A reader with a tag before it answers a command body. -/
def throughReader (body : Bytes) (t : UltralightC.Tag) :
    Except Fault Bytes × UltralightC.Tag :=
  match passedThrough? body with
  | none => (reply 0x01 [], t)
  | some message =>
    match t.react message with
    | (reaction, t') => (carry reaction, t')

/-- The answer to a frame. -/
def respond (frame : Bytes) (r : Responder) : Except Fault Bytes × Responder :=
  match r with
  | constant answer => (.ok answer, r)
  | echo =>
    match Frame.decodeCommand Trailer.standard frame with
    | .ok body => (reply 0x00 body, r)
    | .error f => (.error f, r)
  | tag t =>
    match Frame.decodeCommand Trailer.standard frame with
    | .error f => (.error f, r)
    | .ok body =>
      match throughReader body t with
      | (answer, t') => (answer, tag t')

end Responder

end TagReader
