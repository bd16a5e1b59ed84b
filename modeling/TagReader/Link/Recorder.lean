/-
# Recording a link

A recorder stands between an engine and a link.  It keeps every call with its result, and it
can be told to let some of the calls fail by themselves, without reaching the link: for
`send` and for `discard` there is a list of faults, one for each call to come.
-/
import TagReader.Link.Basic

namespace TagReader

/-- One call on a link, with what came of it. -/
inductive Event where
  /-- A frame was sent. -/
  | sent (frame : Bytes) (result : Except Fault Unit)
  /-- A frame was awaited for so many milliseconds. -/
  | received (timeoutMs : Nat) (result : Except Fault Bytes)
  /-- Stale input was dropped. -/
  | discarded (result : Except Fault Unit)

/-- The state of a recorded link. -/
structure Recorded (σ : Type) where
  /-- The state of the link behind the recorder. -/
  inner : σ
  /-- The calls so far, oldest first. -/
  events : List Event := []
  /-- What happens to the next sends: a fault, or nothing special. -/
  sendFaults : List (Option Fault) := []
  /-- What happens to the next discards. -/
  discardFaults : List (Option Fault) := []

namespace Recorded

variable {σ α : Type}

/-- Runs a call on the link behind the recorder and keeps it as an event. -/
def observe (event : Except Fault α → Event) (call : Run σ α) : Run (Recorded σ) α := fun s =>
  match call s.inner with
  | ⟨r, inner, ns⟩ => ⟨r, { s with inner := inner, events := s.events ++ [event r] }, ns⟩

/-- Fails without reaching the link, and keeps that as an event. -/
def refuse (event : Except Fault α → Event) (e : Fault) : Run (Recorded σ) α := fun s =>
  ⟨.error e, { s with events := s.events ++ [event (.error e)] }, []⟩

/-- Forgets the events kept so far. -/
def clear (s : Recorded σ) : Recorded σ := { s with events := [] }

end Recorded

/-- A link behind a recorder. -/
def Link.recorded {σ : Type} (l : Link σ) : Link (Recorded σ) where
  send frame := fun s =>
    let s' := { s with sendFaults := s.sendFaults.tail }
    match s.sendFaults.head?.join with
    | some e => Recorded.refuse (.sent frame) e s'
    | none => Recorded.observe (.sent frame) (l.send frame) s'
  receive ms := Recorded.observe (.received ms) (l.receive ms)
  discard := fun s =>
    let s' := { s with discardFaults := s.discardFaults.tail }
    match s.discardFaults.head?.join with
    | some e => Recorded.refuse .discarded e s'
    | none => Recorded.observe .discarded l.discard s'

end TagReader
