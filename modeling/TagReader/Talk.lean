/-
# Talking to the reader

The operations of the library are dialogues whose questions are commands to the reader.  This
file holds the three ways in which they ask: plainly, with a bound on retries of their own,
and allowing for "nothing there", where a status other than success is an answer too.
-/
import TagReader.Engine.Basic
import TagReader.Payload

namespace TagReader

/-- An operation that talks to the reader. -/
abbrev Talk (α : Type) : Type := Dialogue Call α

namespace Talk

/-- The payload of the reply to a command. -/
def exchange (c : Command) : Talk Bytes := Dialogue.require ⟨c, none⟩

/-- The same with a bound on retries of its own. -/
def exchangeWithin (bound : Nat) (c : Command) : Talk Bytes := Dialogue.require ⟨c, some bound⟩

/-- The note that a status is taken for "nothing there". -/
def absentText (c : Command) (status : UInt8) : String :=
  c.label ++ ": status " ++ Hex.code status ++ ", no result"

/-- The payload of the reply to a command; none if the reader reports a failure. -/
def exchangeOptional (c : Command) : Talk (Option Bytes) :=
  .ask ⟨c, none⟩ fun
    | .ok payload => .done (some payload)
    | .error (.readerStatus status) => .note ⟨.debug, absentText c status⟩ (.done none)
    | .error f => .fail f

/-- An exchange of which only the success matters. -/
def order (c : Command) : Talk Unit := do
  let _ ← exchange c
  pure ()

/-- A value that must be right before anything is asked. -/
def ensure (r : Except Fault Unit) : Talk Unit := Dialogue.ofExcept r

/-- The payload of an optional reply, taken apart if it is there. -/
def decoded {α : Type} (decode : Bytes → Except Fault α) (p : Option Bytes) : Talk (Option α) :=
  match p with
  | some payload => do
    let a ← (Dialogue.ofExcept (decode payload) : Talk α)
    pure (some a)
  | none => pure none

end Talk

end TagReader
