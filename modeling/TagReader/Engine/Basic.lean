/-
# The engine

An engine owns one connection to a reader.  An *exchange* sends the frame of a command and
awaits one reply; it makes one or more *attempts* at that.

* An attempt sends the frame, waits for a frame and reads it.  When it ends in a transient
  fault, whatever is left in the input is dropped before anything else happens; how that
  call ends changes nothing.
* An exchange repeats its attempt after a transient fault, up to a bound, and always sends
  the same frame.  A reply decides it: the payload if the reader reports success, otherwise
  the status as a fault.  Every fault that is not transient ends it at once.
-/
import TagReader.Command
import TagReader.Crc16
import TagReader.Dialogue
import TagReader.Frame

namespace TagReader

/-- The read timeout of one attempt unless another one is asked for, in milliseconds. -/
def defaultTimeoutMs : Nat := 1000

/-- How often an attempt is repeated unless another bound is asked for. -/
def defaultRetries : Nat := 3

/-- How long an engine waits and how often it tries again. -/
structure Settings where
  /-- The read timeout of one attempt, in milliseconds. -/
  timeoutMs : Nat := defaultTimeoutMs
  /-- The number of further attempts after transient faults. -/
  retries : Nat := defaultRetries
deriving DecidableEq

/-- How settings are shown in reports. -/
def Settings.inspect (s : Settings) : String :=
  Inspect.record "EngineConfig"
    [("timeout_ms", toString s.timeoutMs), ("retries", toString s.retries)]

/-- A connection to a reader. -/
structure Engine (σ : Type) where
  /-- The link to the reader. -/
  link : Link σ
  /-- The trailer of every frame, in both directions. -/
  trailer : Trailer := Trailer.standard
  /-- Timeout and retries. -/
  settings : Settings := {}

/-- One question to the reader: a command, and a bound on retries where it is not the
engine's own. -/
structure Call where
  /-- The command. -/
  command : Command
  /-- The bound on retries, if it is not the engine's. -/
  bound : Option Nat := none
deriving DecidableEq

namespace Engine

variable {σ α : Type}

/-- How an engine is shown in reports. -/
def inspect (e : Engine σ) : String :=
  Inspect.record "ProtocolEngine"
    [("trailer", e.trailer.inspect), ("config", e.settings.inspect)]

/-- Sends a frame and reads the frame that comes back. -/
def converse (e : Engine σ) (frame : Bytes) : Run σ Reply := do
  e.link.send frame
  Run.note .trace ("tx: " ++ Hex.spaced frame)
  let raw ← e.link.receive e.settings.timeoutMs
  Run.note .trace ("rx: " ++ Hex.spaced raw)
  Run.ofExcept (Frame.decode e.trailer raw)

/-- Drops the input, whatever comes of that. -/
def dropInput (e : Engine σ) : Run σ Unit := do
  match ← Run.attempt e.link.discard with
  | .ok _ => pure ()
  | .error d => Run.note .debug ("discard after failed exchange: " ++ d.message)

/-- One attempt; after a transient fault the input is dropped. -/
def attempt (e : Engine σ) (frame : Bytes) : Run σ Reply := do
  match ← Run.attempt (e.converse frame) with
  | .ok reply => pure reply
  | .error f =>
    if f.isTransient then e.dropInput
    Run.fail f

/-- What an attempt means for its exchange: a payload, or the reader's status as a fault. -/
def judge (r : Except Fault Reply) : Except Fault Bytes :=
  match r with
  | .ok reply => if reply.isSuccess then .ok reply.payload else .error (.readerStatus reply.status)
  | .error f => .error f

/-- The note that announces a further attempt. -/
def retryText (c : Command) (f : Fault) (k bound : Nat) : String :=
  c.label ++ ": " ++ f.message ++ s!" (retry {k}/{bound})"

/-- Attempts at one exchange: one, and up to `left` more after transient faults. -/
def attempts (e : Engine σ) (c : Command) (frame : Bytes) (bound : Nat) : Nat → Run σ Bytes
  | 0 => do
    let r ← Run.attempt (e.attempt frame)
    Run.ofExcept (judge r)
  | left + 1 => do
    match judge (← Run.attempt (e.attempt frame)) with
    | .ok payload => pure payload
    | .error f =>
      if f.isTransient then
        Run.note .warn (retryText c f (bound - left) bound)
        e.attempts c frame bound left
      else Run.fail f

/-- One exchange with its own bound on retries. -/
def exchangeWithin (e : Engine σ) (bound : Nat) (c : Command) : Run σ Bytes :=
  match Frame.encode e.trailer c.body with
  | .ok frame => e.attempts c frame bound bound
  | .error f => Run.fail f

/-- One exchange with the bound on retries that the settings give. -/
def exchange (e : Engine σ) (c : Command) : Run σ Bytes := e.exchangeWithin e.settings.retries c

/-- Answers a question of a dialogue by an exchange. -/
def serve (e : Engine σ) (q : Call) : Run σ Bytes :=
  e.exchangeWithin (q.bound.getD e.settings.retries) q.command

/-- Conducts a dialogue with the reader. -/
def conduct (e : Engine σ) (d : Dialogue Call α) : Run σ α := d.run e.serve

end Engine

end TagReader
