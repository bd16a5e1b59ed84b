/-
# Why an operation fails

Every operation of the library either yields its result or a `Fault`.  Faults are causes:
a broken precondition of the caller, a link that failed, a frame that does not check, a
status that the reader reported, and so on.  The wording of all of them stands in one
place, `Fault.message`.

Some faults are worth a repetition of the whole exchange (`Fault.isTransient`); a status
reported by the reader is never one of them.
-/
import TagReader.Hex

namespace TagReader

/-- The cause of a failure. -/
inductive Fault where
  /-- The caller broke a precondition. -/
  | validation (text : String)
  /-- The link failed or closed, or carried bytes that nobody expected. -/
  | communication (text : String)
  /-- The trailer of a frame is not the one computed over it. -/
  | checksumMismatch (expected actual : Bytes)
  /-- The length byte of a frame disagrees with the bytes received. -/
  | frameLength (declared received : Nat)
  /-- A payload is too short for its shape. -/
  | invalidLength (expected actual : Nat)
  /-- The bytes of a payload break their encoding. -/
  | format (text : String)
  /-- The reader reported a status other than success. -/
  | readerStatus (code : UInt8)
  /-- No complete frame arrived in time. -/
  | timeout
  /-- An authentication could not be carried out (this is not a wrong key). -/
  | authentication (text : String)
  /-- The reader does not answer its liveness probe. -/
  | deviceNotPresent (text : String)
deriving DecidableEq

namespace Fault

/-- The text shown for a fault. -/
def message : Fault → String
  | validation text => "validation error: " ++ text
  | communication text => "communication error: " ++ text
  | checksumMismatch expected actual =>
    "checksum mismatch: expected " ++ Hex.listed expected ++ ", got " ++ Hex.listed actual
  | frameLength declared received =>
    s!"frame length mismatch: declared {declared}, received {received}"
  | invalidLength expected actual => s!"invalid packet length: expected {expected}, got {actual}"
  | format text => "format error: " ++ text
  | readerStatus code => "reader error: status=" ++ Hex.code code
  | timeout => "operation timed out"
  | authentication text => "authentication error: " ++ text
  | deviceNotPresent text => "device not present: " ++ text

/-- The name of the kind of a fault, for programs that tell them apart. -/
def label : Fault → String
  | validation _ => "Validation"
  | communication _ => "Communication"
  | checksumMismatch _ _ => "ChecksumMismatch"
  | frameLength _ _ => "FrameLength"
  | invalidLength _ _ => "InvalidLength"
  | format _ => "Format"
  | readerStatus _ => "Protocol"
  | timeout => "Timeout"
  | authentication _ => "Authentication"
  | deviceNotPresent _ => "DeviceNotPresent"

/-- Whether the whole exchange is worth repeating. -/
def isTransient : Fault → Bool
  | communication _ | checksumMismatch _ _ | frameLength _ _ | timeout => true
  | _ => false

/-- The status code, if the reader reported one. -/
def status? : Fault → Option UInt8
  | readerStatus code => some code
  | _ => none

end Fault

/-- What kind of failure a byte stream reports, as far as it matters here. -/
inductive IoKind where
  /-- The call was interrupted and can simply be made again. -/
  | interrupted
  /-- The read timeout of the stream ran out. -/
  | timedOut
  /-- Nothing can be read or written without blocking. -/
  | wouldBlock
  /-- Anything else. -/
  | other
deriving DecidableEq

/-- A failure of a byte stream. -/
structure IoFault where
  /-- Its kind. -/
  kind : IoKind
  /-- What the stream says about it. -/
  text : String
deriving DecidableEq

/-- A stream that timed out or would block is a timeout; any other failure of it is one of
communication, with the stream's own words. -/
def IoFault.toFault (e : IoFault) : Fault :=
  match e.kind with
  | .timedOut | .wouldBlock => .timeout
  | .interrupted | .other => .communication e.text

end TagReader
