/-
# Commands

A command to the reader is a control byte, which selects a command family, a code within the
family, and parameters.  ISO15693 families put the request mode where the others put the
code; the actual command then leads the parameters.

Commands are built by appending parameters, and read back from a raw body.
-/
import TagReader.Fault

namespace TagReader

/-- One command to the reader. -/
structure Command where
  /-- The byte that selects the family. -/
  control : UInt8
  /-- The code within the family, or the ISO15693 request mode. -/
  code : UInt8
  /-- The parameters. -/
  params : Bytes := []
deriving DecidableEq

namespace Command

/-- The command with more parameter bytes. -/
def bytes (c : Command) (bs : Bytes) : Command := { c with params := c.params ++ bs }

/-- The command with one more parameter byte. -/
def byte (c : Command) (b : UInt8) : Command := c.bytes [b]

/-- The command with a 16 bit parameter, low byte first. -/
def word16 (c : Command) (w : UInt16) : Command := c.bytes (Bytes.ofWord16 w)

/-- The command with a signed 32 bit parameter, low byte first. -/
def int32 (c : Command) (v : Int32) : Command := c.bytes (Bytes.ofInt32 v)

/-- The fault for data that cannot stand behind a length byte. -/
def uncountable (bs : Bytes) : Fault :=
  .validation s!"{bs.length} bytes do not fit a length prefix"

/-- The command with a length byte and the bytes that it counts. -/
def counted (c : Command) (bs : Bytes) : Command := (c.byte (UInt8.ofNat bs.length)).bytes bs

/-- The command with a length byte and the bytes that it counts, if they can be counted. -/
def counted? (c : Command) (bs : Bytes) : Except Fault Command :=
  if bs.length < 256 then .ok (c.counted bs) else .error (uncountable bs)

/-- The body of the command, as it stands in a frame. -/
def body (c : Command) : Bytes := c.control :: c.code :: c.params

/-- Reads a command from its body. -/
def ofBody (bs : Bytes) : Except Fault Command :=
  match bs with
  | control :: code :: params => .ok ⟨control, code, params⟩
  | _ => .error (.validation
      s!"command needs a control byte and a code, got {bs.length} bytes")

/-- The command as it is named in notes: control byte and code. -/
def label (c : Command) : String := Hex.code c.control ++ "/" ++ Hex.code c.code

@[simp] theorem ofBody_body (c : Command) : ofBody c.body = .ok c := rfl

@[simp] theorem length_body (c : Command) : c.body.length = 2 + c.params.length := by
  simp [body]; omega

end Command

end TagReader
