/-
# The reader itself

Two commands concern the reader and not a tag: its firmware version, which also serves to
see whether the reader is alive, and its serial number.  A reader whose version cannot be
had counts as not present, whatever the cause.
-/
import TagReader.Talk
import TagReader.Uid

namespace TagReader

/-- The firmware version of a reader. -/
structure FirmwareVersion where
  major : UInt8
  minor : UInt8
  /-- The year of the build, two digits. -/
  year : UInt8
  /-- The month of the build. -/
  month : UInt8
  /-- The day of the build. -/
  day : UInt8
deriving DecidableEq

namespace FirmwareVersion

/-- Reads a version: major, minor, year, month, day. -/
def ofBytes (bs : Bytes) : Except Fault FirmwareVersion :=
  match bs with
  | major :: minor :: year :: month :: day :: _ => .ok ⟨major, minor, year, month, day⟩
  | _ => .error (.invalidLength 5 bs.length)

/-- A number of at least two digits. -/
def twoDigits (b : UInt8) : String :=
  if b < 10 then "0" ++ toString b.toNat else toString b.toNat

/-- The form in which a version is shown: `2.7 (03-04-19)`, with the day first. -/
def display (v : FirmwareVersion) : String :=
  toString v.major.toNat ++ "." ++ toString v.minor.toNat ++
    " (" ++ twoDigits v.day ++ "-" ++ twoDigits v.month ++ "-" ++ twoDigits v.year ++ ")"

end FirmwareVersion

namespace Reader

/-- The commands for the reader itself. -/
inductive Request where
  /-- The firmware version. -/
  | version
  /-- The serial number. -/
  | serial
deriving DecidableEq

/-- The control byte of these commands. -/
def control : UInt8 := 0x00

/-- The command for a request. -/
def Request.command : Request → Command
  | version => ⟨control, 0x01, []⟩
  | serial => ⟨control, 0x02, []⟩

/-- The bytes of the firmware version. -/
def versionBytes : Talk Bytes :=
  .ask ⟨Request.version.command, none⟩ fun
    | .ok payload => .done payload
    | .error f => .fail (.deviceNotPresent f.message)

/-- The firmware version. -/
def version : Talk FirmwareVersion := do
  let raw ← versionBytes
  match FirmwareVersion.ofBytes raw with
  | .ok v => pure v
  | .error f => .fail (.deviceNotPresent f.message)

/-- Sees whether the reader is alive. -/
def probe : Talk FirmwareVersion := do
  let v ← version
  Dialogue.say .info ("reader firmware " ++ v.display)
  pure v

/-- The serial number of the reader. -/
def serial : Talk Uid := do
  let payload ← Talk.exchange Request.serial.command
  if payload.isEmpty then .fail (.format "empty reader uid") else pure ⟨payload⟩

/-- An exchange whose command is given by its body. -/
def exchangeBytes (body : Bytes) : Talk Bytes := do
  let c ← (Dialogue.ofExcept (Command.ofBody body) : Talk Command)
  Talk.exchange c

end Reader

end TagReader
