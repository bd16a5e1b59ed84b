/-
# Reading hexadecimal text

`Hex.parse` reads bytes from text.  Colons and blanks (space, tab, line feed, form feed,
carriage return) may stand anywhere and are dropped first; what is left is taken in pairs.
The pairs are pairs of UTF-8 bytes, so a character outside ASCII may fill a pair or be cut
by one; it is never a digit, but which fault is reported depends on it.

A pair is two digits of either case.  A plus sign followed by one digit is read as well, as
a signed number of one digit.
-/
import TagReader.Fault

namespace TagReader
namespace Hex

/-- Whether a byte of the text is dropped before pairs are formed. -/
def isSeparator (b : UInt8) : Bool :=
  b == 0x20 || b == 0x09 || b == 0x0A || b == 0x0C || b == 0x0D || b == 0x3A

/-- The value of a digit of either case. -/
def digitValue? (b : UInt8) : Option UInt8 :=
  if 0x30 ≤ b ∧ b ≤ 0x39 then some (b - 0x30)
  else if 0x61 ≤ b ∧ b ≤ 0x66 then some (b - 0x57)
  else if 0x41 ≤ b ∧ b ≤ 0x46 then some (b - 0x37)
  else none

/-- The value of a pair: two digits, or a plus sign and one digit. -/
def pairValue? (a b : UInt8) : Option UInt8 :=
  match digitValue? a, digitValue? b with
  | some hi, some lo => some (16 * hi + lo)
  | none, some lo => if a == 0x2B then some lo else none
  | _, none => none

/-- The characters that two UTF-8 bytes stand for: two of ASCII, or one of two bytes. -/
def pairText? (a b : UInt8) : Option (List Char) :=
  if a < 0x80 ∧ b < 0x80 then some [Char.ofNat a.toNat, Char.ofNat b.toNat]
  else if 0xC2 ≤ a ∧ a ≤ 0xDF ∧ 0x80 ≤ b ∧ b ≤ 0xBF then
    some [Char.ofNat ((a.toNat - 0xC0) * 64 + (b.toNat - 0x80))]
  else none

/-- The byte that a pair stands for. -/
def parsePair (a b : UInt8) : Except Fault UInt8 :=
  match pairText? a b with
  | none => .error (.validation "hex string is not ascii")
  | some text =>
    match pairValue? a b with
    | some v => .ok v
    | none => .error (.validation
        ("invalid hex pair '" ++ String.ofList text ++ "': invalid digit found in string"))

/-- The bytes that digits stand for, taken in pairs; the first bad pair is reported. -/
def parsePairs : Bytes → Except Fault Bytes
  | a :: b :: rest => do
    let v ← parsePair a b
    let vs ← parsePairs rest
    pure (v :: vs)
  | _ => .ok []

/-- Reads the UTF-8 bytes of a text. -/
def parseUtf8 (text : Bytes) : Except Fault Bytes :=
  let digits := text.filter fun b => !isSeparator b
  if digits.length % 2 ≠ 0 then .error (.validation "hex string has odd length")
  else parsePairs digits

/-- Reads bytes from hexadecimal text. -/
def parse (text : String) : Except Fault Bytes :=
  parseUtf8 (text.toList.flatMap String.utf8EncodeChar)

end Hex
end TagReader
