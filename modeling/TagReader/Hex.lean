/-
# Hexadecimal text

Frames are logged and identifiers are shown in hexadecimal.  There are three renderings of
a byte string, all with two digits a byte:

* `Hex.compact`: lower case, nothing between the bytes;
* `Hex.separated`: upper case, a separator between the bytes, as tag identifiers are shown;
* `Hex.spaced`: lower case, a space between the bytes, as frames are logged.

Numbers inside messages carry `0x` in front (`Hex.number`).  The core is on lists of
characters; strings are made at the end.
-/
import TagReader.Bytes

namespace TagReader
namespace Hex

/-- Which letters the digits above nine take. -/
inductive Case where
  | lower
  | upper
deriving DecidableEq

/-- The digit of a number below sixteen. -/
def digit (c : Case) (n : Nat) : Char :=
  if n < 10 then Char.ofNat (48 + n)
  else match c with
    | .lower => Char.ofNat (87 + n)
    | .upper => Char.ofNat (55 + n)

/-- The two digits of a byte, high one first. -/
def byte (c : Case) (b : UInt8) : List Char := [digit c (b.toNat / 16), digit c (b.toNat % 16)]

/-- The digits of all bytes, with `sep` between two bytes. -/
def joined (c : Case) (sep : List Char) : Bytes → List Char
  | [] => []
  | [b] => byte c b
  | b :: bs => byte c b ++ sep ++ joined c sep bs

/-- Lower case, nothing between the bytes. -/
def compact (bs : Bytes) : String := String.ofList (joined .lower [] bs)

/-- Upper case, with `sep` between the bytes. -/
def separated (sep : Char) (bs : Bytes) : String := String.ofList (joined .upper [sep] bs)

/-- Lower case, with a space between the bytes. -/
def spaced (bs : Bytes) : String := String.ofList (joined .lower [' '] bs)

/-- A list of bytes as it stands in messages: `[ff, 01]`. -/
def listed (bs : Bytes) : String := "[" ++ String.ofList (joined .lower [',', ' '] bs) ++ "]"

/-- A number with `0x` in front and at least `places` digits. -/
def number (places n : Nat) : String :=
  let ds := Nat.toDigits 16 n
  "0x" ++ String.ofList (List.replicate (places - ds.length) '0' ++ ds)

/-- A byte with `0x` in front. -/
def code (b : UInt8) : String := number 2 b.toNat

end Hex
end TagReader
