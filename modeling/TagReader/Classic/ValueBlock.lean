/-
# Value blocks

A block can hold a signed number in a form that the tag itself can count up and down.  The
number stands there three times, the second time inverted, and is followed by an address
byte, which stands there four times, inverted every other time.
-/
import TagReader.Fault

namespace TagReader
namespace Classic

/-- The contents of a value block. -/
structure ValueBlock where
  /-- The number. -/
  value : Int32
  /-- A byte that the application may use, mostly for the number of a backup block. -/
  address : UInt8
deriving DecidableEq

namespace ValueBlock

/-- Every bit of some bytes inverted. -/
def inverted (bs : Bytes) : Bytes := bs.map fun b => ~~~b

/-- The block that holds a value. -/
def encode (v : ValueBlock) : Octets 16 :=
  ⟨Bytes.ofInt32 v.value ++ inverted (Bytes.ofInt32 v.value) ++ Bytes.ofInt32 v.value ++
    [v.address, ~~~v.address, v.address, ~~~v.address], rfl⟩

/-- Reads a value block; all copies must agree. -/
def decode (bs : Bytes) : Except Fault ValueBlock :=
  match bs with
  | [v0, v1, v2, v3, w0, w1, w2, w3, x0, x1, x2, x3, a, b, c, d] =>
    if [x0, x1, x2, x3] = [v0, v1, v2, v3] ∧ [w0, w1, w2, w3] = inverted [v0, v1, v2, v3] ∧
        c = a ∧ b = ~~~a ∧ d = ~~~a then
      .ok ⟨Bytes.toInt32 v0 v1 v2 v3, a⟩
    else .error (.format ("not a value block: " ++ Hex.compact bs))
  | _ => .error (.invalidLength 16 bs.length)

end ValueBlock
end Classic
end TagReader
