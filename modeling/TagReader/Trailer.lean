/-
# Frame trailers

The reader ends every frame with a trailer, a few bytes computed over all bytes before it.
Which algorithm is in use depends on the firmware, so the rest of the library takes any
`Trailer`: a length and a function that always yields that many bytes.

Besides the cyclic redundancy checks (see `TagReader.Crc16`) there are three plain ones: the
exclusive or of all bytes, a 32 bit sum of all bytes, and none at all.
-/
import TagReader.Fault

namespace TagReader

/-- A way to protect frames by bytes at their end. -/
structure Trailer where
  /-- How the trailer is shown in reports. -/
  inspect : String
  /-- The number of bytes at the end of a frame. -/
  len : Nat
  /-- The trailer over the bytes before it. -/
  compute : Bytes → Bytes
  /-- Trailers all have the same length. -/
  length_compute : ∀ data, (compute data).length = len

namespace Trailer

/-- Checks a trailer against the one computed over the data. -/
def verify (t : Trailer) (data check : Bytes) : Except Fault Unit :=
  if t.compute data = check then .ok () else .error (.checksumMismatch (t.compute data) check)

theorem verify_eq_ok_iff {t : Trailer} {data check : Bytes} :
    t.verify data check = .ok () ↔ t.compute data = check := by
  unfold verify
  split <;> simp_all

/-- One byte, the exclusive or of all bytes. -/
def parity : Trailer where
  inspect := "Lrc"
  len := 1
  compute data := [data.foldl (· ^^^ ·) 0]
  length_compute _ := rfl

/-- No trailer. -/
def absent : Trailer where
  inspect := "NoTrailer"
  len := 0
  compute _ := []
  length_compute _ := rfl

/-- Four bytes, the sum of all bytes modulo 2^32, low byte first. -/
def sum : Trailer where
  inspect := "Sum4"
  len := 4
  compute data :=
    Bytes.ofInt32 (data.foldl (fun s b => s + b.toUInt32) (0 : UInt32)).toInt32
  length_compute _ := rfl

end Trailer

end TagReader
