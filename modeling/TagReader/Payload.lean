/-
# Reading payloads

Replies are taken apart by position.  Each reader here checks the bounds first: where the
payload is too short, the fault names the length that the read would have needed and the
length that is there, and no byte is read.
-/
import TagReader.Fault

namespace TagReader
namespace Payload

/-- The payload has at least `need` bytes. -/
def ensure (p : Bytes) (need : Nat) : Except Fault Unit :=
  if p.length < need then .error (.invalidLength need p.length) else .ok ()

/-- The `len` bytes from position `i` on. -/
def slice (p : Bytes) (i len : Nat) : Except Fault Bytes := do
  ensure p (i + len)
  pure ((p.drop i).take len)

/-- The byte at position `i`. -/
def byte (p : Bytes) (i : Nat) : Except Fault UInt8 :=
  match p[i]? with
  | some b => .ok b
  | none => .error (.invalidLength (i + 1) p.length)

/-- The 16 bit word at position `i`, low byte first. -/
def word16 (p : Bytes) (i : Nat) : Except Fault UInt16 := do
  ensure p (i + 2)
  pure (Bytes.toWord16 (p.getD i 0) (p.getD (i + 1) 0))

/-- Exactly `n` octets from position `i` on. -/
def octets (n : Nat) (p : Bytes) (i : Nat) : Except Fault (Octets n) :=
  if h : i + n ≤ p.length then .ok ⟨(p.drop i).take n, by simp; omega⟩
  else .error (.invalidLength (i + n) p.length)

/-- The bytes announced by the length byte at position `i`. -/
def prefixed (p : Bytes) (i : Nat) : Except Fault Bytes := do
  let len ← byte p i
  slice p (i + 1) len.toNat

/-! ## What the reads say -/

theorem ensure_eq_ok_iff {p : Bytes} {need : Nat} : ensure p need = .ok () ↔ need ≤ p.length := by
  unfold ensure
  split <;> simp <;> omega

theorem slice_eq_ok_iff {p bs : Bytes} {i len : Nat} :
    slice p i len = .ok bs ↔ i + len ≤ p.length ∧ bs = (p.drop i).take len := by
  simp only [slice, ensure]
  by_cases h : p.length < i + len
  · have hn : ¬i + len ≤ p.length := by omega
    simp [h, hn, bind, Except.bind]
  · have hn : i + len ≤ p.length := by omega
    simp [h, hn, bind, Except.bind, pure, Except.pure, eq_comm]

theorem byte_eq_ok_iff {p : Bytes} {i : Nat} {b : UInt8} : byte p i = .ok b ↔ p[i]? = some b := by
  unfold byte
  split <;> simp_all

end Payload
end TagReader
