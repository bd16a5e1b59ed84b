/-
# A scripted channel to a tag

For rehearsals of the authentication alone, without a reader in between: the answers of the
tag are given beforehand, and the messages sent to it are kept.
-/
import TagReader.Cipher.Block
import TagReader.Link.Basic

namespace TagReader
namespace UltralightC

/-- The state of a scripted channel. -/
structure Rehearsal where
  /-- The answers to the next messages. -/
  answers : List (Except Fault Bytes)
  /-- The messages sent so far, oldest first. -/
  sent : List Bytes := []

/-- Sends a message and takes the next answer. -/
def Rehearsal.transceive (message : Bytes) : Run Rehearsal Bytes := fun s =>
  let s := { s with sent := s.sent ++ [message] }
  match s.answers with
  | [] => ⟨.error (.communication "script exhausted"), s, []⟩
  | a :: rest => ⟨a, { s with answers := rest }, []⟩

/-- So many nonces, drawn eight bytes at a time from bytes that repeat for ever. -/
def Rehearsal.nonces (source : Bytes) (n : Nat) : List Block :=
  (List.range n).map fun r =>
    Block.ofBytes ((List.range 8).map fun i => source.getD ((8 * r + i) % source.length) 0)

end UltralightC
end TagReader
