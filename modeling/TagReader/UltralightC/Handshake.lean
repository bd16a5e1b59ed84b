/-
# The mutual authentication of Ultralight C tags

Host and tag prove to each other that they hold the same key, in three passes:

* the host asks to begin;
* the tag answers with its nonce, encrypted;
* the host sends its own nonce followed by the tag's nonce turned by one byte, both encrypted;
* the tag answers with the host's nonce turned by one byte, encrypted.

All encryption is chained, and the chain runs across the messages in both directions.  A tag
that does not accept the key answers the third message with a single byte.

`UltralightC.handshake` is the host's side of it, a dialogue whose questions are raw messages
to the tag.
-/
import TagReader.Cipher.Des
import TagReader.Dialogue
import TagReader.Inspect

namespace TagReader
namespace UltralightC

/-- The message that asks a tag to begin. -/
def opening : Bytes := [0x1A, 0x00]

/-- The first byte of a message after which the handshake goes on. -/
def continues : UInt8 := 0xAF

/-- The bytes of a tag's answer that carry a block, behind the first byte. -/
def carried (answer : Bytes) : Block := Block.ofBytes ((answer.drop 1).take 8)

/-- The two blocks of the host's second message: both nonces under the challenge, which is the
tag's nonce as it was sent. -/
def proof (c : BlockCipher) (nonce challenge : Block) : List Block :=
  c.encryptChain challenge [nonce, (c.decrypt challenge).rotate]

/-- The host's second message. -/
def proofMessage (blocks : List Block) : Bytes := continues :: blocks.flatMap Block.toBytes

/-- What the host makes of the tag's second answer; `last` is the last block that it sent. -/
def judge (c : BlockCipher) (nonce last : Block) (answer : Bytes) : Dialogue Bytes Bool :=
  if answer.length = 1 then
    .note ⟨.debug, "ultralight c rejected the key (" ++ Hex.code (answer.headD 0) ++ ")"⟩
      (.done false)
  else if answer.length < 9 then
    .fail (.authentication ("unexpected step 2 reply: " ++ Hex.compact answer))
  else .done (c.decryptChain last [carried answer] == [nonce.rotate])

/-- The host's side: whether the tag holds the key of the cipher `c`. -/
def handshake (c : BlockCipher) (nonce : Block) : Dialogue Bytes Bool :=
  .ask opening fun
    | .error f => .fail (.authentication ("step 1 failed: " ++ f.message))
    | .ok answer =>
      if answer.length < 9 ∨ answer.headD 0 ≠ continues then
        .fail (.authentication ("unexpected step 1 reply: " ++ Hex.compact answer))
      else
        let blocks := proof c nonce (carried answer)
        .ask (proofMessage blocks) fun
          | .error f => .fail (.authentication ("step 2 failed: " ++ f.message))
          | .ok answer' => judge c nonce (blocks.getLastD 0#64) answer'

/-! ## Sessions -/

/-- How far the authentication of a session has come. -/
inductive Progress where
  /-- Nothing has been tried. -/
  | idle
  /-- Both sides have proved that they hold the key. -/
  | authenticated
  /-- The last try has failed, or the tag did not accept the key. -/
  | failed
deriving DecidableEq

/-- The name of a state of progress. -/
def Progress.label : Progress → String
  | idle => "Idle"
  | authenticated => "Authenticated"
  | failed => "Failed"

/-- The state that a try leads to. -/
def Progress.after (r : Except Fault Bool) : Progress :=
  match r with
  | .ok true => .authenticated
  | _ => .failed

/-- A session with one tag: any number of tries under one key. -/
structure Session where
  /-- The key, two DES keys one after the other. -/
  key : Octets 16
  /-- What came of the last try. -/
  progress : Progress := .idle

namespace Session

/-- A session under a key of sixteen bytes. -/
def ofKey (key : Bytes) : Except Fault Session :=
  match Octets.ofBytes? 16 key with
  | some k => .ok ⟨k, .idle⟩
  | none => .error (.validation
      s!"ultralight c key must be 16 bytes long, got {key.length}")

/-- The dialogue of one try. -/
def attempt (s : Session) (nonce : Block) : Dialogue Bytes Bool :=
  handshake (Des.twoKey s.key) nonce

/-- The session after a try that ended in `r`. -/
def conclude (s : Session) (r : Except Fault Bool) : Session :=
  { s with progress := .after r }

/-- How a session is shown in reports; the key is left out. -/
def inspect (s : Session) : String :=
  Inspect.partialRecord "UltralightCAuth" [("state", s.progress.label)]

/-- One try over a channel to the tag. -/
def run {σ : Type} (channel : Bytes → Run σ Bytes) (s : Session) (nonce : Block) (t : σ) :
    Outcome σ Bool × Session :=
  let o := (s.attempt nonce).run channel t
  (o, s.conclude o.result)

/-- One try after the other, each with its nonce: what came of each and the session after it. -/
def runs {σ : Type} (channel : Bytes → Run σ Bytes) :
    List Block → Session → σ → List (Except Fault Bool × Session) × σ × List Note
  | [], _, t => ([], t, [])
  | nonce :: nonces, s, t =>
    match s.run channel nonce t with
    | (⟨r, t', notes⟩, s') =>
      match runs channel nonces s' t' with
      | (later, t'', notes') => ((r, s') :: later, t'', notes ++ notes')

end Session

end UltralightC
end TagReader
