/-
# A simulated Ultralight C tag

The tag's side of the authentication, for rehearsals.  The tag has a key and a nonce.  It
remembers the challenge that it has sent, and forgets it when the next message comes in that
does not ask to begin; so a repeated third message finds no challenge.
-/
import TagReader.UltralightC.Handshake

namespace TagReader
namespace UltralightC

/-- A tag, with what it remembers. -/
structure Tag where
  /-- Its key. -/
  key : Octets 16
  /-- Its nonce. -/
  nonce : Block
  /-- The challenge it has sent and not yet used. -/
  challenge : Option Block := none
deriving DecidableEq

namespace Tag

/-- What a tag does with a message. -/
inductive Reaction where
  /-- It answers. -/
  | answer (bs : Bytes)
  /-- It does not understand the message. -/
  | refuse
  /-- It was given the last message first. -/
  | outOfOrder
deriving DecidableEq

/-- The answer to the host's proof, sent under a challenge. -/
def check (t : Tag) (challenge : Block) (x y : Block) : Bytes :=
  let c := Des.twoKey t.key
  match c.decryptChain challenge [x, y] with
  | [hostNonce, echoed] =>
    if echoed = t.nonce.rotate then
      0x00 :: (c.encryptChain y [hostNonce.rotate]).flatMap Block.toBytes
    else [0x00]
  | _ => [0x00]

/-- The tag's reaction to a raw message. -/
def react (t : Tag) (message : Bytes) : Reaction × Tag :=
  if message = opening then
    let challenge := (Des.twoKey t.key).encrypt t.nonce
    (.answer (continues :: challenge.toBytes), { t with challenge := some challenge })
  else
    let spent := { t with challenge := none }
    match t.challenge with
    | none => (.outOfOrder, spent)
    | some challenge =>
      if message.length ≠ 17 then (.refuse, spent)
      else
        (.answer (t.check challenge (Block.ofBytes (message.drop 1))
          (Block.ofBytes (message.drop 9))), spent)

end Tag
end UltralightC
end TagReader
