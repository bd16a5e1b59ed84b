/-
# Picopass cards

A reader knows one command for these cards: select the card in the field and report its
identifier.
-/
import TagReader.Talk
import TagReader.Uid

namespace TagReader
namespace Picopass

/-- The commands for these cards. -/
inductive Request where
  /-- Select a card and ask for its identifier. -/
  | selectUid
deriving DecidableEq

/-- The command for a request. -/
def Request.command : Request → Command
  | selectUid => ⟨0xC2, 0x81, []⟩

/-- The identifier of the card in the field; none if there is no card. -/
def getUid : Talk (Option Uid) := do
  let p ← Talk.exchangeOptional Request.selectUid.command
  Talk.decoded (fun p => do pure ⟨← Payload.prefixed p 0⟩) p

/-- The card in the field as a list. -/
def cards : Talk (List Uid) := do
  let uid ← getUid
  pure uid.toList

end Picopass
end TagReader
