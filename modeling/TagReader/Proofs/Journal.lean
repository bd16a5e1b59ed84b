/-
# Journals

A recorder keeps what the calls of a link return.  For statements about the other end of a link
it is the states around the calls that matter.  A link with a journal keeps them: the states in
which a frame was sent, and the states before and after each dropping of input.

A journal changes nothing (`Engine.journaled_corresponds`), and an attempt writes into it that a
frame was sent at its start and, after a transient fault, that the input was dropped at its end
(`Engine.state_attempt_journaled`).
-/
import TagReader.Proofs.Attempts
import TagReader.Stream.Basic

namespace TagReader

variable {σ : Type}

/-- The engine over a stream. -/
def ByteStream.engine (S : ByteStream σ) (t : Trailer) (c : Settings) : Engine σ := ⟨S.link, t, c⟩

/-- The state of a link with a journal. -/
structure Journal (σ : Type) where
  /-- The state of the link. -/
  inner : σ
  /-- The states in which a frame was sent, oldest first. -/
  sends : List σ := []
  /-- The states before and after each dropping of input, oldest first. -/
  drops : List (σ × σ) := []

/-- A link with a journal. -/
def Link.journaled (l : Link σ) : Link (Journal σ) where
  send frame j :=
    match l.send frame j.inner with
    | ⟨r, s, notes⟩ => ⟨r, { j with inner := s, sends := j.sends ++ [j.inner] }, notes⟩
  receive ms j :=
    match l.receive ms j.inner with
    | ⟨r, s, notes⟩ => ⟨r, { j with inner := s }, notes⟩
  discard j :=
    match l.discard j.inner with
    | ⟨r, s, notes⟩ => ⟨r, { j with inner := s, drops := j.drops ++ [(j.inner, s)] }, notes⟩

lemma Link.journaled_corresponds (l : Link σ) :
    Link.Corresponds (fun j s => j.inner = s) l.journaled l := by
  constructor
  · rintro frame j _ rfl
    exact ⟨rfl, rfl⟩
  · rintro ms j _ rfl
    exact ⟨rfl, rfl⟩
  · rintro j _ rfl
    exact ⟨rfl, rfl⟩

namespace Engine

/-- The engine over a link with a journal. -/
def journaled (e : Engine σ) : Engine (Journal σ) := ⟨e.link.journaled, e.trailer, e.settings⟩

/-- A journal changes nothing for the engine. -/
theorem journaled_corresponds (e : Engine σ) :
    Engine.Corresponds (fun j s => j.inner = s) e.journaled e :=
  corresponds_of_link e.link.journaled_corresponds rfl rfl

variable (e : Engine σ) (frame : Bytes) (j : Journal σ)

lemma converse_journaled :
    (e.journaled.converse frame j).result = (e.converse frame j.inner).result ∧
      (e.journaled.converse frame j).state =
        { j with
          inner := (e.converse frame j.inner).state
          sends := j.sends ++ [j.inner] } := by
  have hsend : (e.journaled.link.send frame j).result = (e.link.send frame j.inner).result := rfl
  rcases hs : (e.link.send frame j.inner).result with f | _
  · obtain ⟨hr, hst⟩ := converse_unsent (hsend.trans hs)
    obtain ⟨hr', hst'⟩ := converse_unsent hs
    exact ⟨hr.trans hr'.symm, by rw [hst, hst']; rfl⟩
  · obtain ⟨hr, hst⟩ := converse_sent (hsend.trans hs)
    obtain ⟨hr', hst'⟩ := converse_sent hs
    exact ⟨hr.trans hr'.symm, by rw [hst, hst']; rfl⟩

/-- What an attempt writes into the journal. -/
lemma state_attempt_journaled :
    (e.journaled.attempt frame j).state =
      { inner := (e.attempt frame j.inner).state
        sends := j.sends ++ [j.inner]
        drops := j.drops ++
          if endsTransient (e.attempt frame j.inner).result then
            [((e.converse frame j.inner).state, (e.attempt frame j.inner).state)]
          else [] } := by
  obtain ⟨hr, hst⟩ := e.converse_journaled frame j
  -- Both engines see the same fault, so both drop the input, or neither does.
  cases ht : endsTransient (e.converse frame j.inner).result with
  | true =>
    rw [state_attempt_transient (by rw [hr, ht]), hst, result_attempt, ht, if_pos rfl,
      state_attempt_transient ht]
    rfl
  | false =>
    rw [state_attempt_settled (by rw [hr, ht]), hst, result_attempt, ht, state_attempt_settled ht]
    simp

end Engine

end TagReader
