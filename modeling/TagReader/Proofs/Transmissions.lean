/-
# Frames sent

A recorder keeps every call on its link.  This file takes from that the frames that the link was
given to send, in their order, and says which they are: an attempt sends its frame once, and an
exchange sends one and the same frame, once and then once more for every retry.
-/
import TagReader.Proofs.Attempts

namespace TagReader

variable {σ : Type}

/-- The frame that is sent, if a call is a sending. -/
def Event.frame? : Event → Option Bytes
  | sent frame _ => some frame
  | received _ _ => none
  | discarded _ => none

/-- The frames that the link was given to send, oldest first. -/
def Recorded.frames (s : Recorded σ) : List Bytes := s.events.filterMap Event.frame?

/-! ## Attempts and exchanges -/

section Attempts

variable {t : Trailer} (frame : Bytes) (ms : Nat)

lemma Course.frames_events (k : Course) : (k.events frame ms).filterMap Event.frame? = [frame] := by
  cases k <;> rfl

lemma Attempt.frames_events (a : Attempt t) :
    (a.events frame ms).filterMap Event.frame? = [frame] := by
  have hdropped : (a.dropped.toList.map Event.discarded).filterMap Event.frame? = [] := by
    cases a.dropped <;> rfl
  rw [Attempt.events, List.filterMap_append, Course.frames_events, hdropped, List.append_nil]

lemma Attempts.frames_events {bound : Nat} (k : Attempts t bound) :
    (k.events frame ms).filterMap Event.frame? = List.replicate (k.earlier.length + 1) frame := by
  have hall (as : List (Attempt t)) :
      (as.flatMap (Attempt.events frame ms)).filterMap Event.frame? =
        List.replicate as.length frame := by
    induction as with
    | nil => rfl
    | cons a as ih =>
      rw [List.flatMap_cons, List.filterMap_append, ih, Attempt.frames_events]
      rfl
  rw [Attempts.events, hall, List.length_append, List.length_singleton]

end Attempts

namespace Engine

variable (e : Engine σ)

/-- An attempt sends its frame once. -/
lemma frames_attempt (frame : Bytes) (s : Recorded σ) :
    (e.recorded.attempt frame s).state.frames = s.frames ++ [frame] := by
  obtain ⟨a, -, hev⟩ := e.attempt_recorded frame s
  unfold Recorded.frames
  rw [hev, List.filterMap_append, a.frames_events]

/-- An exchange sends the frame of its command, and nothing else. -/
lemma frames_exchangeWithin {c : Command} {frame : Bytes}
    (hf : Frame.encode e.trailer c.body = .ok frame) (bound : Nat) (s : Recorded σ) :
    ∃ retries ≤ bound, (e.recorded.exchangeWithin bound c s).state.frames =
      s.frames ++ List.replicate (retries + 1) frame := by
  rw [exchangeWithin_of_encode (e := e.recorded) hf]
  obtain ⟨k, -, hev⟩ := e.attempts_recorded c frame bound bound s
  refine ⟨k.earlier.length, k.length_le, ?_⟩
  unfold Recorded.frames
  rw [hev, List.filterMap_append, k.frames_events]

end Engine

end TagReader
