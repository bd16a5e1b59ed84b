/-
# The exchanges of a dialogue

A dialogue that is conducted over an engine goes by exchanges: each of its questions is one, with
the answer that came of it.  This file lists them (`Engine.exchanges`) and says what they send:
`Transmits` relates exchanges to frames, where a command that fits is sent once and once more for
every retry, and one that does not fit is not sent at all.

What a recorder keeps of a dialogue are the frames of its exchanges (`Engine.frames_conduct`), so
statements about frames follow from statements about exchanges.
-/
import TagReader.Proofs.Transmissions

namespace TagReader

variable {σ τ α β : Type}

/-- One exchange of a dialogue: what was asked, and what came of it. -/
structure Exchange where
  call : Call
  answer : Except Fault Bytes

/-- The body of the command. -/
def Exchange.body (x : Exchange) : Bytes := x.call.command.body

/-- The frames that exchanges send, under a trailer and a bound on retries. -/
inductive Transmits (t : Trailer) (retries : Nat) : List Exchange → List Bytes → Prop where
  | nil : Transmits t retries [] []
  /-- A command that fits is sent once, and once more for every retry. -/
  | sent {x : Exchange} {frame : Bytes} {xs : List Exchange} {frames : List Bytes} (n : Nat)
    (fits : Frame.encode t x.body = .ok frame) (n_le : n ≤ x.call.bound.getD retries)
    (later : Transmits t retries xs frames) :
    Transmits t retries (x :: xs) (List.replicate (n + 1) frame ++ frames)
  /-- A command that does not fit is not sent, and that is its answer. -/
  | unsent {x : Exchange} {f : Fault} {xs : List Exchange} {frames : List Bytes}
    (long : Frame.encode t x.body = .error f) (answered : x.answer = .error f)
    (later : Transmits t retries xs frames) : Transmits t retries (x :: xs) frames

namespace Transmits

variable {t : Trailer} {retries : Nat} {x : Exchange} {xs : List Exchange} {frames : List Bytes}

/-- What is sent is the frame of one of the exchanges. -/
lemma exists_of_mem (h : Transmits t retries xs frames) {frame : Bytes} (hmem : frame ∈ frames) :
    ∃ x ∈ xs, Frame.encode t x.body = .ok frame := by
  induction h with
  | nil => exact absurd hmem List.not_mem_nil
  | @sent x _ xs _ n fits _ _ ih =>
    rcases List.mem_append.1 hmem with hfirst | hlater
    · obtain rfl := List.eq_of_mem_replicate hfirst
      exact ⟨x, List.mem_cons_self, fits⟩
    · obtain ⟨y, hy, hf⟩ := ih hlater
      exact ⟨y, List.mem_cons_of_mem x hy, hf⟩
  | @unsent x _ xs _ _ _ _ ih =>
    obtain ⟨y, hy, hf⟩ := ih hmem
    exact ⟨y, List.mem_cons_of_mem x hy, hf⟩

/-- The frame of an exchange is sent, if there is one. -/
lemma mem_of_encode (h : Transmits t retries xs frames) (hx : x ∈ xs) {frame : Bytes}
    (hf : Frame.encode t x.body = .ok frame) : frame ∈ frames := by
  induction h with
  | nil => exact absurd hx List.not_mem_nil
  | sent n fits _ _ ih =>
    rcases List.mem_cons.1 hx with rfl | hlater
    · obtain rfl := Except.ok.inj (fits.symm.trans hf)
      exact List.mem_append_left _ (List.mem_replicate.2 ⟨Nat.succ_ne_zero n, rfl⟩)
    · exact List.mem_append_right _ (ih hlater)
  | unsent long _ _ ih =>
    rcases List.mem_cons.1 hx with rfl | hlater
    · rw [long] at hf
      cases hf
    · exact ih hlater

/-- Without exchanges nothing is sent. -/
lemma eq_nil (h : Transmits t retries [] frames) : frames = [] := by
  cases h
  rfl

/-- A command that does not fit is refused. -/
lemma refused_of_not_fits (h : Transmits t retries (x :: xs) frames) (hf : ¬Frame.Fits t x.body) :
    ∃ text, x.answer = .error (.validation text) := by
  obtain ⟨text, ht⟩ := Frame.encode_of_not_fits hf
  cases h with
  | sent n fits _ _ =>
    rw [ht] at fits
    cases fits
  | unsent long answered _ =>
    obtain rfl := Except.error.inj (ht.symm.trans long)
    exact ⟨text, answered⟩

/-- An exchange whose command fits sends its frame, once and once more for every retry, and then
come the frames of the others. -/
lemma cons_of_encode (h : Transmits t retries (x :: xs) frames) {frame : Bytes}
    (hf : Frame.encode t x.body = .ok frame) :
    ∃ n ≤ x.call.bound.getD retries, ∃ later, frames = List.replicate (n + 1) frame ++ later ∧
      Transmits t retries xs later := by
  cases h with
  | sent n fits n_le later =>
    obtain rfl := Except.ok.inj (fits.symm.trans hf)
    exact ⟨n, n_le, _, rfl, later⟩
  | unsent long answered later =>
    rw [long] at hf
    cases hf

/-- An exchange whose command does not fit sends nothing. -/
lemma eq_nil_of_not_fits (h : Transmits t retries [x] frames) (hf : ¬Frame.Fits t x.body) :
    frames = [] := by
  obtain ⟨text, ht⟩ := Frame.encode_of_not_fits hf
  cases h with
  | sent n fits _ _ =>
    rw [ht] at fits
    cases fits
  | unsent _ _ later => exact later.eq_nil

/-- More exchanges send more frames. -/
lemma cons_append {y : Exchange} {first : List Bytes} (h : Transmits t retries [y] first)
    (hxs : Transmits t retries xs frames) : Transmits t retries (y :: xs) (first ++ frames) := by
  cases h with
  | sent n fits n_le later =>
    obtain rfl := later.eq_nil
    rw [List.append_nil]
    exact .sent n fits n_le hxs
  | unsent long answered later =>
    obtain rfl := later.eq_nil
    exact .unsent long answered hxs

end Transmits

namespace Engine

variable (e : Engine σ)

/-- The exchanges by which a dialogue goes, in their order. -/
def exchanges : Talk α → σ → List Exchange
  | .done _, _ => []
  | .fail _, _ => []
  | .note _ d, s => exchanges d s
  | .ask q k, s =>
    ⟨q, (e.serve q s).result⟩ :: exchanges (k (e.serve q s).result) (e.serve q s).state

lemma exchanges_ask (q : Call) (k : Except Fault Bytes → Talk α) (s : σ) :
    e.exchanges (.ask q k) s =
      ⟨q, (e.serve q s).result⟩ :: e.exchanges (k (e.serve q s).result) (e.serve q s).state := rfl

lemma exchanges_note (n : Note) (d : Talk α) (s : σ) :
    e.exchanges (.note n d) s = e.exchanges d s := rfl

/-- A sequence of dialogues goes by the exchanges of one after the other. -/
lemma exchanges_bind (d : Talk α) (f : α → Talk β) (s : σ) :
    e.exchanges (d >>= f) s = e.exchanges d s ++
      match (e.conduct d s).result with
      | .ok a => e.exchanges (f a) (e.conduct d s).state
      | .error _ => [] := by
  induction d generalizing s with
  | done a => rfl
  | fail g => rfl
  | note n d ih =>
    rw [result_conduct_note, state_conduct_note]
    exact ih s
  | ask q k ih =>
    rw [result_conduct_ask, state_conduct_ask]
    exact congrArg (List.cons _) (ih _ _)

/-- What is made of a value in the end takes no exchange. -/
lemma exchanges_map (d : Talk α) (g : α → β) (s : σ) :
    e.exchanges (d >>= fun a => pure (g a)) s = e.exchanges d s := by
  rw [exchanges_bind]
  cases (e.conduct d s).result <;> exact List.append_nil _

/-- Corresponding engines go by the same exchanges. -/
lemma Corresponds.exchanges {R : σ → τ → Prop} {d : Engine σ} {e : Engine τ}
    (h : Corresponds R d e) (t : Talk α) {s : σ} {s' : τ} (hst : R s s') :
    d.exchanges t s = e.exchanges t s' := by
  induction t generalizing s s' with
  | done a => rfl
  | fail f => rfl
  | note n t ih => exact ih hst
  | ask q k ih =>
    obtain ⟨hr, hs⟩ := h.serve q hst
    rw [exchanges_ask, exchanges_ask, hr]
    exact congrArg (List.cons _) (ih _ hs)

/-- One exchange sends the frame of its command, if there is one. -/
lemma frames_serve (q : Call) (s : Recorded σ) :
    ∃ frames, (e.recorded.serve q s).state.frames = s.frames ++ frames ∧
      Transmits e.trailer e.settings.retries [⟨q, (e.recorded.serve q s).result⟩] frames := by
  cases hf : Frame.encode e.trailer q.command.body with
  | ok frame =>
    obtain ⟨n, hn, hframes⟩ := e.frames_exchangeWithin hf (q.bound.getD e.settings.retries) s
    refine ⟨List.replicate (n + 1) frame, hframes, ?_⟩
    have hsent := Transmits.sent (x := ⟨q, (e.recorded.serve q s).result⟩) n hf hn .nil
    rwa [List.append_nil] at hsent
  | error f =>
    have hserve : e.recorded.serve q = Run.fail f := serve_of_refused hf
    refine ⟨[], ?_, .unsent hf ?_ .nil⟩
    · rw [hserve, List.append_nil]
      rfl
    · rw [hserve]
      rfl

/-- **A dialogue sends the frames of its exchanges.** -/
theorem frames_conduct (d : Talk α) (s : Recorded σ) :
    ∃ frames, (e.recorded.conduct d s).state.frames = s.frames ++ frames ∧
      Transmits e.trailer e.settings.retries (e.recorded.exchanges d s) frames := by
  induction d generalizing s with
  | done a => exact ⟨[], (List.append_nil _).symm, .nil⟩
  | fail f => exact ⟨[], (List.append_nil _).symm, .nil⟩
  | note n d ih =>
    rw [state_conduct_note]
    exact ih s
  | ask q k ih =>
    obtain ⟨first, hfirst, hsent⟩ := e.frames_serve q s
    obtain ⟨later, hlater, hrest⟩ :=
      ih (e.recorded.serve q s).result (e.recorded.serve q s).state
    rw [state_conduct_ask]
    exact ⟨first ++ later, by rw [hlater, hfirst, List.append_assoc], hsent.cons_append hrest⟩

/-- An operation sends the frames of its exchanges, and the recorder changes none of them. -/
lemma transmits_perform (op : Operation) (b : Iso14443b.Session) (s : σ) :
    Transmits e.trailer e.settings.retries (e.exchanges (op.talk b) s)
      (op.perform e.recorded b { inner := s }).1.state.frames := by
  obtain ⟨frames, hframes, hsent⟩ := e.frames_conduct (op.talk b) { inner := s }
  rw [(op.perform_spec e.recorded b { inner := s }).2, hframes]
  rw [e.recorded_corresponds.exchanges (op.talk b) ⟨rfl, rfl, rfl⟩] at hsent
  exact hsent

end Engine

end TagReader
