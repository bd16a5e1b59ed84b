/-
# The attempts of an exchange

An exchange over any link at all is a sequence of attempts.  This file describes it by what a
recorder sees of it.

* A `Course` is what happens in an attempt up to the reading of its reply: the frame could not
  be sent, or nothing came back, or a frame came back.
* An `Attempt` is a course and, exactly where that ended in a transient fault, one call that
  drops the input.
* `Attempts` are the attempts of one exchange: all but the last have ended in a transient
  fault, and the last has not unless the bound on retries is used up.

The main result is `Engine.exchangeWithin_attempts`: an exchange whose command fits a frame
is a sequence of attempts with that frame, its last attempt alone decides the answer, and what
the dropping of input reports decides nothing.
-/
import TagReader.Proofs.Correspondence

namespace TagReader

variable {σ : Type}

/-- Whether a computation has ended in a transient fault. -/
def endsTransient {α : Type} : Except Fault α → Bool
  | .ok _ => false
  | .error f => f.isTransient

/-! ## What a recorder sees -/

/-- What happens in an attempt up to the reading of its reply. -/
inductive Course where
  /-- The frame could not be sent. -/
  | unsent (f : Fault)
  /-- The frame was sent, and no frame came back. -/
  | unanswered (f : Fault)
  /-- The frame was sent, and a frame came back. -/
  | answered (raw : Bytes)

namespace Course

/-- The reply that a course leads to, or the fault. -/
def outcome (t : Trailer) : Course → Except Fault Reply
  | unsent f => .error f
  | unanswered f => .error f
  | answered raw => Frame.decode t raw

/-- The calls of a course, where `frame` is to be sent and a reply is awaited for `ms`. -/
def events (frame : Bytes) (ms : Nat) : Course → List Event
  | unsent f => [.sent frame (.error f)]
  | unanswered f => [.sent frame (.ok ()), .received ms (.error f)]
  | answered raw => [.sent frame (.ok ()), .received ms (.ok raw)]

end Course

/-- One attempt under a trailer. -/
structure Attempt (t : Trailer) where
  /-- What happens up to the reading of the reply. -/
  course : Course
  /-- What came of dropping the input, if that was done. -/
  dropped : Option (Except Fault Unit)
  /-- The input is dropped exactly after a transient fault. -/
  dropped_isSome : dropped.isSome = endsTransient (course.outcome t)

namespace Attempt

variable {t : Trailer}

/-- The reply that an attempt leads to, or the fault. -/
def outcome (a : Attempt t) : Except Fault Reply := a.course.outcome t

/-- The calls of an attempt; the drop of input is the last one. -/
def events (frame : Bytes) (ms : Nat) (a : Attempt t) : List Event :=
  a.course.events frame ms ++ a.dropped.toList.map .discarded

end Attempt

/-- The attempts of one exchange with a bound on retries. -/
structure Attempts (t : Trailer) (bound : Nat) where
  /-- All attempts but the last. -/
  earlier : List (Attempt t)
  /-- The last attempt. -/
  last : Attempt t
  /-- There are no more retries than the bound allows. -/
  length_le : earlier.length ≤ bound
  /-- An attempt is repeated only after a transient fault. -/
  earlier_transient : ∀ a ∈ earlier, endsTransient a.outcome = true
  /-- Only the bound stops the repetition after a transient fault. -/
  length_eq : endsTransient last.outcome = true → earlier.length = bound

namespace Attempts

variable {t : Trailer} {bound : Nat}

/-- All calls of the attempts. -/
def events (frame : Bytes) (ms : Nat) (k : Attempts t bound) : List Event :=
  (k.earlier ++ [k.last]).flatMap (Attempt.events frame ms)

/-- What the last attempt means for the exchange. -/
def answer (k : Attempts t bound) : Except Fault Bytes :=
  match k.last.outcome with
  | .ok reply =>
    if reply.status = 0 then .ok reply.payload else .error (.readerStatus reply.status)
  | .error f => .error f

/-- An exchange that takes one attempt. -/
def single (a : Attempt t) (h : endsTransient a.outcome = true → bound = 0) :
    Attempts t bound :=
  ⟨[], a, Nat.zero_le _, by simp, fun ha => (h ha).symm⟩

/-- An exchange whose first attempt ends in a transient fault. -/
def after (a : Attempt t) (h : endsTransient a.outcome = true) (k : Attempts t bound) :
    Attempts t (bound + 1) where
  earlier := a :: k.earlier
  last := k.last
  length_le := Nat.succ_le_succ k.length_le
  earlier_transient := List.forall_mem_cons.2 ⟨h, k.earlier_transient⟩
  length_eq hk := congrArg Nat.succ (k.length_eq hk)

lemma events_single (a : Attempt t) (h : endsTransient a.outcome = true → bound = 0)
    (frame : Bytes) (ms : Nat) : (single a h).events frame ms = a.events frame ms := by
  simp [events, single]

lemma events_after (a : Attempt t) (h : endsTransient a.outcome = true) (k : Attempts t bound)
    (frame : Bytes) (ms : Nat) :
    (after a h k).events frame ms = a.events frame ms ++ k.events frame ms := by
  simp [events, after]

/-- There is at least one call, the first one to send the frame. -/
lemma events_ne_nil (frame : Bytes) (ms : Nat) (k : Attempts t bound) :
    k.events frame ms ≠ [] := by
  intro h
  have hlast := List.flatMap_eq_nil_iff.1 h k.last (by simp)
  have hcourse := (List.append_eq_nil_iff.1 hlast).1
  rcases hk : k.last.course with _ | _ | _ <;> simp [hk, Course.events] at hcourse

end Attempts

/-! ## One attempt -/

namespace Engine

section Recorded

variable (e : Engine σ) (t : Recorded σ)

lemma events_send (frame : Bytes) :
    (e.recorded.link.send frame t).state.events =
      t.events ++ [.sent frame (e.recorded.link.send frame t).result] := by
  simp only [recorded, Link.recorded]
  cases t.sendFaults.head?.join <;> rfl

lemma events_receive (ms : Nat) :
    (e.recorded.link.receive ms t).state.events =
      t.events ++ [.received ms (e.recorded.link.receive ms t).result] := rfl

lemma events_discard :
    (e.recorded.link.discard t).state.events =
      t.events ++ [.discarded (e.recorded.link.discard t).result] := by
  simp only [recorded, Link.recorded]
  cases t.discardFaults.head?.join <;> rfl

end Recorded

section Converse

variable {e : Engine σ} {frame raw : Bytes} {f : Fault} {s : σ}

lemma converse_unsent (hs : (e.link.send frame s).result = .error f) :
    (e.converse frame s).result = .error f ∧
      (e.converse frame s).state = (e.link.send frame s).state := by
  unfold converse
  rw [Run.result_bind, Run.state_bind, hs]
  exact ⟨rfl, rfl⟩

lemma converse_unanswered (hs : (e.link.send frame s).result = .ok ())
    (hr : (e.link.receive e.settings.timeoutMs (e.link.send frame s).state).result = .error f) :
    (e.converse frame s).result = .error f ∧
      (e.converse frame s).state =
        (e.link.receive e.settings.timeoutMs (e.link.send frame s).state).state := by
  unfold converse
  simp only [Run.result_bind, Run.state_bind, hs, hr, Run.result_note, Run.state_note, and_self]

lemma converse_answered (hs : (e.link.send frame s).result = .ok ())
    (hr : (e.link.receive e.settings.timeoutMs (e.link.send frame s).state).result = .ok raw) :
    (e.converse frame s).result = Frame.decode e.trailer raw ∧
      (e.converse frame s).state =
        (e.link.receive e.settings.timeoutMs (e.link.send frame s).state).state := by
  unfold converse
  simp only [Run.result_bind, Run.state_bind, hs, hr, Run.result_note, Run.state_note]
  exact ⟨rfl, rfl⟩

/-- After the frame has been sent, what is received decides. -/
lemma converse_sent (hs : (e.link.send frame s).result = .ok ()) :
    (e.converse frame s).result =
        (e.link.receive e.settings.timeoutMs (e.link.send frame s).state).result.bind
          (Frame.decode e.trailer) ∧
      (e.converse frame s).state =
        (e.link.receive e.settings.timeoutMs (e.link.send frame s).state).state := by
  cases hr : (e.link.receive e.settings.timeoutMs (e.link.send frame s).state).result with
  | error f => exact converse_unanswered hs hr
  | ok raw => exact converse_answered hs hr

end Converse

lemma result_dropInput (e : Engine σ) (s : σ) : (e.dropInput s).result = .ok () := by
  unfold dropInput
  rw [Run.result_bind, Run.result_attempt]
  dsimp only
  cases (e.link.discard s).result <;> rfl

lemma state_dropInput (e : Engine σ) (s : σ) :
    (e.dropInput s).state = (e.link.discard s).state := by
  unfold dropInput
  rw [Run.state_bind, Run.result_attempt, Run.state_attempt]
  dsimp only
  cases (e.link.discard s).result <;> rfl

lemma result_attempt (e : Engine σ) (frame : Bytes) (s : σ) :
    (e.attempt frame s).result = (e.converse frame s).result := by
  unfold attempt
  rw [Run.result_bind, Run.result_attempt, Run.state_attempt]
  rcases (e.converse frame s).result with f | reply
  · dsimp only
    by_cases hf : f.isTransient = true
    · rw [if_pos hf, Run.result_bind, result_dropInput]
      rfl
    · rw [if_neg hf]
      rfl
  · rfl

/-- After a transient fault the input is dropped. -/
lemma state_attempt_transient {e : Engine σ} {frame : Bytes} {s : σ}
    (h : endsTransient (e.converse frame s).result = true) :
    (e.attempt frame s).state = (e.link.discard (e.converse frame s).state).state := by
  unfold attempt
  rw [Run.state_bind, Run.result_attempt, Run.state_attempt]
  rcases hr : (e.converse frame s).result with f | reply
  · have hf : f.isTransient = true := by rwa [hr] at h
    dsimp only
    rw [if_pos hf, Run.state_bind, result_dropInput, state_dropInput]
    rfl
  · rw [hr] at h
    exact absurd h Bool.false_ne_true

/-- Otherwise an attempt leaves the link as the conversation has left it. -/
lemma state_attempt_settled {e : Engine σ} {frame : Bytes} {s : σ}
    (h : endsTransient (e.converse frame s).result = false) :
    (e.attempt frame s).state = (e.converse frame s).state := by
  unfold attempt
  rw [Run.state_bind, Run.result_attempt, Run.state_attempt]
  rcases hr : (e.converse frame s).result with f | reply
  · have hf : f.isTransient = false := by rwa [hr] at h
    dsimp only
    rw [if_neg (Bool.eq_false_iff.1 hf)]
    rfl
  · rfl

/-- A recorder sees the calls of some course, and that course decides the conversation. -/
lemma converse_recorded (e : Engine σ) (frame : Bytes) (t : Recorded σ) :
    ∃ k : Course, (e.recorded.converse frame t).result = k.outcome e.trailer ∧
      (e.recorded.converse frame t).state.events =
        t.events ++ k.events frame e.settings.timeoutMs := by
  -- The first call that fails gives the course.
  have hsend := e.events_send t frame
  have hreceive := e.events_receive (e.recorded.link.send frame t).state e.settings.timeoutMs
  rcases hs : (e.recorded.link.send frame t).result with f | _
  · obtain ⟨hres, hst⟩ := converse_unsent hs
    refine ⟨.unsent f, hres, ?_⟩
    rw [hst, hsend, hs]
    rfl
  · rcases hr : (e.recorded.link.receive e.settings.timeoutMs
        (e.recorded.link.send frame t).state).result with f | raw
    · obtain ⟨hres, hst⟩ := converse_unanswered hs hr
      refine ⟨.unanswered f, hres, ?_⟩
      rw [hst]
      exact hreceive.trans (by rw [hsend, hs, hr, List.append_assoc]; rfl)
    · obtain ⟨hres, hst⟩ := converse_answered hs hr
      refine ⟨.answered raw, hres, ?_⟩
      rw [hst]
      exact hreceive.trans (by rw [hsend, hs, hr, List.append_assoc]; rfl)

/-- A recorder sees the calls of an attempt, and that attempt decides the outcome. -/
lemma attempt_recorded (e : Engine σ) (frame : Bytes) (t : Recorded σ) :
    ∃ a : Attempt e.trailer, (e.recorded.attempt frame t).result = a.outcome ∧
      (e.recorded.attempt frame t).state.events =
        t.events ++ a.events frame e.settings.timeoutMs := by
  obtain ⟨k, hres, hev⟩ := e.converse_recorded frame t
  rw [result_attempt, hres]
  -- Only a transient fault adds a call to those of the course.
  cases hk : endsTransient (k.outcome e.trailer) with
  | true =>
    have hdiscard := e.events_discard (e.recorded.converse frame t).state
    refine ⟨⟨k, some (e.recorded.link.discard (e.recorded.converse frame t).state).result,
      hk.symm⟩, rfl, ?_⟩
    rw [state_attempt_transient (by rw [hres, hk]), hdiscard, hev, List.append_assoc]
    rfl
  | false =>
    refine ⟨⟨k, none, hk.symm⟩, rfl, ?_⟩
    rw [state_attempt_settled (by rw [hres, hk]), hev]
    simp [Attempt.events]

/-! ## All attempts of an exchange -/

/-- The answer of an exchange as its last attempt decides it. -/
lemma judge_outcome {t : Trailer} {bound : Nat} (k : Attempts t bound) :
    judge k.last.outcome = k.answer := by
  unfold judge Attempts.answer Reply.isSuccess
  rcases k.last.outcome with f | reply
  · rfl
  · simp only [beq_iff_eq]

section Attempts

variable {e : Engine σ} {frame : Bytes} {s : σ} (c : Command) (bound : Nat)

lemma attempts_zero :
    (e.attempts c frame bound 0 s).result = judge (e.attempt frame s).result ∧
      (e.attempts c frame bound 0 s).state = (e.attempt frame s).state := by
  unfold attempts
  rw [Run.result_bind, Run.state_bind, Run.result_attempt]
  exact ⟨rfl, rfl⟩

/-- An attempt without a transient fault decides its exchange. -/
lemma attempts_settled (left : Nat) (h : endsTransient (e.attempt frame s).result = false) :
    (e.attempts c frame bound left s).result = judge (e.attempt frame s).result ∧
      (e.attempts c frame bound left s).state = (e.attempt frame s).state := by
  cases left with
  | zero => exact attempts_zero c bound
  | succ left =>
    -- What is judged is a reply, or a fault that ends the exchange.
    unfold attempts
    rw [Run.result_bind, Run.state_bind, Run.result_attempt, Run.state_attempt]
    rcases hr : (e.attempt frame s).result with f | reply
    · have hf : ¬f.isTransient = true := by simpa [endsTransient, hr] using h
      simp only [judge, if_neg hf]
      exact ⟨rfl, rfl⟩
    · dsimp only [judge]
      cases reply.isSuccess <;> exact ⟨rfl, rfl⟩

/-- After a transient fault the attempts go on, as long as there are any left. -/
lemma attempts_repeated (left : Nat) (h : endsTransient (e.attempt frame s).result = true) :
    (e.attempts c frame bound (left + 1) s).result =
        (e.attempts c frame bound left (e.attempt frame s).state).result ∧
      (e.attempts c frame bound (left + 1) s).state =
        (e.attempts c frame bound left (e.attempt frame s).state).state := by
  rw [attempts.eq_2, Run.result_bind, Run.state_bind, Run.result_attempt, Run.state_attempt]
  rcases hr : (e.attempt frame s).result with f | reply
  · have hf : f.isTransient = true := by simpa [endsTransient, hr] using h
    simp only [judge, if_pos hf, Run.result_bind, Run.state_bind, Run.result_note,
      Run.state_note, and_self]
  · simp [endsTransient, hr] at h

end Attempts

/-- Attempts end when one has no transient fault or when there are none left; otherwise they go on
from where the first one has led. -/
@[elab_as_elim]
lemma attempts_induct (e : Engine σ) (frame : Bytes) {P : Nat → σ → Prop}
    (settled : ∀ left s, endsTransient (e.attempt frame s).result = false → P left s)
    (exhausted : ∀ s, endsTransient (e.attempt frame s).result = true → P 0 s)
    (repeated : ∀ left s, endsTransient (e.attempt frame s).result = true →
      P left (e.attempt frame s).state → P (left + 1) s)
    (left : Nat) (s : σ) : P left s := by
  induction left generalizing s with
  | zero =>
    cases h : endsTransient (e.attempt frame s).result with
    | false => exact settled 0 s h
    | true => exact exhausted s h
  | succ left ih =>
    cases h : endsTransient (e.attempt frame s).result with
    | false => exact settled (left + 1) s h
    | true => exact repeated left s h (ih _)

/-- A recorder sees the calls of the attempts, and they decide the answer. -/
lemma attempts_recorded (e : Engine σ) (c : Command) (frame : Bytes) (bound left : Nat)
    (t : Recorded σ) :
    ∃ k : Attempts e.trailer left,
      (e.recorded.attempts c frame bound left t).result = k.answer ∧
        (e.recorded.attempts c frame bound left t).state.events =
          t.events ++ k.events frame e.settings.timeoutMs := by
  induction left, t using attempts_induct e.recorded frame with
  | settled left t h =>
    obtain ⟨a, hres, hev⟩ := e.attempt_recorded frame t
    obtain ⟨hr, hst⟩ := attempts_settled c bound left h
    have ha : endsTransient a.outcome = false := by rw [← hres, h]
    refine ⟨.single a fun h' => absurd (ha.symm.trans h') Bool.false_ne_true, ?_, ?_⟩
    · rw [hr, hres, ← judge_outcome]
      rfl
    · rw [hst, hev, Attempts.events_single]
  | exhausted t _ =>
    obtain ⟨a, hres, hev⟩ := e.attempt_recorded frame t
    obtain ⟨hr, hst⟩ := attempts_zero (e := e.recorded) (s := t) c bound
    refine ⟨.single a fun _ => rfl, ?_, ?_⟩
    · rw [hr, hres, ← judge_outcome]
      rfl
    · rw [hst, hev, Attempts.events_single]
  | repeated left t h ih =>
    obtain ⟨a, hres, hev⟩ := e.attempt_recorded frame t
    obtain ⟨hr, hst⟩ := attempts_repeated c bound left h
    obtain ⟨k, hk, hevk⟩ := ih
    refine ⟨.after a (by rw [← hres, h]) k, hr.trans hk, ?_⟩
    rw [hst, hevk, hev, Attempts.events_after, List.append_assoc]

section Frame

variable {e : Engine σ} {c : Command} {bound : Nat}

lemma exchangeWithin_of_encode {frame : Bytes} (h : Frame.encode e.trailer c.body = .ok frame) :
    e.exchangeWithin bound c = e.attempts c frame bound bound := by
  simp only [exchangeWithin, h]

lemma exchangeWithin_of_refused {f : Fault} (h : Frame.encode e.trailer c.body = .error f) :
    e.exchangeWithin bound c = Run.fail f := by
  simp only [exchangeWithin, h]

lemma serve_of_encode {q : Call} {frame : Bytes}
    (h : Frame.encode e.trailer q.command.body = .ok frame) :
    e.serve q = e.attempts q.command frame (q.bound.getD e.settings.retries)
      (q.bound.getD e.settings.retries) :=
  exchangeWithin_of_encode h

lemma serve_of_refused {q : Call} {f : Fault}
    (h : Frame.encode e.trailer q.command.body = .error f) : e.serve q = Run.fail f :=
  exchangeWithin_of_refused h

end Frame

/-- The engine over the same link, where the dropping of input reports something else. -/
def reporting (e : Engine σ) (report : σ → Except Fault Unit) : Engine σ :=
  { e with link :=
    { e.link with discard := fun s => { e.link.discard s with result := report s } } }

/-- What the dropping of input reports is of no consequence. -/
lemma reporting_corresponds (e : Engine σ) (report : σ → Except Fault Unit) :
    Corresponds Eq (e.reporting report) e := by
  refine ⟨rfl, rfl, fun _ frame _ => ?_⟩
  rintro s _ rfl
  -- A conversation does not drop input, so it is the same over both links.
  have hres : (e.reporting report).converse frame s = e.converse frame s := rfl
  refine ⟨by rw [result_attempt, result_attempt, hres], ?_⟩
  cases ht : endsTransient (e.converse frame s).result with
  | true =>
    rw [state_attempt_transient (by rw [hres, ht]), state_attempt_transient ht, hres]
    rfl
  | false => rw [state_attempt_settled (by rw [hres, ht]), state_attempt_settled ht, hres]

/-- **An exchange is a sequence of attempts.**  Over any link, and without a change to what the
link sees, an exchange either fails because its command fits no frame, and then makes no call,
or it makes the calls of some `Attempts` with the frame of the command, and the last of them
decides its answer.  What the dropping of input reports changes nothing. -/
theorem exchangeWithin_attempts (e : Engine σ) (bound : Nat) (c : Command) (s : σ) :
    let o := e.exchangeWithin bound c s
    let w := e.recorded.exchangeWithin bound c { inner := s }
    (w.result = o.result ∧ w.state.inner = o.state) ∧
      (∀ report : σ → Except Fault Unit,
        ((e.reporting report).exchangeWithin bound c s).result = o.result ∧
          ((e.reporting report).exchangeWithin bound c s).state = o.state) ∧
      match Frame.encode e.trailer c.body with
      | .error f =>
        (∃ text, f = .validation text) ∧ o.result = .error f ∧ o.state = s ∧
          w.state.events = []
      | .ok frame => ∃ k : Attempts e.trailer bound,
          w.state.events = k.events frame e.settings.timeoutMs ∧ o.result = k.answer := by
  intro o w
  have hrec := e.recorded_corresponds.exchangeWithin bound c
    (s := { inner := s }) (t := s) ⟨rfl, rfl, rfl⟩
  refine ⟨⟨hrec.1, hrec.2.1⟩, fun report => ?_, ?_⟩
  · exact (e.reporting_corresponds report).exchangeWithin bound c rfl
  cases hf : Frame.encode e.trailer c.body with
  | error f =>
    -- Neither of the engines gets as far as a call.
    have ho : o = Run.fail f s := congrFun (exchangeWithin_of_refused hf) s
    have hw : w = Run.fail f { inner := s } :=
      congrFun (exchangeWithin_of_refused (e := e.recorded) hf) _
    refine ⟨Frame.exists_of_encode_eq_error hf, ?_, ?_, ?_⟩
    · rw [ho, Run.result_fail]
    · rw [ho, Run.state_fail]
    · rw [hw, Run.state_fail]
  | ok frame =>
    obtain ⟨k, hk, hev⟩ := e.attempts_recorded c frame bound bound { inner := s }
    have hw : w = e.recorded.attempts c frame bound bound { inner := s } :=
      congrFun (exchangeWithin_of_encode (e := e.recorded) hf) _
    refine ⟨k, ?_, ?_⟩
    · rw [hw, hev, List.nil_append]
    · rw [← hrec.1, ← hk, ← hw]

end Engine
end TagReader
