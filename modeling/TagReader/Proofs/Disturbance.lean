/-
# Transient faults are invisible

A link may fail in passing: a frame is not sent, nothing comes back in time, or what comes back is
no frame.  This file shows that callers do not notice such faults, as long as there are no more of
them in an exchange than its bound on retries allows.

* A `Bout` is what a script holds for one exchange: some transient faults, and then an ending that
  is not one.
* The same acts are carried out twice: over a script that holds only the endings, and over one that
  holds the faults as well.

The invariant is `InStep`: both scripts have come to the same bout, and every frame of the first run
has been sent in the second once more for every fault of its bout.  An exchange uses exactly one
bout (`Engine.serve_inStep`), whatever it asks, so a dialogue keeps the invariant, also where its
next question depends on an answer.  The main result is `Engine.acts_disturbed`.
-/
import Mathlib.Data.List.Forall2
import TagReader.Proofs.Acts
import TagReader.Proofs.Resync
import TagReader.Proofs.Transmissions

namespace TagReader

variable {ρ α : Type} {t : Trailer}

/-! ## Scripts by attempts -/

namespace Course

/-- The fault of the sending, if it fails. -/
def hindrance? : Course → Option Fault
  | unsent f => some f
  | unanswered _ => none
  | answered _ => none

/-- What is received, if the frame is sent. -/
def answer? : Course → Option (Except Fault Bytes)
  | unsent _ => none
  | unanswered f => some (.error f)
  | answered raw => some (.ok raw)

end Course

/-- The attempts to come take these courses. -/
structure Recorded.Follows (s : Recorded (Script ρ)) (courses : List Course) : Prop where
  sendFaults : s.sendFaults = courses.map Course.hindrance?
  queue : s.inner.queue = courses.filterMap Course.answer?
  responder : s.inner.responder = none

/-- A script by which the attempts take these courses, whatever is sent.  The dropping of input may
fail too. -/
def Script.staged (courses : List Course) (drops : List (Option Fault)) : Recorded (Script ρ) where
  inner := { queue := courses.filterMap Course.answer? }
  sendFaults := courses.map Course.hindrance?
  discardFaults := drops

lemma Script.staged_follows (courses : List Course) (drops : List (Option Fault)) :
    (staged courses drops : Recorded (Script ρ)).Follows courses :=
  ⟨rfl, rfl, rfl⟩

namespace Engine

section Follows

variable (respond : Bytes → ρ → Except Fault Bytes × ρ) (t) (c : Settings) (frame : Bytes)
  {s : Recorded (Script ρ)} {k : Course} {ks : List Course}

lemma discard_follows (h : s.Follows ks) :
    ((Script.engine respond t c).recorded.link.discard s).state.Follows ks := by
  simp only [recorded, Link.recorded]
  cases s.discardFaults.head?.join <;> exact ⟨h.sendFaults, h.queue, h.responder⟩

lemma send_unsent {f : Fault} (h : s.Follows (.unsent f :: ks)) :
    let e := (Script.engine respond t c).recorded
    (e.link.send frame s).result = .error f ∧ (e.link.send frame s).state.Follows ks := by
  obtain ⟨inner, events, sendFaults, drops⟩ := s
  obtain ⟨rfl, hqueue, hresponder⟩ := h
  exact ⟨rfl, rfl, hqueue, hresponder⟩

lemma send_answered {r : Except Fault Bytes} (hk : k.answer? = some r) (h : s.Follows (k :: ks))
    (ms : Nat) :
    let e := (Script.engine respond t c).recorded
    (e.link.send frame s).result = .ok () ∧
      (e.link.receive ms (e.link.send frame s).state).result = r ∧
      (e.link.receive ms (e.link.send frame s).state).state.Follows ks := by
  obtain ⟨⟨sent, queue, responder, receives, discards⟩, events, sendFaults, drops⟩ := s
  obtain ⟨rfl, rfl, rfl⟩ := h
  cases k with
  | unsent f => cases hk
  | unanswered f =>
    obtain rfl := Option.some.inj hk
    exact ⟨rfl, rfl, rfl, rfl, rfl⟩
  | answered raw =>
    obtain rfl := Option.some.inj hk
    exact ⟨rfl, rfl, rfl, rfl, rfl⟩

lemma converse_follows (h : s.Follows (k :: ks)) :
    ((Script.engine respond t c).recorded.converse frame s).result = k.outcome t ∧
      ((Script.engine respond t c).recorded.converse frame s).state.Follows ks := by
  cases k with
  | unsent f =>
    obtain ⟨hsend, hrest⟩ := send_unsent t respond c frame h
    obtain ⟨hres, hst⟩ := converse_unsent hsend
    exact ⟨hres, by rwa [hst]⟩
  | unanswered f =>
    obtain ⟨hsend, hreceive, hrest⟩ := send_answered t respond c frame rfl h c.timeoutMs
    obtain ⟨hres, hst⟩ := converse_unanswered hsend hreceive
    exact ⟨hres, by rwa [hst]⟩
  | answered raw =>
    obtain ⟨hsend, hreceive, hrest⟩ := send_answered t respond c frame rfl h c.timeoutMs
    obtain ⟨hres, hst⟩ := converse_answered hsend hreceive
    exact ⟨hres, by rwa [hst]⟩

/-- An attempt takes the next course. -/
lemma attempt_follows (h : s.Follows (k :: ks)) :
    ((Script.engine respond t c).recorded.attempt frame s).result = k.outcome t ∧
      ((Script.engine respond t c).recorded.attempt frame s).state.Follows ks := by
  obtain ⟨hres, hrest⟩ := converse_follows t respond c frame h
  refine ⟨by rw [result_attempt, hres], ?_⟩
  cases ht : endsTransient ((Script.engine respond t c).recorded.converse frame s).result with
  | true =>
    rw [state_attempt_transient ht]
    exact discard_follows t respond c hrest
  | false => rwa [state_attempt_settled ht]

/-- Attempts go past transient faults to the ending that follows them. -/
lemma attempts_follow (command : Command) (bound : Nat) {left : Nat} {faults : List Course}
    (hfaults : ∀ k ∈ faults, endsTransient (k.outcome t) = true)
    (hk : endsTransient (k.outcome t) = false) (hle : faults.length ≤ left)
    (h : s.Follows (faults ++ k :: ks)) :
    let o := (Script.engine respond t c).recorded.attempts command frame bound left s
    o.result = judge (k.outcome t) ∧ o.state.Follows ks ∧
      o.state.frames = s.frames ++ List.replicate (faults.length + 1) frame := by
  intro o
  induction faults generalizing s left with
  | nil =>
    obtain ⟨hres, hrest⟩ := attempt_follows t respond c frame h
    obtain ⟨hr, hst⟩ := attempts_settled command bound left (by rw [hres, hk])
    refine ⟨hr.trans (by rw [hres]), ?_, ?_⟩
    · rwa [← hst] at hrest
    · rw [hst, frames_attempt]
      rfl
  | cons f faults ih =>
    -- The first fault uses up one of the attempts that are left.
    obtain ⟨left, rfl⟩ := Nat.exists_eq_add_of_le' (Nat.zero_lt_of_lt hle)
    obtain ⟨hf, hrest⟩ := List.forall_mem_cons.1 hfaults
    obtain ⟨hres, hnext⟩ := attempt_follows t respond c frame h
    obtain ⟨hr, hst⟩ := attempts_repeated command bound left (by rw [hres, hf])
    obtain ⟨hr', hnext', hframes⟩ := ih hrest (Nat.le_of_succ_le_succ hle) hnext
    refine ⟨hr.trans hr', ?_, ?_⟩
    · rwa [← hst] at hnext'
    · rw [hst, hframes, frames_attempt, List.append_assoc]
      rfl

end Follows

end Engine

/-! ## Two runs side by side -/

/-- What a script holds for one exchange. -/
structure Bout (t : Trailer) where
  /-- The courses of the attempts that are repeated. -/
  faults : List Course
  /-- The course of the last attempt. -/
  ending : Course
  /-- An attempt is repeated only after a transient fault. -/
  faults_transient : ∀ k ∈ faults, endsTransient (k.outcome t) = true
  /-- The last attempt decides the exchange. -/
  ending_settled : endsTransient (ending.outcome t) = false

namespace Bout

def courses (bout : Bout t) : List Course := bout.faults ++ [bout.ending]

/-- A question leaves room for the faults of a bout. -/
def Within (retries : Nat) (bout : Bout t) (q : Call) : Prop :=
  bout.faults.length ≤ q.bound.getD retries

instance (retries : Nat) (bout : Bout t) (q : Call) : Decidable (bout.Within retries q) :=
  inferInstanceAs (Decidable (_ ≤ _))

/-- The frames of some exchanges, each sent once more for every fault of its bout. -/
def resent (bouts : List (Bout t)) (frames : List Bytes) : List Bytes :=
  (bouts.zip frames).flatMap fun p => List.replicate (p.1.faults.length + 1) p.2

lemma resent_concat {bouts : List (Bout t)} {frames : List Bytes}
    (h : bouts.length = frames.length) (bout : Bout t) (frame : Bytes) :
    resent (bouts ++ [bout]) (frames ++ [frame]) =
      resent bouts frames ++ List.replicate (bout.faults.length + 1) frame := by
  unfold resent
  rw [List.zip_append h, List.flatMap_append]
  simp

end Bout

/-- The invariant: two scripts that differ in the faults of the bouts have used the same bouts. -/
structure InStep (used rest : List (Bout t)) (s s' : Recorded (Script ρ)) : Prop where
  calm : s.Follows (rest.map Bout.ending)
  rough : s'.Follows (rest.flatMap Bout.courses)
  length_frames : s.frames.length = used.length
  frames : s'.frames = Bout.resent used s.frames

namespace Engine

section InStep

variable (respond : Bytes → ρ → Except Fault Bytes × ρ) {c : Settings}
  {used bouts rest : List (Bout t)} {s s' : Recorded (Script ρ)}

/-- An exchange uses one bout. -/
lemma serve_inStep {q : Call} {frame : Bytes} (hf : Frame.encode t q.command.body = .ok frame)
    {bout : Bout t} (hq : bout.Within c.retries q) (h : InStep used (bout :: rest) s s') :
    let e := (Script.engine respond t c).recorded
    (e.serve q s').result = (e.serve q s).result ∧
      InStep (used ++ [bout]) rest (e.serve q s).state (e.serve q s').state := by
  intro e
  rw [serve_of_encode (e := e) hf]
  -- The first run is the case without faults.
  obtain ⟨hr, hrest, hframes⟩ := attempts_follow t respond c frame q.command
    (q.bound.getD c.retries) (fun _ hk => absurd hk List.not_mem_nil) bout.ending_settled
    (Nat.zero_le _) h.calm
  have hcourses : (bout :: rest).flatMap Bout.courses =
      bout.faults ++ bout.ending :: rest.flatMap Bout.courses := by
    rw [List.flatMap_cons, Bout.courses, List.append_assoc]
    rfl
  obtain ⟨hr', hrest', hframes'⟩ := attempts_follow t respond c frame q.command
    (q.bound.getD c.retries) bout.faults_transient bout.ending_settled hq
    (hcourses ▸ h.rough)
  refine ⟨hr'.trans hr.symm, hrest, hrest', ?_, ?_⟩
  · refine (congrArg List.length hframes).trans ?_
    rw [List.length_append, List.length_append, h.length_frames]
    rfl
  · refine hframes'.trans ?_
    rw [h.frames, ← Bout.resent_concat h.length_frames.symm]
    exact congrArg (Bout.resent _) hframes.symm

/-- Dialogues stay in step.  Both runs get the same answers, so they go on to the same questions. -/
lemma conduct_inStep (d : Talk α)
    (hbouts : List.Forall₂ (Bout.Within c.retries) bouts
      ((Script.engine respond t c).recorded.asked d s))
    (h : InStep used (bouts ++ rest) s s') :
    let e := (Script.engine respond t c).recorded
    (e.conduct d s').result = (e.conduct d s).result ∧
      InStep (used ++ bouts) rest (e.conduct d s).state (e.conduct d s').state := by
  intro e
  induction d generalizing used bouts s s' with
  | done a =>
    obtain rfl := List.forall₂_nil_right_iff.1 hbouts
    exact ⟨rfl, by rwa [List.append_nil]⟩
  | fail f =>
    obtain rfl := List.forall₂_nil_right_iff.1 hbouts
    exact ⟨rfl, by rwa [List.append_nil]⟩
  | note n d ih =>
    rw [result_conduct_note, result_conduct_note, state_conduct_note, state_conduct_note]
    exact ih hbouts h
  | ask q k ih =>
    rw [result_conduct_ask, result_conduct_ask, state_conduct_ask, state_conduct_ask]
    -- Only a question whose command fits a frame uses a bout.
    cases hf : Frame.encode t q.command.body with
    | error f =>
      rw [asked_of_refused e hf] at hbouts
      rw [serve_of_refused (e := e) hf]
      exact ih (.error f) hbouts h
    | ok frame =>
      rw [asked_of_encode e hf] at hbouts
      obtain ⟨bout, bouts, hq, hlater, rfl⟩ := List.forall₂_cons_right_iff.1 hbouts
      obtain ⟨hres, hnext⟩ := serve_inStep respond hf hq h
      rw [hres]
      have hstep := ih (e.serve q s).result hlater hnext
      rwa [List.append_assoc] at hstep

lemma act_inStep (a : Act) (st : Standing)
    (hbouts : List.Forall₂ (Bout.Within c.retries) bouts
      ((Script.engine respond t c).recorded.askedBy st s a))
    (h : InStep used (bouts ++ rest) s s') :
    let e := (Script.engine respond t c).recorded
    (e.act st s' a).1.result = (e.act st s a).1.result ∧ (e.act st s' a).2 = (e.act st s a).2 ∧
      InStep (used ++ bouts) rest (e.act st s a).1.state (e.act st s' a).1.state := by
  intro e
  cases a with
  | operation i op =>
    obtain ⟨hres, hnext⟩ := conduct_inStep respond (op.talk (st.tags i)) hbouts h
    obtain ⟨hr, hs, hb⟩ := e.act_operation st s i op
    obtain ⟨hr', hs', hb'⟩ := e.act_operation st s' i op
    rw [hr, hs, hb, hr', hs', hb', hres]
    exact ⟨rfl, rfl, hnext⟩
  | authentication i nonce =>
    obtain ⟨hres, hnext⟩ := conduct_inStep respond
      (Iso14443a.authenticateUltralightC (st.handshakes i) nonce) hbouts h
    obtain ⟨hr, hs, hu⟩ := e.act_authentication st s i nonce
    obtain ⟨hr', hs', hu'⟩ := e.act_authentication st s' i nonce
    rw [hr, hs, hu, hr', hs', hu', hres]
    exact ⟨rfl, rfl, hnext⟩

lemma acts_inStep (as : List Act) (st : Standing)
    (hbouts : List.Forall₂ (Bout.Within c.retries) bouts
      ((Script.engine respond t c).recorded.askedByAll as st s))
    (h : InStep used (bouts ++ rest) s s') :
    let e := (Script.engine respond t c).recorded
    (e.acts as st s').results = (e.acts as st s).results ∧
      (e.acts as st s').standing = (e.acts as st s).standing ∧
      InStep (used ++ bouts) rest (e.acts as st s).state (e.acts as st s').state := by
  intro e
  induction as generalizing used bouts st s s' with
  | nil =>
    obtain rfl := List.forall₂_nil_right_iff.1 hbouts
    exact ⟨rfl, rfl, by rwa [List.append_nil]⟩
  | cons a as ih =>
    -- The first bouts belong to the first act.
    have hfirst := List.forall₂_take_append bouts _ _ hbouts
    have hlater := List.forall₂_drop_append bouts _ _ hbouts
    rw [← List.take_append_drop (e.askedBy st s a).length bouts, List.append_assoc] at h
    obtain ⟨hr, hst, hnext⟩ := act_inStep respond a st hfirst h
    obtain ⟨hrs, hst', hend⟩ := ih (e.act st s a).2 hlater hnext
    rw [List.append_assoc, List.take_append_drop] at hend
    rw [acts_cons, acts_cons, hr, hst]
    exact ⟨congrArg (List.cons _) hrs, hst', hend⟩

/-- **Transient faults are invisible.**  Let the courses of all attempts be given by a script, with
a bout for each exchange, and let no bout have more faults than the bound of its exchange allows.
Then acts lead to the same results and leave the same sessions behind as they do over a script
without the faults.  The same frames are sent in the same order, each once more for every fault of
its bout. -/
theorem acts_disturbed (bouts rest : List (Bout t)) (as : List Act) (st : Standing)
    (drops drops' : List (Option Fault)) :
    let e := (Script.engine respond t c).recorded
    let calm := Script.staged ((bouts ++ rest).map Bout.ending) drops
    let rough := Script.staged ((bouts ++ rest).flatMap Bout.courses) drops'
    List.Forall₂ (Bout.Within c.retries) bouts (e.askedByAll as st calm) →
    (e.acts as st rough).results = (e.acts as st calm).results ∧
      (e.acts as st rough).standing = (e.acts as st calm).standing ∧
      (e.acts as st calm).state.frames.length = bouts.length ∧
      (e.acts as st rough).state.frames = Bout.resent bouts (e.acts as st calm).state.frames := by
  intro e calm rough hbouts
  have hstart : InStep [] (bouts ++ rest) calm rough :=
    ⟨Script.staged_follows _ _, Script.staged_follows _ _, rfl, rfl⟩
  obtain ⟨hresults, hstanding, hend⟩ := acts_inStep respond as st hbouts hstart
  exact ⟨hresults, hstanding, hend.length_frames, hend.frames⟩

end InStep

/-! ## An example -/

/-- The course of an attempt that a reply of the reader ends. -/
def replied (status : UInt8) (payload : Bytes) : Course :=
  .answered (Frame.closed .standard
    (UInt8.ofNat (payload.length + 7) :: 0x00 :: 0x00 :: 0x00 :: status :: payload))

/-- A write to a tag with blocks of four bytes, the reading of a sector, and a try of the
Ultralight C authentication. -/
def sampleActs : List Act :=
  [.operation 0 (.iso14443b (.write 0 1 [0x01, 0x02, 0x03, 0x04])),
    .operation 0 (.mifare (.readSector 0 ⟨.a, none⟩ 1)), .authentication 0 0xA0A1A2A3A4A5A6A7#64]

/-- A bout for each exchange of these acts.  The write is refused with blocks of two bytes, and the
tag does not accept the key. -/
def sampleBouts : List (Bout .standard) :=
  [⟨[.unsent (.communication "broken pipe"), .unanswered .timeout, .answered [0x03, 0x00]],
      replied 0x01 [], by decide +kernel, by decide +kernel⟩,
    ⟨[], replied 0x00 [], by decide +kernel, by decide +kernel⟩,
    ⟨List.replicate 5 (.unanswered .timeout), replied 0x00 [0x02, 0xAB, 0xCD], by decide +kernel,
      by decide +kernel⟩,
    ⟨[.answered []], replied 0x00 [0x09, 0xAF, 0x5E, 0xC6, 0xDB, 0x5E, 0x00, 0x75, 0x2B, 0x20],
      by decide +kernel, by decide +kernel⟩,
    ⟨[], replied 0x00 [0x01, 0x00], by decide +kernel, by decide +kernel⟩]

def sampleEngine : Engine (Recorded (Script Unit)) :=
  (Script.engine (fun _ r => (.error .timeout, r)) .standard {}).recorded

def sampleStanding : Standing := ⟨fun _ => {}, fun _ => ⟨Octets.fill 16 0x42, .idle⟩⟩

/-- The nine faults leave no trace but nine frames more. -/
theorem acts_disturbed_sample :
    let calm : Recorded (Script Unit) := Script.staged (sampleBouts.map Bout.ending) []
    let o := sampleEngine.acts sampleActs sampleStanding calm
    let o' := sampleEngine.acts sampleActs sampleStanding
      (Script.staged (sampleBouts.flatMap Bout.courses) [])
    List.Forall₂ (Bout.Within 3) sampleBouts
        (sampleEngine.askedByAll sampleActs sampleStanding calm) ∧
      (o.results.map Except.isOk = [true, true, true] ∧ (o.standing.tags 0).isSrix = true ∧
        (o.standing.handshakes 0).progress = .failed ∧ o.state.frames.length = 5) ∧
      o'.results = o.results ∧ o'.standing = o.standing ∧
      o'.state.frames = Bout.resent sampleBouts o.state.frames := by
  intro calm o o'
  have hbouts : List.Forall₂ (Bout.Within 3) sampleBouts
      (sampleEngine.askedByAll sampleActs sampleStanding calm) := by decide +kernel
  have hend := acts_disturbed (fun _ (r : Unit) => (.error .timeout, r)) (t := .standard) (c := {})
    sampleBouts [] sampleActs sampleStanding [] []
  rw [List.append_nil] at hend
  obtain ⟨hresults, hstanding, -, hframes⟩ := hend hbouts
  exact ⟨hbouts, by decide +kernel, hresults, hstanding, hframes⟩

end Engine

end TagReader
