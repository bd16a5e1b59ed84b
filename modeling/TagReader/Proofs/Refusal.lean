/-
# Refused operations

An operation is *refused* when it fails because a precondition of its caller is broken.  Such a
fault is meant to come before anything is sent.  This file says when it does.

* A dialogue `RefusesEarly` if it is never refused once a question of it has been answered.
  Nearly all operations are of this kind, and over a link that refuses nothing by itself such
  an operation makes no call when it is refused (`Engine.events_conduct_refused`).
* Four operations ask a second question whose frame may be longer than the first one, and
  find out only then that it does not fit.  `Operation.Overruns` lists them, each with its
  exact condition.

The main result, `Operation.refusedLate_iff`, says that these are all cases in which an operation
has used the link when it is refused.
-/
import TagReader.Proofs.Attempts
import TagReader.Proofs.Decoding

namespace TagReader

variable {σ α β : Type}

/-- A computation has ended with a broken precondition. -/
def Refused (r : Except Fault α) : Prop := ∃ text, r = .error (.validation text)

lemma not_refused_ok (a : α) : ¬Refused (.ok a) := by
  rintro ⟨text, ⟨⟩⟩

lemma not_refused_error {f : Fault} (h : ∀ text, f ≠ .validation text) :
    ¬Refused (.error f : Except Fault α) := by
  rintro ⟨text, ht⟩
  exact h text (Except.error.inj ht)

lemma Refused.of_error {f : Fault} (h : Refused (.error f : Except Fault α)) :
    Refused (.error f : Except Fault β) := by
  obtain ⟨text, ht⟩ := h
  exact ⟨text, congrArg Except.error (Except.error.inj ht)⟩

lemma OnlyMalformed.not_refused {r : Except Fault α} (h : OnlyMalformed r) : ¬Refused r := by
  rintro ⟨text, ht⟩
  exact absurd (h _ ht) Bool.false_ne_true

/-- The link refuses nothing by itself. -/
structure Link.Obliging (l : Link σ) : Prop where
  send : ∀ frame s, ¬Refused (l.send frame s).result
  receive : ∀ ms s, ¬Refused (l.receive ms s).result

/-! ## One exchange -/

namespace Engine

variable {e : Engine σ}

/-- The answer of an exchange is the judgement of one of its attempts. -/
lemma exists_result_attempts (c : Command) (frame : Bytes) (bound left : Nat) (s : σ) :
    ∃ s', (e.attempts c frame bound left s).result = judge (e.attempt frame s').result := by
  induction left, s using attempts_induct e frame with
  | settled left s h => exact ⟨s, (attempts_settled c bound left h).1⟩
  | exhausted s _ => exact ⟨s, (attempts_zero c bound).1⟩
  | repeated left s h ih =>
    obtain ⟨s', hs'⟩ := ih
    exact ⟨s', (attempts_repeated c bound left h).1.trans hs'⟩

lemma not_refused_attempt (hl : e.link.Obliging) (frame : Bytes) (s : σ) :
    ¬Refused (e.attempt frame s).result := by
  rw [result_attempt]
  -- The link refuses nothing, and the faults of a frame that does not decode are transient.
  have hsend := hl.send frame s
  have hreceive := hl.receive e.settings.timeoutMs (e.link.send frame s).state
  rcases hs : (e.link.send frame s).result with f | _
  · rw [(converse_unsent hs).1]
    rw [hs] at hsend
    exact fun h => hsend h.of_error
  · rcases hr : (e.link.receive e.settings.timeoutMs (e.link.send frame s).state).result
      with f | raw
    · rw [(converse_unanswered hs hr).1]
      rw [hr] at hreceive
      exact fun h => hreceive h.of_error
    · rw [(converse_answered hs hr).1]
      rintro ⟨text, ht⟩
      exact absurd (Frame.isTransient_of_decode ht) Bool.false_ne_true

lemma not_refused_judge {r : Except Fault Reply} (h : ¬Refused r) : ¬Refused (judge r) := by
  rcases r with f | reply
  · exact fun hj => h hj.of_error
  · dsimp only [judge]
    cases reply.isSuccess with
    | true => exact not_refused_ok _
    | false => exact not_refused_error (by simp)

/-- A question whose frame fits is not refused. -/
lemma not_refused_serve (hl : e.link.Obliging) {q : Call} (s : σ)
    (hf : Frame.Fits e.trailer q.command.body) : ¬Refused (e.serve q s).result := by
  rw [serve_of_encode (Frame.encode_of_fits hf)]
  obtain ⟨s', hs'⟩ := exists_result_attempts q.command _ _ _ s
  rw [hs']
  exact not_refused_judge (not_refused_attempt hl _ s')

/-- A question whose frame fits reaches the link. -/
lemma events_serve {q : Call} (t : Recorded σ) (hf : Frame.Fits e.trailer q.command.body) :
    ∃ ev, ev ≠ [] ∧ (e.recorded.serve q t).state.events = t.events ++ ev := by
  rw [serve_of_encode (e := e.recorded) (Frame.encode_of_fits hf)]
  obtain ⟨k, -, hev⟩ := e.attempts_recorded q.command _ _ _ t
  exact ⟨_, k.events_ne_nil _ _, hev⟩

/-- A question whose frame does not fit is refused, and nothing else happens. -/
lemma serve_of_not_fits {q : Call} (hf : ¬Frame.Fits e.trailer q.command.body) :
    ∃ text, ∀ s, (e.serve q s).result = .error (.validation text) ∧ (e.serve q s).state = s := by
  obtain ⟨text, ht⟩ := Frame.encode_of_not_fits hf
  refine ⟨text, fun s => ?_⟩
  rw [serve_of_refused ht]
  exact ⟨rfl, rfl⟩

end Engine

/-! ## Dialogues that refuse early -/

namespace Dialogue

variable {ι : Type}

/-- Whatever the answers, the dialogue is not refused. -/
def NeverRefuses : Dialogue ι α → Prop
  | done _ => True
  | fail f => ∀ text, f ≠ .validation text
  | note _ d => d.NeverRefuses
  | ask _ k => ∀ r, (k r).NeverRefuses

/-- Once a question has been answered, and be it by a fault, the dialogue is not refused. -/
def RefusesEarly : Dialogue ι α → Prop
  | done _ => True
  | fail _ => True
  | note _ d => d.RefusesEarly
  | ask _ k => ∀ r, (Refused r → (k r).RefusesEarly) ∧ (¬Refused r → (k r).NeverRefuses)

lemma NeverRefuses.refusesEarly {d : Dialogue ι α} (h : d.NeverRefuses) : d.RefusesEarly := by
  induction d with
  | done a => trivial
  | fail f => trivial
  | note n d ih => exact ih h
  | ask q k ih => exact fun r => ⟨fun _ => ih r (h r), fun _ => h r⟩

lemma NeverRefuses.bind {d : Dialogue ι α} {f : α → Dialogue ι β} (h : d.NeverRefuses)
    (hf : ∀ a, (f a).NeverRefuses) : (d >>= f).NeverRefuses := by
  induction d with
  | done a => exact hf a
  | fail g => exact h
  | note n d ih => exact ih h
  | ask q k ih => exact fun r => ih r (h r)

lemma neverRefuses_ofExcept {r : Except Fault α} (h : ¬Refused r) :
    (ofExcept r : Dialogue ι α).NeverRefuses := by
  rcases r with f | a
  · exact fun text ht => h ⟨text, congrArg Except.error ht⟩
  · trivial

lemma RefusesEarly.bind {d : Dialogue ι α} {f : α → Dialogue ι β} (h : d.RefusesEarly)
    (hf : ∀ a, (f a).NeverRefuses) : (d >>= f).RefusesEarly := by
  induction d with
  | done a => exact (hf a).refusesEarly
  | fail g => trivial
  | note n d ih => exact ih h
  | ask q k ih => exact fun r => ⟨fun hr => ih r ((h r).1 hr), fun hr => ((h r).2 hr).bind hf⟩

/-- A check that asks nothing may come first. -/
lemma refusesEarly_check {r : Except Fault α} {f : α → Dialogue ι β}
    (hf : ∀ a, (f a).RefusesEarly) : ((ofExcept r : Dialogue ι α) >>= f).RefusesEarly := by
  rcases r with g | a
  · trivial
  · exact hf a

/-- A check of the caller's values that fails on the spot may come first too. -/
lemma RefusesEarly.unless {c : Prop} [Decidable c] {f : Fault} {g : β → Dialogue ι α}
    {d : Dialogue ι α} (h : d.RefusesEarly) :
    (if c then (fail f : Dialogue ι β) >>= g else d).RefusesEarly := by
  by_cases hc : c
  · rw [if_pos hc]
    trivial
  · rwa [if_neg hc]

/-- The answers of a dialogue that stands for one question are all within reach of the next. -/
lemma neverRefuses_outcome {d : Dialogue ι α} {f : Except Fault α → Dialogue ι β}
    (hf : ∀ r, (f r).NeverRefuses) : (d.outcome >>= f).NeverRefuses := by
  induction d with
  | done a => exact hf _
  | fail g => exact hf _
  | note n d ih => exact ih
  | ask q k ih => exact fun r => ih r

lemma NeverRefuses.expand {κ : Type} {d : Dialogue ι α} (h : d.NeverRefuses)
    (f : ι → Dialogue κ Bytes) : (d.expand f).NeverRefuses := by
  induction d with
  | done a => trivial
  | fail g => exact h
  | note n d ih => exact ih h
  | ask q k ih => exact neverRefuses_outcome fun r => ih r (h r)

/-- The dialogue cannot be done before a question of it has been answered. -/
def Asks : Dialogue ι α → Prop
  | done _ => False
  | fail _ => True
  | note _ d => d.Asks
  | ask _ k => ∀ r, Refused r → (k r).Asks

lemma Asks.bind {d : Dialogue ι α} (h : d.Asks) (f : α → Dialogue ι β) : (d >>= f).Asks := by
  induction d with
  | done a => exact absurd h id
  | fail g => trivial
  | note n d ih => exact ih h
  | ask q k ih => exact fun r hr => ih r (h r hr)

lemma asks_require (q : ι) : (require q).Asks := by
  rintro _ ⟨text, rfl⟩
  trivial

end Dialogue

/-! ## Conducting them -/

namespace Engine

variable {e : Engine σ}

lemma not_refused_conduct {d : Dialogue Call α} (h : d.NeverRefuses) (s : σ) :
    ¬Refused (e.conduct d s).result := by
  induction d generalizing s with
  | done a => exact not_refused_ok a
  | fail f => exact not_refused_error h
  | note n d ih =>
    rw [result_conduct_note]
    exact ih h s
  | ask q k ih =>
    rw [result_conduct_ask]
    exact ih _ (h _) _

/-- A dialogue only adds to the calls that a recorder has seen. -/
lemma events_conduct (d : Dialogue Call α) (t : Recorded σ) :
    ∃ ev, (e.recorded.conduct d t).state.events = t.events ++ ev := by
  induction d generalizing t with
  | done a => exact ⟨[], (List.append_nil _).symm⟩
  | fail f => exact ⟨[], (List.append_nil _).symm⟩
  | note n d ih =>
    rw [state_conduct_note]
    exact ih t
  | ask q k ih =>
    rw [state_conduct_ask]
    obtain ⟨ev, hev⟩ := ih (e.recorded.serve q t).result (e.recorded.serve q t).state
    by_cases hf : Frame.Fits e.trailer q.command.body
    · obtain ⟨ev', -, hev'⟩ := events_serve t hf
      exact ⟨ev' ++ ev, by rw [hev, hev', List.append_assoc]⟩
    · obtain ⟨text, ht⟩ := serve_of_not_fits (e := e.recorded) hf
      exact ⟨ev, by rw [hev, (ht t).2]⟩

/-- A dialogue that refuses early has made no call when it is refused. -/
theorem events_conduct_refused (hl : e.link.Obliging) {d : Dialogue Call α}
    (h : d.RefusesEarly) {s : σ} {t : Recorded σ} (hst : t.Shows s)
    (hr : Refused (e.conduct d s).result) : (e.recorded.conduct d t).state.events = t.events := by
  induction d generalizing s t with
  | done a => rfl
  | fail f => rfl
  | note n d ih =>
    rw [result_conduct_note] at hr
    rw [state_conduct_note]
    exact ih h hst hr
  | ask q k ih =>
    rw [result_conduct_ask] at hr
    rw [state_conduct_ask]
    by_cases hf : Frame.Fits e.trailer q.command.body
    · -- The question has reached the link, and from then on nothing is refused.
      exact absurd hr (not_refused_conduct ((h _).2 (not_refused_serve hl s hf)) _)
    · -- The question has been refused, and both links are as before.
      obtain ⟨text, ht⟩ := serve_of_not_fits hf
      obtain ⟨text', ht'⟩ := serve_of_not_fits (e := e.recorded) hf
      have hres := (e.recorded_corresponds.serve q hst).1
      rw [(ht s).2] at hr
      rw [(ht' t).2, hres]
      exact ih _ ((h _).1 ⟨text, (ht s).1⟩) hst hr

/-! ## Late refusals -/

/-- The dialogue is refused, and the link has been used before. -/
def RefusesLate (e : Engine σ) (d : Dialogue Call α) (s : σ) : Prop :=
  Refused (e.conduct d s).result ∧ (e.recorded.conduct d { inner := s }).state.events ≠ []

lemma not_refusesLate (hl : e.link.Obliging) {d : Dialogue Call α} (h : d.RefusesEarly) (s : σ) :
    ¬e.RefusesLate d s := by
  rintro ⟨hr, hev⟩
  exact hev (events_conduct_refused hl h ⟨rfl, rfl, rfl⟩ hr)

/-- What is made of a value in the end has no part in it. -/
lemma refusesLate_map {d : Dialogue Call α} (g : α → β) (s : σ) :
    e.RefusesLate (d >>= fun a => pure (g a)) s ↔ e.RefusesLate d s := by
  unfold RefusesLate
  rw [(e.conduct_map d g s).1, (e.recorded.conduct_map d g _).2]
  refine and_congr_left fun _ => ?_
  cases (e.conduct d s).result with
  | ok a => exact iff_of_false (not_refused_ok _) (not_refused_ok _)
  | error f => exact ⟨Refused.of_error, Refused.of_error⟩

/-- A dialogue that asks has used the link when it is done. -/
lemma events_conduct_ok {d : Dialogue Call α} (h : d.Asks) {t : Recorded σ} {a : α}
    (hr : (e.recorded.conduct d t).result = .ok a) :
    ∃ ev, ev ≠ [] ∧ (e.recorded.conduct d t).state.events = t.events ++ ev := by
  induction d generalizing t with
  | done _ => exact absurd h id
  | fail f => cases hr
  | note n d ih =>
    rw [result_conduct_note] at hr
    rw [state_conduct_note]
    exact ih h hr
  | ask q k ih =>
    rw [result_conduct_ask] at hr
    rw [state_conduct_ask]
    by_cases hf : Frame.Fits e.trailer q.command.body
    · obtain ⟨ev, hne, hev⟩ := events_serve t hf
      obtain ⟨ev', hev'⟩ := events_conduct (e := e) (k (e.recorded.serve q t).result)
        (e.recorded.serve q t).state
      refine ⟨ev ++ ev', List.append_ne_nil_of_left_ne_nil hne ev', ?_⟩
      rw [hev', hev, List.append_assoc]
    · obtain ⟨text, ht⟩ := serve_of_not_fits (e := e.recorded) hf
      rw [(ht t).1, (ht t).2] at hr ⊢
      exact ih _ (h _ ⟨text, rfl⟩) hr

/-- Two dialogues in sequence, of which the first asks and refuses early: together they are
refused late exactly where the second one is refused. -/
lemma refusesLate_bind (hl : e.link.Obliging) {d : Dialogue Call α} (h : d.RefusesEarly)
    (ha : d.Asks) (f : α → Dialogue Call β) (s : σ) :
    e.RefusesLate (d >>= f) s ↔ ∃ a, (e.conduct d s).result = .ok a ∧
      Refused (e.conduct (f a) (e.conduct d s).state).result := by
  have hshow : Recorded.Shows { inner := s } s := ⟨rfl, rfl, rfl⟩
  have hrec := (e.recorded_corresponds.conduct d hshow).1
  have hres := (e.conduct_bind d f s).1
  have hst := (e.recorded.conduct_bind d f { inner := s }).2
  rw [Run.result_bind] at hres
  rw [Run.state_bind, hrec] at hst
  unfold RefusesLate
  cases hd : (e.conduct d s).result with
  | error g =>
    -- The first dialogue decides alone, and it refuses early.
    rw [hd] at hres hst
    rw [hres, hst]
    refine iff_of_false ?_ fun ⟨a, hg, _⟩ => by cases hg
    rintro ⟨hr, hev⟩
    have hd' : Refused (e.conduct d s).result := by
      rw [hd]
      exact hr.of_error
    exact hev (events_conduct_refused hl h hshow hd')
  | ok a =>
    -- The first dialogue has used the link, so any refusal of the second one is late.
    rw [hd] at hres hst
    rw [hres, hst]
    obtain ⟨ev, hne, hev⟩ := events_conduct_ok (e := e) ha (hrec.trans hd)
    obtain ⟨ev', hev'⟩ := events_conduct (e := e) (f a) (e.recorded.conduct d { inner := s }).state
    constructor
    · rintro ⟨hr, -⟩
      exact ⟨a, rfl, hr⟩
    · rintro ⟨a', ha', hr⟩
      obtain rfl : a = a' := Except.ok.inj ha'
      refine ⟨hr, ?_⟩
      dsimp only
      rw [hev', hev]
      exact List.append_ne_nil_of_left_ne_nil (List.append_ne_nil_of_right_ne_nil _ hne) _

section Ask

variable {q : Call} {k : Except Fault Bytes → Dialogue Call α}

/-- A question whose refusal ends its dialogue: that is refused late exactly where the question
can be asked and what follows the answer is refused. -/
lemma refusesLate_ask (hk : ∀ text, k (.error (.validation text)) = .fail (.validation text))
    (s : σ) :
    e.RefusesLate (.ask q k) s ↔ Frame.Fits e.trailer q.command.body ∧
      Refused (e.conduct (k (e.serve q s).result) (e.serve q s).state).result := by
  unfold RefusesLate
  rw [result_conduct_ask, state_conduct_ask, and_comm]
  refine and_congr_left fun _ => ?_
  by_cases hf : Frame.Fits e.trailer q.command.body
  · refine iff_of_true ?_ hf
    obtain ⟨ev, hne, hev⟩ := events_serve { inner := s } hf
    obtain ⟨ev', hev'⟩ := events_conduct (e := e) (k (e.recorded.serve q { inner := s }).result)
      (e.recorded.serve q { inner := s }).state
    rw [hev', hev]
    exact List.append_ne_nil_of_left_ne_nil (List.append_ne_nil_of_right_ne_nil _ hne) _
  · refine iff_of_false ?_ hf
    obtain ⟨text, ht⟩ := serve_of_not_fits (e := e.recorded) hf
    rw [(ht _).1, (ht _).2, hk]
    exact fun h => h rfl

/-- A dialogue that asks one question is refused exactly where the question does not fit. -/
lemma refused_ask_iff (hl : e.link.Obliging)
    (hk : ∀ text, k (.error (.validation text)) = .fail (.validation text))
    (h : (Dialogue.ask q k).RefusesEarly) (s : σ) :
    Refused (e.conduct (.ask q k) s).result ↔ ¬Frame.Fits e.trailer q.command.body := by
  rw [result_conduct_ask]
  by_cases hf : Frame.Fits e.trailer q.command.body
  · refine iff_of_false ?_ (not_not.2 hf)
    exact not_refused_conduct ((h _).2 (not_refused_serve hl s hf)) _
  · refine iff_of_true ?_ hf
    obtain ⟨text, ht⟩ := serve_of_not_fits hf
    rw [(ht s).1, hk]
    exact ⟨text, rfl⟩

end Ask

end Engine

end TagReader
