/-
# Corresponding computations

What an engine does over a link depends on the link only through the results of its calls.
This file makes that precise.  Two computations *correspond* under a relation between the
states of their links when, from related states, they end in the same result and in related
states again.

* `Run.Corresponds` and its closure under the operations from which computations are built;
* `Link.Corresponds`: the three calls of two links correspond;
* `Engine.Corresponds`: the attempts of two engines correspond.  This is all that an exchange
  needs (`Engine.Corresponds.exchangeWithin`), hence every dialogue
  (`Engine.Corresponds.conduct`) and every operation (`Engine.Corresponds.perform`).

A recorder is the first case: recording a link changes no result (`Engine.recorded_corresponds`).
-/
import Mathlib.Tactic.Common
import TagReader.Link.Recorder
import TagReader.Operation

namespace TagReader

variable {σ τ α β : Type}

/-! ## Results and states of sequences -/

namespace Run

lemma result_bind (x : Run σ α) (f : α → Run σ β) (s : σ) :
    ((x >>= f) s).result =
      match (x s).result with
      | .ok a => (f a (x s).state).result
      | .error e => .error e := by
  rw [bind_apply, andThen]
  rcases x s with ⟨_ | _, _, _⟩ <;> rfl

lemma state_bind (x : Run σ α) (f : α → Run σ β) (s : σ) :
    ((x >>= f) s).state =
      match (x s).result with
      | .ok a => (f a (x s).state).state
      | .error _ => (x s).state := by
  rw [bind_apply, andThen]
  rcases x s with ⟨_ | _, _, _⟩ <;> rfl

@[simp] lemma result_fail (e : Fault) (s : σ) : ((fail e : Run σ α) s).result = .error e := rfl

@[simp] lemma state_fail (e : Fault) (s : σ) : ((fail e : Run σ α) s).state = s := rfl

@[simp] lemma result_note (l : Level) (t : String) (s : σ) : (note l t s).result = .ok () := rfl

@[simp] lemma state_note (l : Level) (t : String) (s : σ) : (note l t s).state = s := rfl

@[simp] lemma result_attempt (x : Run σ α) (s : σ) :
    (attempt x s).result = .ok (x s).result := rfl

@[simp] lemma state_attempt (x : Run σ α) (s : σ) : (attempt x s).state = (x s).state := rfl

end Run

namespace Dialogue

variable {ι : Type} (serve : ι → Run σ Bytes)

lemma result_run_ask (q : ι) (k : Except Fault Bytes → Dialogue ι α) (s : σ) :
    (run serve (.ask q k) s).result =
      (run serve (k (serve q s).result) (serve q s).state).result :=
  Run.result_bind (Run.attempt (serve q)) (fun r => run serve (k r)) s

lemma state_run_ask (q : ι) (k : Except Fault Bytes → Dialogue ι α) (s : σ) :
    (run serve (.ask q k) s).state =
      (run serve (k (serve q s).result) (serve q s).state).state :=
  Run.state_bind (Run.attempt (serve q)) (fun r => run serve (k r)) s

lemma result_run_note (n : Note) (d : Dialogue ι α) (s : σ) :
    (run serve (.note n d) s).result = (run serve d s).result :=
  Run.result_bind (Run.note n.level n.text) (fun _ => run serve d) s

lemma state_run_note (n : Note) (d : Dialogue ι α) (s : σ) :
    (run serve (.note n d) s).state = (run serve d s).state :=
  Run.state_bind (Run.note n.level n.text) (fun _ => run serve d) s

end Dialogue

namespace Engine

variable (e : Engine σ)

lemma result_conduct_ask (q : Call) (k : Except Fault Bytes → Dialogue Call α) (s : σ) :
    (e.conduct (.ask q k) s).result =
      (e.conduct (k (e.serve q s).result) (e.serve q s).state).result :=
  Dialogue.result_run_ask e.serve q k s

lemma state_conduct_ask (q : Call) (k : Except Fault Bytes → Dialogue Call α) (s : σ) :
    (e.conduct (.ask q k) s).state =
      (e.conduct (k (e.serve q s).result) (e.serve q s).state).state :=
  Dialogue.state_run_ask e.serve q k s

lemma result_conduct_note (n : Note) (d : Dialogue Call α) (s : σ) :
    (e.conduct (.note n d) s).result = (e.conduct d s).result :=
  Dialogue.result_run_note e.serve n d s

lemma state_conduct_note (n : Note) (d : Dialogue Call α) (s : σ) :
    (e.conduct (.note n d) s).state = (e.conduct d s).state :=
  Dialogue.state_run_note e.serve n d s

/-- A sequence of dialogues is conducted one after the other. -/
lemma conduct_bind (d : Dialogue Call α) (f : α → Dialogue Call β) (s : σ) :
    (e.conduct (d >>= f) s).result = ((e.conduct d >>= fun a => e.conduct (f a)) s).result ∧
      (e.conduct (d >>= f) s).state = ((e.conduct d >>= fun a => e.conduct (f a)) s).state := by
  rw [Run.result_bind, Run.state_bind]
  -- The first dialogue may end in any state of the link, so this is proved for all of them.
  induction d generalizing s with
  | done a => exact ⟨rfl, rfl⟩
  | fail g => exact ⟨rfl, rfl⟩
  | note n d ih =>
    rw [result_conduct_note, state_conduct_note]
    exact ⟨(result_conduct_note e n (d >>= f) s).trans (ih s).1,
      (state_conduct_note e n (d >>= f) s).trans (ih s).2⟩
  | ask q k ih =>
    rw [result_conduct_ask, state_conduct_ask]
    exact ⟨(result_conduct_ask e q (fun r => k r >>= f) s).trans (ih _ _).1,
      (state_conduct_ask e q (fun r => k r >>= f) s).trans (ih _ _).2⟩

/-- What is made of a value in the end changes nothing else. -/
lemma conduct_map (d : Dialogue Call α) (g : α → β) (s : σ) :
    (e.conduct (d >>= fun a => pure (g a)) s).result = (e.conduct d s).result.map g ∧
      (e.conduct (d >>= fun a => pure (g a)) s).state = (e.conduct d s).state := by
  obtain ⟨hr, hs⟩ := e.conduct_bind d (fun a => pure (g a)) s
  rw [hr, hs, Run.result_bind, Run.state_bind]
  cases (e.conduct d s).result <;> exact ⟨rfl, rfl⟩

/-- The outcome of a dialogue is a value, also where the dialogue fails. -/
lemma conduct_outcome (d : Dialogue Call α) (s : σ) :
    (e.conduct d.outcome s).result = .ok (e.conduct d s).result ∧
      (e.conduct d.outcome s).state = (e.conduct d s).state := by
  induction d generalizing s with
  | done a => exact ⟨rfl, rfl⟩
  | fail f => exact ⟨rfl, rfl⟩
  | note n d ih =>
    rw [result_conduct_note, state_conduct_note]
    exact ⟨(result_conduct_note e n d.outcome s).trans (ih s).1,
      (state_conduct_note e n d.outcome s).trans (ih s).2⟩
  | ask q k ih =>
    rw [result_conduct_ask, state_conduct_ask]
    exact ⟨(result_conduct_ask e q (fun r => (k r).outcome) s).trans (ih _ _).1,
      (state_conduct_ask e q (fun r => (k r).outcome) s).trans (ih _ _).2⟩

/-- A dialogue whose questions are replaced by other dialogues is conducted as if these were asked
one by one. -/
lemma conduct_expand {ι : Type} (f : ι → Dialogue Call Bytes) (d : Dialogue ι α) (s : σ) :
    (e.conduct (d.expand f) s).result = (d.run (fun q => e.conduct (f q)) s).result ∧
      (e.conduct (d.expand f) s).state = (d.run (fun q => e.conduct (f q)) s).state := by
  induction d generalizing s with
  | done a => exact ⟨rfl, rfl⟩
  | fail g => exact ⟨rfl, rfl⟩
  | note n d ih =>
    rw [Dialogue.result_run_note, Dialogue.state_run_note]
    exact ⟨(result_conduct_note e n (d.expand f) s).trans (ih s).1,
      (state_conduct_note e n (d.expand f) s).trans (ih s).2⟩
  | ask q k ih =>
    -- The dialogue for the question comes first, and its outcome is the answer.
    obtain ⟨hr, hs⟩ := e.conduct_bind (f q).outcome (fun r => (k r).expand f) s
    obtain ⟨hout, hend⟩ := e.conduct_outcome (f q) s
    rw [Run.result_bind, hout, hend] at hr
    rw [Run.state_bind, hout, hend] at hs
    obtain ⟨hr', hs'⟩ := ih (e.conduct (f q) s).result (e.conduct (f q) s).state
    rw [Dialogue.result_run_ask, Dialogue.state_run_ask]
    exact ⟨hr.trans hr', hs.trans hs'⟩

end Engine

namespace Operation

lemma perform_spec (e : Engine σ) (op : Operation) (b : Iso14443b.Session) (s : σ) :
    (op.perform e b s).1.result = (e.conduct (op.talk b) s).result.map Prod.fst ∧
      (op.perform e b s).1.state = (e.conduct (op.talk b) s).state := by
  unfold perform
  rcases e.conduct (op.talk b) s with ⟨_ | ⟨_, _⟩, _, _⟩ <;> exact ⟨rfl, rfl⟩

/-- The session to go on with depends on the result of the dialogue only. -/
lemma session_perform (e : Engine σ) (op : Operation) (b : Iso14443b.Session) (s : σ) :
    (op.perform e b s).2 = ((e.conduct (op.talk b) s).result.map Prod.snd).toOption.getD b := by
  unfold perform
  rcases e.conduct (op.talk b) s with ⟨_ | ⟨_, _⟩, _, _⟩ <;> rfl

end Operation

/-! ## Corresponding computations -/

namespace Run

/-- From related states, both computations end in the same result and in related states. -/
def Corresponds (R : σ → τ → Prop) (x : Run σ α) (y : Run τ α) : Prop :=
  ∀ ⦃s t⦄, R s t → (x s).result = (y t).result ∧ R (x s).state (y t).state

namespace Corresponds

variable {R : σ → τ → Prop}

lemma pure (a : α) : Corresponds R (Pure.pure a : Run σ α) (Pure.pure a : Run τ α) :=
  fun _ _ h => ⟨rfl, h⟩

lemma fail (e : Fault) : Corresponds R (Run.fail e : Run σ α) (Run.fail e : Run τ α) :=
  fun _ _ h => ⟨rfl, h⟩

lemma ofExcept (r : Except Fault α) : Corresponds R (Run.ofExcept r) (Run.ofExcept r) :=
  fun _ _ h => ⟨rfl, h⟩

lemma note (l l' : Level) (t t' : String) : Corresponds R (Run.note l t) (Run.note l' t') :=
  fun _ _ h => ⟨rfl, h⟩

lemma attempt {x : Run σ α} {y : Run τ α} (h : Corresponds R x y) :
    Corresponds R (Run.attempt x) (Run.attempt y) := by
  intro s t hst
  obtain ⟨hr, hs⟩ := h hst
  exact ⟨by rw [result_attempt, result_attempt, hr], hs⟩

lemma bind {x : Run σ α} {y : Run τ α} {f : α → Run σ β} {g : α → Run τ β}
    (hx : Corresponds R x y) (hf : ∀ a, Corresponds R (f a) (g a)) :
    Corresponds R (x >>= f) (y >>= g) := by
  intro s t hst
  obtain ⟨hr, hs⟩ := hx hst
  rw [result_bind, state_bind, result_bind, state_bind, ← hr]
  cases (x s).result with
  | ok a => exact hf a hs
  | error e => exact ⟨rfl, hs⟩

end Corresponds
end Run

/-! ## Corresponding links and engines -/

/-- The calls of both links correspond. -/
structure Link.Corresponds (R : σ → τ → Prop) (l : Link σ) (m : Link τ) : Prop where
  send : ∀ frame, Run.Corresponds R (l.send frame) (m.send frame)
  receive : ∀ ms, Run.Corresponds R (l.receive ms) (m.receive ms)
  discard : Run.Corresponds R l.discard m.discard

/-- The engines make frames in the same way, repeat their attempts equally often, and their
attempts with any such frame correspond. -/
structure Engine.Corresponds (R : σ → τ → Prop) (d : Engine σ) (e : Engine τ) : Prop where
  trailer_eq : d.trailer = e.trailer
  retries_eq : d.settings.retries = e.settings.retries
  attempt : ∀ body frame, Frame.encode d.trailer body = .ok frame →
    Run.Corresponds R (d.attempt frame) (e.attempt frame)

namespace Engine

variable {R : σ → τ → Prop} {d : Engine σ} {e : Engine τ}

lemma converse_corresponds (hl : Link.Corresponds R d.link e.link) (ht : d.trailer = e.trailer)
    (hs : d.settings = e.settings) (frame : Bytes) :
    Run.Corresponds R (d.converse frame) (e.converse frame) := by
  unfold converse
  rw [ht, hs]
  refine (hl.send frame).bind fun _ => ?_
  refine (Run.Corresponds.note _ _ _ _).bind fun _ => ?_
  refine (hl.receive _).bind fun raw => ?_
  exact (Run.Corresponds.note _ _ _ _).bind fun _ => Run.Corresponds.ofExcept _

lemma dropInput_corresponds (hl : Run.Corresponds R d.link.discard e.link.discard) :
    Run.Corresponds R d.dropInput e.dropInput := by
  refine hl.attempt.bind fun r => ?_
  cases r with
  | ok _ => exact Run.Corresponds.pure _
  | error f => exact Run.Corresponds.note _ _ _ _

lemma attempt_corresponds (hl : Link.Corresponds R d.link e.link) (ht : d.trailer = e.trailer)
    (hs : d.settings = e.settings) (frame : Bytes) :
    Run.Corresponds R (d.attempt frame) (e.attempt frame) := by
  refine (converse_corresponds hl ht hs frame).attempt.bind fun r => ?_
  cases r with
  | ok reply => exact Run.Corresponds.pure reply
  | error f =>
    dsimp only
    cases f.isTransient with
    | true => exact (dropInput_corresponds hl.discard).bind fun _ => Run.Corresponds.fail f
    | false => exact Run.Corresponds.fail f

/-- Engines over corresponding links correspond. -/
theorem corresponds_of_link (hl : Link.Corresponds R d.link e.link) (ht : d.trailer = e.trailer)
    (hs : d.settings = e.settings) : Corresponds R d e :=
  ⟨ht, by rw [hs], fun _ frame _ => attempt_corresponds hl ht hs frame⟩

/-- A property of states that every call of the link keeps, as a correspondence of the engine with
itself. -/
lemma keeps {P : σ → Prop} {e : Engine σ} (hsend : ∀ frame s, P s → P (e.link.send frame s).state)
    (hreceive : ∀ ms s, P s → P (e.link.receive ms s).state)
    (hdiscard : ∀ s, P s → P (e.link.discard s).state) :
    Corresponds (fun a b => a = b ∧ P a) e e := by
  refine corresponds_of_link ⟨?_, ?_, ?_⟩ rfl rfl
  · rintro frame s _ ⟨rfl, hs⟩
    exact ⟨rfl, rfl, hsend frame s hs⟩
  · rintro ms s _ ⟨rfl, hs⟩
    exact ⟨rfl, rfl, hreceive ms s hs⟩
  · rintro s _ ⟨rfl, hs⟩
    exact ⟨rfl, rfl, hdiscard s hs⟩

namespace Corresponds

variable (h : Corresponds R d e)
include h

lemma attempts {body frame : Bytes} (hf : Frame.encode d.trailer body = .ok frame) (c : Command)
    (bound left : Nat) :
    Run.Corresponds R (d.attempts c frame bound left) (e.attempts c frame bound left) := by
  -- Both sides judge the same result, and so they go on, or stop, together.
  induction left with
  | zero => exact (h.attempt body frame hf).attempt.bind fun _ => Run.Corresponds.ofExcept _
  | succ left ih =>
    refine (h.attempt body frame hf).attempt.bind fun r => ?_
    cases judge r with
    | ok payload => exact Run.Corresponds.pure payload
    | error f =>
      dsimp only
      cases f.isTransient with
      | true => exact (Run.Corresponds.note _ _ _ _).bind fun _ => ih
      | false => exact Run.Corresponds.fail f

lemma exchangeWithin (bound : Nat) (c : Command) :
    Run.Corresponds R (d.exchangeWithin bound c) (e.exchangeWithin bound c) := by
  unfold Engine.exchangeWithin
  -- The trailers are the same, so that both frames are, or neither can be made.
  rw [← h.trailer_eq]
  cases hf : Frame.encode d.trailer c.body with
  | ok frame => exact h.attempts hf c bound bound
  | error f => exact Run.Corresponds.fail f

lemma serve (q : Call) : Run.Corresponds R (d.serve q) (e.serve q) := by
  unfold Engine.serve
  rw [h.retries_eq]
  exact h.exchangeWithin _ _

/-- Corresponding engines conduct every dialogue to the same end. -/
theorem conduct (t : Dialogue Call α) : Run.Corresponds R (d.conduct t) (e.conduct t) := by
  induction t with
  | done a => exact Run.Corresponds.pure a
  | fail f => exact Run.Corresponds.fail f
  | note n _ ih => exact (Run.Corresponds.note _ _ _ _).bind fun _ => ih
  | ask q _ ih => exact (h.serve q).attempt.bind fun r => ih r

/-- Corresponding engines perform every operation to the same end. -/
theorem perform (op : Operation) (b : Iso14443b.Session) {s : σ} {t : τ} (hst : R s t) :
    (op.perform d b s).1.result = (op.perform e b t).1.result ∧
      (op.perform d b s).2 = (op.perform e b t).2 ∧
      R (op.perform d b s).1.state (op.perform e b t).1.state := by
  obtain ⟨hr, hs⟩ := h.conduct (op.talk b) hst
  unfold Operation.perform
  rcases hd : d.conduct (op.talk b) s with ⟨r, s', ns⟩
  rcases he : e.conduct (op.talk b) t with ⟨r', t', ns'⟩
  rw [hd, he] at hr hs
  obtain rfl : r = r' := hr
  rcases r with f | ⟨finding, b'⟩ <;> exact ⟨rfl, rfl, hs⟩

end Corresponds

/-! ## Recorded engines -/

/-- The engine with a recorder before its link. -/
def recorded (e : Engine σ) : Engine (Recorded σ) := ⟨e.link.recorded, e.trailer, e.settings⟩

end Engine

/-- A state behind a recorder that lets every call through. -/
def Recorded.Shows (t : Recorded σ) (s : σ) : Prop :=
  t.inner = s ∧ t.sendFaults = [] ∧ t.discardFaults = []

lemma Link.recorded_corresponds (l : Link σ) :
    Link.Corresponds Recorded.Shows l.recorded l := by
  constructor
  · rintro frame ⟨inner, events, _, _⟩ s ⟨rfl, rfl, rfl⟩
    exact ⟨rfl, rfl, rfl, rfl⟩
  · rintro ms ⟨inner, events, _, _⟩ s ⟨rfl, rfl, rfl⟩
    exact ⟨rfl, rfl, rfl, rfl⟩
  · rintro ⟨inner, events, _, _⟩ s ⟨rfl, rfl, rfl⟩
    exact ⟨rfl, rfl, rfl, rfl⟩

/-- A recorder changes nothing for the engine behind it. -/
theorem Engine.recorded_corresponds (e : Engine σ) :
    Engine.Corresponds Recorded.Shows e.recorded e :=
  corresponds_of_link e.link.recorded_corresponds rfl rfl

end TagReader
