/-
# Links that lose messages

A frame may get lost on its way to the reader, and so may the reply on its way back.  The host sees
the same in both cases, nothing in time, but in the second one the reader has done what it was asked
to do.  This file puts such losses before any link: each attempt has a `Fate`, which is fixed
beforehand, and `Link.lossy` lets it happen.

Behind a lossy link there is here a script whose answers come from a responder.  The responder has
been reached by some of the attempts (`Fate.reached`), and the host hears of those that are intact
(`Fate.heard`).  The main result is `Engine.attempts_lossy`: an exchange ends with the first attempt
that is heard to succeed or to fail for good, if there is one within its bound on retries, and in a
transient fault otherwise.
-/
import Mathlib.Data.Nat.Find
import TagReader.Link.Responder
import TagReader.Link.Sum
import TagReader.Proofs.Attempts

namespace TagReader

variable {σ ρ : Type}

/-- What becomes of an attempt. -/
inductive Fate where
  | intact
  /-- The frame does not arrive. -/
  | requestLost
  /-- The frame arrives, but the reply to it does not. -/
  | replyLost
deriving DecidableEq

/-- The state of a link that loses messages. -/
structure Lossy (σ : Type) where
  /-- The state of the link without losses. -/
  inner : σ
  /-- What becomes of the attempts to come. -/
  fates : Nat → Fate
  /-- What becomes of the attempt that has begun. -/
  current : Fate := .intact

namespace Lossy

/-- Sends a frame, which begins an attempt. -/
def send (l : Link σ) (frame : Bytes) : Run (Lossy σ) Unit := fun s =>
  let begun (inner : σ) : Lossy σ := ⟨inner, fun n => s.fates (n + 1), s.fates 0⟩
  match s.fates 0 with
  | .requestLost => ⟨.ok (), begun s.inner, []⟩
  | .intact | .replyLost => (l.send frame).within begun s.inner

/-- Receives a frame, unless it is lost or there is none. -/
def receive (l : Link σ) (ms : Nat) : Run (Lossy σ) Bytes := fun s =>
  match s.current with
  | .requestLost => ⟨.error .timeout, s, []⟩
  | .intact => (l.receive ms).within (fun inner => { s with inner }) s.inner
  | .replyLost =>
    { (l.receive ms).within (fun inner => { s with inner }) s.inner with
      result := .error .timeout }

/-- Drops the input. -/
def discard (l : Link σ) : Run (Lossy σ) Unit := fun s =>
  l.discard.within (fun inner => { s with inner }) s.inner

end Lossy

/-- The link with losses. -/
def Link.lossy (l : Link σ) : Link (Lossy σ) := ⟨Lossy.send l, Lossy.receive l, Lossy.discard l⟩

/-- An engine over a script with losses. -/
def Engine.lossy (respond : Bytes → ρ → Except Fault Bytes × ρ) (t : Trailer) (c : Settings) :
    Engine (Lossy (Script ρ)) :=
  ⟨(Script.link respond).lossy, t, c⟩

/-! ## One attempt -/

section Attempt

variable (respond : Bytes → ρ → Except Fault Bytes × ρ) (t : Trailer) (frame : Bytes)

/-- The responder after an attempt. -/
def Fate.reached (r : ρ) : Fate → ρ
  | .requestLost => r
  | .intact | .replyLost => (respond frame r).2

/-- What the host hears of an attempt. -/
def Fate.heard (r : ρ) : Fate → Except Fault Reply
  | .intact => (respond frame r).1.bind (Frame.decode t)
  | .requestLost | .replyLost => .error .timeout

/-- A responder answers behind the losses, and the attempts to come have these fates. -/
structure Lossy.Faces (s : Lossy (Script ρ)) (r : ρ) (fates : Nat → Fate) : Prop where
  fates_eq : s.fates = fates
  queue_eq : s.inner.queue = []
  responder_eq : s.inner.responder = some r

variable (c : Settings) {s : Lossy (Script ρ)} {r : ρ} {fates : Nat → Fate}

namespace Engine

lemma discard_lossy (h : s.Faces r fates) :
    ((lossy respond t c).link.discard s).state.Faces r fates :=
  ⟨h.fates_eq, h.queue_eq, h.responder_eq⟩

/-- A responder answers to the last frame that the script has kept. -/
lemma receive_responder {m : Script ρ} (hqueue : m.queue = []) (hresponder : m.responder = some r)
    (hsent : m.sent.getLast? = some frame) :
    Script.receive respond m =
      ⟨(respond frame r).1,
        { m with responder := some (respond frame r).2, receives := m.receives + 1 }, []⟩ := by
  simp only [Script.receive, hqueue, hresponder, hsent]

lemma converse_lossy (h : s.Faces r fates) :
    ((lossy respond t c).converse frame s).result = (fates 0).heard respond t frame r ∧
      ((lossy respond t c).converse frame s).state.Faces
        ((fates 0).reached respond frame r) (fun n => fates (n + 1)) := by
  obtain ⟨inner, fates, current⟩ := s
  obtain ⟨rfl, hqueue, hresponder⟩ := h
  have hanswer := receive_responder respond frame
    (m := { inner with sent := inner.sent ++ [frame] }) hqueue hresponder List.getLast?_concat
  have hsend : ((lossy respond t c).link.send frame ⟨inner, fates, current⟩).result = .ok () := by
    simp only [lossy, Link.lossy, Lossy.send]
    cases fates 0 <;> rfl
  obtain ⟨hresult, hstate⟩ := converse_sent hsend
  rw [hresult, hstate]
  simp only [lossy, Link.lossy, Lossy.send]
  cases hfate : fates 0 with
  | requestLost => exact ⟨rfl, rfl, hqueue, hresponder⟩
  | intact =>
    simp only [Run.within, Script.link, Script.send, Lossy.receive, hanswer]
    exact ⟨rfl, rfl, hqueue, rfl⟩
  | replyLost =>
    simp only [Run.within, Script.link, Script.send, Lossy.receive, hanswer]
    exact ⟨rfl, rfl, hqueue, rfl⟩

/-- An attempt has the next fate. -/
lemma attempt_lossy (h : s.Faces r fates) :
    ((lossy respond t c).attempt frame s).result = (fates 0).heard respond t frame r ∧
      ((lossy respond t c).attempt frame s).state.Faces
        ((fates 0).reached respond frame r) (fun n => fates (n + 1)) := by
  obtain ⟨hresult, hstate⟩ := converse_lossy respond t frame c h
  refine ⟨by rw [result_attempt, hresult], ?_⟩
  cases ht : endsTransient ((lossy respond t c).converse frame s).result with
  | true =>
    rw [state_attempt_transient ht]
    exact discard_lossy respond t c hstate
  | false => rwa [state_attempt_settled ht]

end Engine

/-! ## An exchange -/

/-- The first number of some kind. -/
def First (p : Nat → Prop) (k : Nat) : Prop := p k ∧ ∀ i < k, ¬p i

instance (p : Nat → Prop) [DecidablePred p] (k : Nat) : Decidable (First p k) :=
  inferInstanceAs (Decidable (_ ∧ _))

lemma First.zero {p : Nat → Prop} (h : p 0) : First p 0 :=
  ⟨h, fun i hi => absurd hi (Nat.not_lt_zero i)⟩

lemma First.unique {p : Nat → Prop} {i k : Nat} (hi : First p i) (hk : First p k) : i = k :=
  Nat.le_antisymm (Nat.le_of_not_lt fun h => hi.2 k h hk.1)
    (Nat.le_of_not_lt fun h => hk.2 i h hi.1)

lemma First.succ {p : Nat → Prop} {k : Nat} (h : First p (k + 1)) :
    ¬p 0 ∧ First (fun n => p (n + 1)) k :=
  ⟨h.2 0 (Nat.succ_pos k), h.1, fun i hi => h.2 (i + 1) (Nat.succ_lt_succ hi)⟩

lemma exists_first {p : Nat → Prop} {bound : Nat} (h : ∃ n ≤ bound, p n) :
    ∃ k ≤ bound, First p k := by
  classical
  obtain ⟨n, hn, hp⟩ := h
  have hex : ∃ n, p n := ⟨n, hp⟩
  exact ⟨Nat.find hex, Nat.le_trans (Nat.find_min' hex hp) hn, Nat.find_spec hex,
    fun i => Nat.find_min hex⟩

variable (r) (fates)

/-- The responder after some attempts. -/
def Fate.reachedAfter : Nat → ρ
  | 0 => r
  | n + 1 => (fates n).reached respond frame (reachedAfter n)

/-- What the host hears of the attempt with a given number. -/
def Fate.heardAt (n : Nat) : Except Fault Reply :=
  (fates n).heard respond t frame (reachedAfter respond frame r fates n)

/-- The later attempts find the responder as the first one has left it. -/
lemma Fate.reachedAfter_succ (n : Nat) :
    reachedAfter respond frame ((fates 0).reached respond frame r) (fun n => fates (n + 1)) n =
      reachedAfter respond frame r fates (n + 1) := by
  induction n with
  | zero => rfl
  | succ n ih => rw [reachedAfter, ih]; rfl

lemma Fate.heardAt_succ (n : Nat) :
    heardAt respond t frame ((fates 0).reached respond frame r) (fun n => fates (n + 1)) n =
      heardAt respond t frame r fates (n + 1) := by
  rw [heardAt, reachedAfter_succ]
  rfl

variable {r fates}

/-- **An exchange over a lossy link.**  The first attempt that is heard to end for good ends the
exchange, and leaves the responder as the attempts up to it have left it.  Where all attempts that
the bound allows end in a transient fault, so does the exchange. -/
theorem Engine.attempts_lossy (command : Command) (bound left : Nat) (h : s.Faces r fates) :
    let o := (lossy respond t c).attempts command frame bound left s
    let heard := Fate.heardAt respond t frame r fates
    (∀ k ≤ left, First (fun n => endsTransient (heard n) = false) k →
      o.result = judge (heard k) ∧
        o.state.Faces (Fate.reachedAfter respond frame r fates (k + 1))
          (fun n => fates (k + 1 + n))) ∧
      ((∀ k ≤ left, endsTransient (heard k) = true) → ∃ f, o.result = .error f) := by
  induction left, s using attempts_induct (lossy respond t c) frame generalizing r fates with
  | settled left s hset =>
    intro o heard
    obtain ⟨hfirst, hnext⟩ := attempt_lossy respond t frame c h
    obtain ⟨hresult, hstate⟩ := attempts_settled command bound left hset
    have hheard : endsTransient (heard 0) = false :=
      (congrArg endsTransient hfirst).symm.trans hset
    refine ⟨fun k _ hk => ?_, fun hall => ?_⟩
    · obtain rfl := hk.unique (First.zero hheard)
      refine ⟨by rw [hresult, hfirst]; rfl, ?_⟩
      rw [hstate]
      simp only [Nat.zero_add, Nat.add_comm 1]
      exact hnext
    · have htransient := hall 0 (Nat.zero_le _)
      rw [hheard] at htransient
      exact absurd htransient Bool.false_ne_true
  | exhausted s hend =>
    intro o heard
    obtain ⟨hfirst, -⟩ := attempt_lossy respond t frame c h
    have hresult : ((lossy respond t c).attempts command frame bound 0 s).result =
        judge ((lossy respond t c).attempt frame s).result := (attempts_zero command bound).1
    have hheard : endsTransient (heard 0) = true :=
      (congrArg endsTransient hfirst).symm.trans hend
    refine ⟨fun k hle hk => ?_, fun _ => ?_⟩
    · obtain rfl := Nat.le_zero.1 hle
      rw [hk.1] at hheard
      exact absurd hheard Bool.false_ne_true
    · rw [hresult]
      rcases hr : ((lossy respond t c).attempt frame s).result with f | reply
      · exact ⟨f, rfl⟩
      · rw [hr] at hend
        exact absurd hend Bool.false_ne_true
  | repeated left s hend ih =>
    intro o heard
    obtain ⟨hfirst, hnext⟩ := attempt_lossy respond t frame c h
    obtain ⟨hresult, hstate⟩ := attempts_repeated command bound left hend
    have hheard : endsTransient (heard 0) = true :=
      (congrArg endsTransient hfirst).symm.trans hend
    obtain ⟨hends, hfails⟩ := ih hnext
    refine ⟨fun k hle hk => ?_, fun hall => ?_⟩
    · -- The first attempt is not the one that ends the exchange.
      obtain ⟨k, rfl⟩ : ∃ n, k = n + 1 := by
        refine Nat.exists_eq_succ_of_ne_zero ?_
        rintro rfl
        rw [hk.1] at hheard
        exact absurd hheard Bool.false_ne_true
      obtain ⟨hres, hfaces⟩ := hends k (Nat.le_of_succ_le_succ hle) (by
        simpa only [Fate.heardAt_succ] using hk.succ.2)
      rw [Fate.heardAt_succ] at hres
      rw [Fate.reachedAfter_succ] at hfaces
      have hshift : (fun n => fates (k + 1 + n + 1)) = fun n => fates (k + 1 + 1 + n) := by
        funext n
        rw [Nat.add_right_comm]
      rw [hshift] at hfaces
      exact ⟨hresult.trans hres, hstate ▸ hfaces⟩
    · obtain ⟨f, hf⟩ := hfails fun k hle => by
        rw [Fate.heardAt_succ]
        exact hall (k + 1) (Nat.succ_le_succ hle)
      exact ⟨f, hresult.trans hf⟩

end Attempt
end TagReader
