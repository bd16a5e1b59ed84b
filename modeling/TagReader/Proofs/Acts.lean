/-
# Acts over one engine

What callers do over one engine, act after act: operations of any command family, each of them with
some session with tags of ST, and tries of the Ultralight C authentication with the active tag, each
of them in some session of its own.  Those sessions are all that outlives an act (`Standing`).

* `Engine.act` carries out one act by `Operation.perform` or `UltralightC.Session.run`, and
  `Engine.acts` one after the other.
* `Engine.asked` lists the questions by which a dialogue uses the link, which are those whose
  command fits a frame; `Engine.askedByAll` does so for acts.
-/
import Mathlib.Logic.Function.Basic
import TagReader.Proofs.Attempts

namespace TagReader

variable {σ α : Type}

/-- What a caller does. -/
inductive Act where
  /-- An operation, with a session with tags of ST. -/
  | operation (i : Nat) (op : Operation)
  /-- A try of the Ultralight C authentication with the active tag, in a session of its own. -/
  | authentication (i : Nat) (nonce : Block)

/-- The sessions that callers have, of either kind as many as they like. -/
structure Standing where
  /-- The sessions with tags of ST. -/
  tags : Nat → Iso14443b.Session
  /-- The sessions of the Ultralight C authentication. -/
  handshakes : Nat → UltralightC.Session

/-- What acts lead to. -/
structure Upshot (σ : Type) where
  /-- What came of each act. -/
  results : List (Except Fault Finding)
  /-- The sessions afterwards. -/
  standing : Standing
  /-- The state of the link afterwards. -/
  state : σ

namespace Engine

variable (e : Engine σ)

/-- The channel to the active tag. -/
def channel (message : Bytes) : Run σ Bytes := e.conduct (Iso14443a.passThrough .three message)

/-- Carries out an act: what came of it, and the sessions afterwards. -/
def act (st : Standing) (s : σ) : Act → Outcome σ Finding × Standing
  | .operation i op =>
    match op.perform e (st.tags i) s with
    | (o, b) => (o, { st with tags := Function.update st.tags i b })
  | .authentication i nonce =>
    match (st.handshakes i).run e.channel nonce s with
    | (⟨r, s', notes⟩, u) =>
      (⟨r.map .flag, s', notes⟩, { st with handshakes := Function.update st.handshakes i u })

/-- Carries out one act after the other. -/
def acts : List Act → Standing → σ → Upshot σ
  | [], st, s => ⟨[], st, s⟩
  | a :: as, st, s =>
    match e.act st s a with
    | (o, st') =>
      match acts as st' o.state with
      | ⟨results, st'', s''⟩ => ⟨o.result :: results, st'', s''⟩

/-- The questions by which a dialogue uses the link. -/
def asked : Talk α → σ → List Call
  | .done _, _ => []
  | .fail _, _ => []
  | .note _ d, s => asked d s
  | .ask q k, s =>
    let rest := asked (k (e.serve q s).result) (e.serve q s).state
    match Frame.encode e.trailer q.command.body with
    | .ok _ => q :: rest
    | .error _ => rest

/-- The questions by which an act uses the link. -/
def askedBy (st : Standing) (s : σ) : Act → List Call
  | .operation i op => e.asked (op.talk (st.tags i)) s
  | .authentication i nonce =>
    e.asked (Iso14443a.authenticateUltralightC (st.handshakes i) nonce) s

/-- The questions by which acts use the link. -/
def askedByAll : List Act → Standing → σ → List Call
  | [], _, _ => []
  | a :: as, st, s =>
    e.askedBy st s a ++ askedByAll as (e.act st s a).2 (e.act st s a).1.state

lemma acts_cons (a : Act) (as : List Act) (st : Standing) (s : σ) :
    let first := e.act st s a
    let later := e.acts as first.2 first.1.state
    e.acts (a :: as) st s =
      ⟨first.1.result :: later.results, later.standing, later.state⟩ := rfl

/-- An operation is its dialogue. -/
lemma act_operation (st : Standing) (s : σ) (i : Nat) (op : Operation) :
    let r := (e.conduct (op.talk (st.tags i)) s).result
    (e.act st s (.operation i op)).1.result = r.map Prod.fst ∧
      (e.act st s (.operation i op)).1.state = (e.conduct (op.talk (st.tags i)) s).state ∧
      (e.act st s (.operation i op)).2 =
        { st with tags :=
          Function.update st.tags i ((r.map Prod.snd).toOption.getD (st.tags i)) } := by
  obtain ⟨hr, hs⟩ := op.perform_spec e (st.tags i) s
  refine ⟨hr, hs, ?_⟩
  rw [← op.session_perform]
  rfl

/-- A try over the channel is a dialogue too. -/
lemma act_authentication (st : Standing) (s : σ) (i : Nat) (nonce : Block) :
    let u := st.handshakes i
    let o := e.conduct (Iso14443a.authenticateUltralightC u nonce) s
    (e.act st s (.authentication i nonce)).1.result = o.result.map .flag ∧
      (e.act st s (.authentication i nonce)).1.state = o.state ∧
      (e.act st s (.authentication i nonce)).2 =
        { st with handshakes := Function.update st.handshakes i (u.conclude o.result) } := by
  intro u o
  obtain ⟨hr, hs⟩ := e.conduct_expand (Iso14443a.passThrough .three) (u.attempt nonce) s
  exact ⟨congrArg (Except.map _) hr.symm, hs.symm,
    congrArg (fun r => { st with handshakes := Function.update st.handshakes i (u.conclude r) })
      hr.symm⟩

lemma asked_of_encode {q : Call} {frame : Bytes}
    (h : Frame.encode e.trailer q.command.body = .ok frame)
    (k : Except Fault Bytes → Dialogue Call α) (s : σ) :
    e.asked (.ask q k) s = q :: e.asked (k (e.serve q s).result) (e.serve q s).state := by
  rw [asked, h]

lemma asked_of_refused {q : Call} {f : Fault}
    (h : Frame.encode e.trailer q.command.body = .error f)
    (k : Except Fault Bytes → Dialogue Call α) (s : σ) :
    e.asked (.ask q k) s = e.asked (k (.error f)) s := by
  rw [asked, h, serve_of_refused h]
  rfl

end Engine

end TagReader
