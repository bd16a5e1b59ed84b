/-
# Secrets and the log

Keys and passwords go to the reader in the frames of commands, and nowhere else.  This file compares
two runs that differ in such secrets only.  Over a link that answers as it does whatever it is given
to send (`Link.Heedless`), they cannot be told apart from outside: they write the same notes up to
the level of debugging, send frames of the same lengths and end in the same result, errors and their
texts included.  The handshake may find that one key is accepted and the other is not.

`Run.Indistinct` says this of two computations and is closed under the operations from which
computations are built.  Two dialogues are `Dialogue.Alike` if they go on in the same way after the
same answers and ask alike questions; conducting them is then indistinct
(`Engine.indistinct_conduct`), and what remains is to see that the dialogues of an operation with
one secret and with another are alike.
-/
import TagReader.Proofs.Acts
import TagReader.Proofs.Conveyance
import TagReader.Proofs.Transmissions

namespace TagReader

variable {σ ι κ α β γ δ : Type}

/-- The notes without those at the level of tracing. -/
def shown (notes : List Note) : List Note := notes.filter (Note.visible .debug)

lemma shown_append (ns ms : List Note) : shown (ns ++ ms) = shown ns ++ shown ms :=
  List.filter_append ..

/-- The same fault, or values that are related. -/
def Agree (Q : α → β → Prop) : Except Fault α → Except Fault β → Prop
  | .ok a, .ok b => Q a b
  | .error f, .error g => f = g
  | _, _ => False

namespace Agree

lemma eq {r r' : Except Fault α} (h : Agree Eq r r') : r = r' := by
  rcases r with f | a <;> rcases r' with g | b
  · exact congrArg Except.error h
  · exact h.elim
  · exact h.elim
  · exact congrArg Except.ok h

lemma refl (r : Except Fault α) : Agree Eq r r := by
  cases r <;> rfl

end Agree

/-! ## Computations that cannot be told apart -/

namespace Run

lemma notes_bind (x : Run σ α) (f : α → Run σ β) (s : σ) :
    ((x >>= f) s).notes = (x s).notes ++
      match (x s).result with
      | .ok a => (f a (x s).state).notes
      | .error _ => [] := by
  rw [bind_apply, andThen]
  rcases x s with ⟨_ | _, _, ns⟩
  · exact (List.append_nil ns).symm
  · rfl

/-- From related states, both computations end in the same fault or in related values, write the
same notes but for the level of tracing, and leave related states. -/
def Indistinct (R : σ → σ → Prop) (Q : α → β → Prop) (x : Run σ α) (y : Run σ β) : Prop :=
  ∀ ⦃s t⦄, R s t → Agree Q (x s).result (y t).result ∧ shown (x s).notes = shown (y t).notes ∧
    R (x s).state (y t).state

namespace Indistinct

variable {R : σ → σ → Prop} {Q : α → β → Prop} {P : γ → δ → Prop} {x : Run σ α} {y : Run σ β}

lemma pure {a : α} {b : β} (h : Q a b) :
    Indistinct R Q (Pure.pure a : Run σ α) (Pure.pure b) :=
  fun _ _ hst => ⟨h, rfl, hst⟩

lemma fail (f : Fault) : Indistinct R Q (Run.fail f : Run σ α) (Run.fail f : Run σ β) :=
  fun _ _ hst => ⟨rfl, rfl, hst⟩

lemma ofExcept (r : Except Fault α) :
    Indistinct R Eq (Run.ofExcept r : Run σ α) (Run.ofExcept r) :=
  fun _ _ hst => ⟨.refl r, rfl, hst⟩

lemma note (l : Level) (text : String) :
    Indistinct R Eq (Run.note l text : Run σ Unit) (Run.note l text) :=
  fun _ _ hst => ⟨rfl, rfl, hst⟩

/-- What is traced may differ. -/
lemma trace (text text' : String) :
    Indistinct R Eq (Run.note .trace text : Run σ Unit) (Run.note .trace text') :=
  fun _ _ hst => ⟨rfl, rfl, hst⟩

lemma attempt (h : Indistinct R Q x y) :
    Indistinct R (Agree Q) (Run.attempt x) (Run.attempt y) :=
  fun _ _ hst => h hst

lemma bind {f : α → Run σ γ} {g : β → Run σ δ} (hx : Indistinct R Q x y)
    (hf : ∀ a b, Q a b → Indistinct R P (f a) (g b)) :
    Indistinct R P (x >>= f) (y >>= g) := by
  intro s t hst
  obtain ⟨hr, hn, hs⟩ := hx hst
  rw [result_bind, state_bind, notes_bind, result_bind, state_bind, notes_bind, shown_append,
    shown_append, hn]
  generalize (x s).result = r at hr ⊢
  generalize (y t).result = r' at hr ⊢
  rcases r with e | a <;> rcases r' with e' | b
  · exact ⟨hr, rfl, hs⟩
  · exact hr.elim
  · exact hr.elim
  · obtain ⟨hr', hn', hs'⟩ := hf a b hr hs
    exact ⟨hr', congrArg _ hn', hs'⟩

/-- Where the first results are the same, they are passed on. -/
lemma seq {x y : Run σ α} {f : α → Run σ γ} {g : α → Run σ δ} (hx : Indistinct R Eq x y)
    (hf : ∀ a, Indistinct R P (f a) (g a)) : Indistinct R P (x >>= f) (y >>= g) := by
  refine hx.bind ?_
  rintro a _ rfl
  exact hf a

end Indistinct
end Run

/-! ## Heedless links -/

/-- Of what it is given to send, the link heeds no more than the length; and not even that, where
its outcomes are fixed in advance. -/
structure Link.Heedless (R : σ → σ → Prop) (l : Link σ) : Prop where
  send : ∀ frame frame' : Bytes, frame.length = frame'.length →
    Run.Indistinct R Eq (l.send frame) (l.send frame')
  receive : ∀ ms, Run.Indistinct R Eq (l.receive ms) (l.receive ms)
  discard : Run.Indistinct R Eq l.discard l.discard

/-- Scripts that answer from the same queue, and have nobody else to answer. -/
structure Script.Alike {ρ : Type} (s t : Script ρ) : Prop where
  queue_eq : s.queue = t.queue
  left_none : s.responder = none
  right_none : t.responder = none

/-- A scripted link answers from its queue, whatever it is given. -/
lemma Script.heedless_link {ρ : Type} (respond : Bytes → ρ → Except Fault Bytes × ρ) :
    (Script.link respond).Heedless Script.Alike where
  send _ _ _ := by
    rintro s t ⟨hq, hs, ht⟩
    exact ⟨rfl, rfl, ⟨hq, hs, ht⟩⟩
  receive _ := by
    rintro ⟨sent, queue, _, receives, discards⟩ ⟨sent', _, _, receives', discards'⟩ ⟨rfl, rfl, rfl⟩
    cases queue with
    | nil => exact ⟨rfl, rfl, ⟨rfl, rfl, rfl⟩⟩
    | cons answer rest => exact ⟨.refl answer, rfl, ⟨rfl, rfl, rfl⟩⟩
  discard := by
    rintro s t ⟨hq, hs, ht⟩
    exact ⟨rfl, rfl, ⟨hq, hs, ht⟩⟩

/-- A call on a link, with zeros for the bytes of the frame. -/
def Event.blank : Event → Event
  | .sent frame result => .sent (List.replicate frame.length 0) result
  | event => event

/-- Recorders of the same calls, but for the bytes of the frames, before related links. -/
structure Recorded.Alike (R : σ → σ → Prop) (s t : Recorded σ) : Prop where
  inner : R s.inner t.inner
  events_eq : s.events.map Event.blank = t.events.map Event.blank
  sendFaults_eq : s.sendFaults = t.sendFaults
  discardFaults_eq : s.discardFaults = t.discardFaults

/-- Behind a recorder, a link heeds no more than before. -/
lemma Link.Heedless.recorded {R : σ → σ → Prop} {l : Link σ} (h : l.Heedless R) :
    l.recorded.Heedless (Recorded.Alike R) := by
  have hkeep {α : Type} {x y : Run σ α} {event event' : Except Fault α → Event}
      (hxy : Run.Indistinct R Eq x y) (hevent : ∀ r, (event r).blank = (event' r).blank) :
      Run.Indistinct (Recorded.Alike R) Eq (Recorded.observe event x)
        (Recorded.observe event' y) := by
    rintro s t ⟨hinner, hevents, hsends, hdiscards⟩
    obtain ⟨hr, hn, hst⟩ := hxy hinner
    refine ⟨hr, hn, hst, ?_, hsends, hdiscards⟩
    show List.map _ (_ ++ [_]) = List.map _ (_ ++ [_])
    rw [List.map_append, List.map_append, hevents, List.map_singleton, List.map_singleton, hr.eq,
      hevent]
  have hrefuse {α : Type} {event event' : Except Fault α → Event} (f : Fault)
      (hevent : ∀ r, (event r).blank = (event' r).blank) :
      Run.Indistinct (Recorded.Alike R) Eq (Recorded.refuse event f : Run (Recorded σ) α)
        (Recorded.refuse event' f) := by
    rintro s t ⟨hinner, hevents, hsends, hdiscards⟩
    refine ⟨rfl, rfl, hinner, ?_, hsends, hdiscards⟩
    show List.map _ (_ ++ [_]) = List.map _ (_ ++ [_])
    rw [List.map_append, List.map_append, hevents, List.map_singleton, List.map_singleton, hevent]
  constructor
  · intro frame frame' hlen
    have hblank (r : Except Fault Unit) :
        (Event.sent frame r).blank = (Event.sent frame' r).blank := by
      rw [Event.blank, Event.blank, hlen]
    rintro s t ⟨hinner, hevents, hsends, hdiscards⟩
    have htail : Recorded.Alike R { s with sendFaults := t.sendFaults.tail }
        { t with sendFaults := t.sendFaults.tail } := ⟨hinner, hevents, rfl, hdiscards⟩
    unfold Link.recorded
    dsimp only
    rw [hsends]
    cases t.sendFaults.head?.join with
    | none => exact hkeep (h.send frame frame' hlen) hblank htail
    | some f => exact hrefuse f hblank htail
  · exact fun ms => hkeep (h.receive ms) fun _ => rfl
  · rintro s t ⟨hinner, hevents, hsends, hdiscards⟩
    have htail : Recorded.Alike R { s with discardFaults := t.discardFaults.tail }
        { t with discardFaults := t.discardFaults.tail } := ⟨hinner, hevents, hsends, rfl⟩
    unfold Link.recorded
    dsimp only
    rw [hdiscards]
    cases t.discardFaults.head?.join with
    | none => exact hkeep h.discard (fun _ => rfl) htail
    | some f => exact hrefuse f (fun _ => rfl) htail

/-- Recorders that kept the same calls were given frames of the same lengths. -/
lemma Recorded.Alike.frames {R : σ → σ → Prop} {s t : Recorded σ} (h : s.Alike R t) :
    s.frames.map List.length = t.frames.map List.length := by
  have hlengths (events : List Event) : (events.filterMap Event.frame?).map List.length =
      ((events.map Event.blank).filterMap Event.frame?).map List.length := by
    induction events with
    | nil => rfl
    | cons event events ih =>
      cases event with
      | sent frame r =>
        show frame.length :: _ = (List.replicate frame.length (0 : UInt8)).length :: _
        rw [ih, List.length_replicate]
      | received ms r => exact ih
      | discarded r => exact ih
  unfold Recorded.frames
  rw [hlengths, h.events_eq, ← hlengths]

/-! ## Alike commands -/

/-- Commands that differ at most in the bytes of their parameters. -/
structure Command.Alike (c c' : Command) : Prop where
  control_eq : c.control = c'.control
  code_eq : c.code = c'.code
  length_eq : c.params.length = c'.params.length

namespace Command.Alike

variable {c c' : Command}

lemma refl (c : Command) : c.Alike c := ⟨rfl, rfl, rfl⟩

lemma bytes (h : c.Alike c') {bs bs' : Bytes} (hlen : bs.length = bs'.length) :
    (c.bytes bs).Alike (c'.bytes bs') := by
  refine ⟨h.control_eq, h.code_eq, ?_⟩
  show (c.params ++ bs).length = (c'.params ++ bs').length
  rw [List.length_append, List.length_append, h.length_eq, hlen]

lemma octets (h : c.Alike c') {n : Nat} (o o' : Octets n) :
    (c.bytes o.bytes).Alike (c'.bytes o'.bytes) :=
  h.bytes (o.length_eq.trans o'.length_eq.symm)

/-- They have the same name in notes. -/
lemma label (h : c.Alike c') : c.label = c'.label := by
  unfold Command.label
  rw [h.control_eq, h.code_eq]

lemma body (h : c.Alike c') : c.body.length = c'.body.length :=
  congrArg (· + 2) h.length_eq

end Command.Alike

/-- Bodies of one length become frames of one length, or the same fault. -/
lemma Frame.encode_alike {t : Trailer} {body body' : Bytes} (h : body.length = body'.length) :
    (∃ frame frame', encode t body = .ok frame ∧ encode t body' = .ok frame' ∧
        frame.length = frame'.length) ∨
      ∃ f, encode t body = .error f ∧ encode t body' = .error f := by
  by_cases hfits : Fits t body
  · have hfits' : Fits t body' := by
      unfold Fits
      rw [← h]
      exact hfits
    refine .inl ⟨_, _, encode_of_fits hfits, encode_of_fits hfits', ?_⟩
    unfold closed
    rw [List.length_append, List.length_append, t.length_compute, t.length_compute,
      List.length_cons, List.length_cons, h]
  · refine .inr ⟨_, if_pos (Nat.not_le.1 hfits), ?_⟩
    have hlong : maxLength < 1 + body'.length + t.len := by
      rw [← h]
      exact Nat.not_le.1 hfits
    rw [h]
    exact if_pos hlong

/-! ## Engines -/

namespace Engine

variable {R : σ → σ → Prop} {e : Engine σ} (h : e.link.Heedless R)
include h

lemma indistinct_converse {frame frame' : Bytes} (hlen : frame.length = frame'.length) :
    Run.Indistinct R Eq (e.converse frame) (e.converse frame') := by
  refine (h.send frame frame' hlen).seq fun _ => (Run.Indistinct.trace _ _).seq fun _ => ?_
  refine (h.receive _).seq fun raw => (Run.Indistinct.trace _ _).seq fun _ => ?_
  exact .ofExcept _

lemma indistinct_dropInput : Run.Indistinct R Eq e.dropInput e.dropInput := by
  refine h.discard.attempt.bind ?_
  rintro r r' hr
  obtain rfl := hr.eq
  cases r with
  | ok _ => exact .pure rfl
  | error f => exact .note _ _

lemma indistinct_attempt {frame frame' : Bytes} (hlen : frame.length = frame'.length) :
    Run.Indistinct R Eq (e.attempt frame) (e.attempt frame') := by
  refine (indistinct_converse h hlen).attempt.bind ?_
  rintro r r' hr
  obtain rfl := hr.eq
  cases r with
  | ok reply => exact .pure rfl
  | error f =>
    dsimp only
    cases f.isTransient with
    | true => exact (indistinct_dropInput h).seq fun _ => .fail f
    | false => exact .fail f

lemma indistinct_attempts {c c' : Command} (hc : c.Alike c') {frame frame' : Bytes}
    (hlen : frame.length = frame'.length) (bound left : Nat) :
    Run.Indistinct R Eq (e.attempts c frame bound left) (e.attempts c' frame' bound left) := by
  induction left with
  | zero =>
    refine (indistinct_attempt h hlen).attempt.bind ?_
    rintro r r' hr
    obtain rfl := hr.eq
    exact .ofExcept _
  | succ left ih =>
    refine (indistinct_attempt h hlen).attempt.bind ?_
    rintro r r' hr
    obtain rfl := hr.eq
    cases judge r with
    | ok payload => exact .pure rfl
    | error f =>
      dsimp only
      cases f.isTransient with
      | true =>
        -- The note gives the command by its control byte and code.
        have htext : retryText c' f (bound - left) bound = retryText c f (bound - left) bound := by
          unfold retryText
          rw [hc.label]
        rw [if_pos rfl, if_pos rfl, htext]
        exact (Run.Indistinct.note _ _).seq fun _ => ih
      | false => exact .fail f

end Engine

/-- Calls that differ at most in the bytes of parameters. -/
structure Call.Alike (q q' : Call) : Prop where
  command : q.command.Alike q'.command
  bound_eq : q.bound = q'.bound

lemma Engine.indistinct_serve {R : σ → σ → Prop} {e : Engine σ} (h : e.link.Heedless R)
    {q q' : Call} (hq : q.Alike q') : Run.Indistinct R Eq (e.serve q) (e.serve q') := by
  unfold Engine.serve Engine.exchangeWithin
  rw [hq.bound_eq]
  rcases Frame.encode_alike (t := e.trailer) hq.command.body with
    ⟨frame, frame', hf, hf', hlen⟩ | ⟨f, hf, hf'⟩
  · rw [hf, hf']
    exact indistinct_attempts h hq.command hlen _ _
  · rw [hf, hf']
    exact .fail f

/-! ## Alike dialogues -/

namespace Dialogue

variable {A : ι → ι → Prop} {Q : α → β → Prop}

/-- After the same answers, both dialogues ask alike questions, write the same notes and end in the
same fault or in related values. -/
inductive Alike (A : ι → ι → Prop) (Q : α → β → Prop) : Dialogue ι α → Dialogue ι β → Prop where
  | done {a : α} {b : β} (related : Q a b) : Alike A Q (.done a) (.done b)
  | fail (f : Fault) : Alike A Q (.fail f) (.fail f)
  | note (n : Note) {d : Dialogue ι α} {d' : Dialogue ι β} (next : Alike A Q d d') :
    Alike A Q (.note n d) (.note n d')
  | ask {q q' : ι} {k : Except Fault Bytes → Dialogue ι α} {k' : Except Fault Bytes → Dialogue ι β}
    (question : A q q') (next : ∀ r, Alike A Q (k r) (k' r)) : Alike A Q (.ask q k) (.ask q' k')

namespace Alike

variable {d : Dialogue ι α} {d' : Dialogue ι β}

lemma refl (hA : ∀ q, A q q) (d : Dialogue ι α) : Alike A Eq d d := by
  induction d with
  | done a => exact .done rfl
  | fail f => exact .fail f
  | note n d ih => exact .note n ih
  | ask q k ih => exact .ask (hA q) ih

lemma bind {P : γ → δ → Prop} {f : α → Dialogue ι γ} {g : β → Dialogue ι δ} (h : Alike A Q d d')
    (hf : ∀ a b, Q a b → Alike A P (f a) (g b)) : Alike A P (d >>= f) (d' >>= g) := by
  induction h with
  | done hab => exact hf _ _ hab
  | fail e => exact .fail e
  | note n _ ih => exact .note n ih
  | ask hq _ ih => exact .ask hq ih

lemma seq {d d' : Dialogue ι α} {P : γ → δ → Prop} {f : α → Dialogue ι γ} {g : α → Dialogue ι δ}
    (h : Alike A Eq d d') (hf : ∀ a, Alike A P (f a) (g a)) : Alike A P (d >>= f) (d' >>= g) := by
  refine h.bind ?_
  rintro a _ rfl
  exact hf a

lemma map {P : γ → δ → Prop} {f : α → γ} {g : β → δ} (h : Alike A Q d d')
    (hf : ∀ a b, Q a b → P (f a) (g b)) :
    Alike A P (d >>= fun a => pure (f a)) (d' >>= fun b => pure (g b)) :=
  h.bind fun a b hab => .done (hf a b hab)

lemma ofExcept {r : Except Fault α} {r' : Except Fault β} (h : Agree Q r r') :
    Alike A Q (Dialogue.ofExcept r) (Dialogue.ofExcept r') := by
  rcases r with f | a <;> rcases r' with g | b
  · obtain rfl : f = g := h
    exact .fail f
  · exact h.elim
  · exact h.elim
  · exact .done h

/-- A check that ends both. -/
lemma check {c : Prop} [Decidable c] {f : Fault} {k : γ → Dialogue ι α} {k' : γ → Dialogue ι β}
    (h : ¬c → Alike A Q d d') :
    Alike A Q (if c then (Dialogue.fail f : Dialogue ι γ) >>= k else d)
      (if c then (Dialogue.fail f : Dialogue ι γ) >>= k' else d') := by
  by_cases hc : c
  · rw [if_pos hc, if_pos hc]
    exact .fail f
  · rw [if_neg hc, if_neg hc]
    exact h hc

lemma require {q q' : ι} (h : A q q') : Alike A Eq (Dialogue.require q) (Dialogue.require q') :=
  .ask h fun r => ofExcept (.refl r)

lemma outcome (h : Alike A Q d d') : Alike A (Agree Q) d.outcome d'.outcome := by
  induction h with
  | done hab => exact .done hab
  | fail e => exact .done rfl
  | note n _ ih => exact .note n ih
  | ask hq _ ih => exact .ask hq ih

/-- Alike dialogues stay alike if alike questions are replaced by alike dialogues. -/
lemma expand {B : κ → κ → Prop} {f : ι → Dialogue κ Bytes}
    (hf : ∀ q q', A q q' → Alike B Eq (f q) (f q')) (h : Alike A Q d d') :
    Alike B Q (d.expand f) (d'.expand f) := by
  induction h with
  | done hab => exact .done hab
  | fail e => exact .fail e
  | note n _ ih => exact .note n ih
  | ask hq _ ih =>
    refine (hf _ _ hq).outcome.bind ?_
    rintro r r' hr
    obtain rfl := hr.eq
    exact ih r

/-- Alike dialogues cannot be told apart if alike questions cannot. -/
lemma indistinct_run {R : σ → σ → Prop} {serve : ι → Run σ Bytes}
    (hserve : ∀ q q', A q q' → Run.Indistinct R Eq (serve q) (serve q')) (h : Alike A Q d d') :
    Run.Indistinct R Q (d.run serve) (d'.run serve) := by
  induction h with
  | done hab => exact .pure hab
  | fail e => exact .fail e
  | note n _ ih => exact (Run.Indistinct.note _ _).seq fun _ => ih
  | ask hq _ ih =>
    refine (hserve _ _ hq).attempt.bind ?_
    rintro r r' hr
    obtain rfl := hr.eq
    exact ih r

end Alike
end Dialogue

/-- Conducting alike dialogues over a heedless link cannot be told apart. -/
theorem Engine.indistinct_conduct {R : σ → σ → Prop} {e : Engine σ} (h : e.link.Heedless R)
    {Q : α → β → Prop} {d : Talk α} {d' : Talk β} (hd : d.Alike Call.Alike Q d') :
    Run.Indistinct R Q (e.conduct d) (e.conduct d') :=
  hd.indistinct_run fun _ _ hq => indistinct_serve h hq

/-! ## The handshake -/

namespace UltralightC

variable (c c' : BlockCipher) (nonce : Block)

/-- Under different keys the handshake goes on alike; it is the judgement on the tag that may
differ. -/
lemma alike_handshake :
    (handshake c nonce).Alike (fun m m' => m.length = m'.length) (fun _ _ => True)
      (handshake c' nonce) := by
  refine .ask rfl ?_
  rintro (f | answer)
  · exact .fail _
  · dsimp only
    by_cases hrefused : answer.length < 9 ∨ answer.headD 0 ≠ continues
    · rw [if_pos hrefused, if_pos hrefused]
      exact .fail _
    · rw [if_neg hrefused, if_neg hrefused]
      -- From here on the answers of the tag are read under one key and under another.
      refine .ask ((length_proofMessage c _ _).trans (length_proofMessage c' _ _).symm) ?_
      rintro (f | answer')
      · exact .fail _
      · dsimp only [judge]
        by_cases hone : answer'.length = 1
        · rw [if_pos hone, if_pos hone]
          exact .note _ (.done trivial)
        · rw [if_neg hone, if_neg hone]
          by_cases hshort : answer'.length < 9
          · rw [if_pos hshort, if_pos hshort]
            exact .fail _
          · rw [if_neg hshort, if_neg hshort]
            exact .done trivial

end UltralightC

namespace Talk

lemma alike_exchange {c c' : Command} (h : c.Alike c') :
    (exchange c).Alike Call.Alike Eq (exchange c') :=
  .require ⟨h, rfl⟩

lemma alike_exchangeWithin {c c' : Command} (h : c.Alike c') (bound : Nat) :
    (exchangeWithin bound c).Alike Call.Alike Eq (exchangeWithin bound c') :=
  .require ⟨h, rfl⟩

lemma alike_order {c c' : Command} (h : c.Alike c') :
    (order c).Alike Call.Alike Eq (order c') :=
  (alike_exchange h).map fun _ _ _ => rfl

lemma alike_refl (d : Talk α) : d.Alike Call.Alike Eq d := .refl (fun _ => ⟨.refl _, rfl⟩) d

end Talk

open Talk

/-- Messages of one length are passed through alike. -/
lemma Iso14443a.alike_passThrough (layer : Layer) {m m' : Bytes} (h : m.length = m'.length) :
    (passThrough layer m).Alike Call.Alike Eq (passThrough layer m') := by
  unfold passThrough
  by_cases hshort : m.length < 256
  · rw [dif_pos hshort, dif_pos (h ▸ hshort)]
    refine (alike_exchange ?_).seq fun p => .ofExcept (.refl _)
    have hcounted (c : Command) : (c.counted m).Alike (c.counted m') := by
      unfold Command.counted
      rw [h]
      exact (Command.Alike.refl _).bytes h
    cases layer with
    | three => exact hcounted _
    | four => exact hcounted _
  · rw [dif_neg hshort, dif_neg (h ▸ hshort)]
    unfold Command.uncountable
    rw [h]
    exact .fail _

lemma Iso14443a.alike_authenticate (s s' : UltralightC.Session) (nonce : Block) :
    (authenticateUltralightC s nonce).Alike Call.Alike (fun _ _ => True)
      (authenticateUltralightC s' nonce) :=
  (UltralightC.alike_handshake _ _ nonce).expand fun _ _ h => alike_passThrough .three h

/-! ## The operations that take a secret -/

/-- Keys from the same source: both come along, or both lie in the same slot. -/
inductive KeySource.Alike : KeySource → KeySource → Prop where
  | explicit (key key' : SectorKey) : Alike (.explicit key) (.explicit key')
  | stored (slot : KeySlot) : Alike (.stored slot) (.stored slot)

/-- Both are without a key, or with keys from the same source. -/
inductive Mifare.SectorAuth.Alike : SectorAuth → SectorAuth → Prop where
  | default (side : KeySide) : Alike ⟨side, none⟩ ⟨side, none⟩
  | source (side : KeySide) {source source' : KeySource} (alike : source.Alike source') :
    Alike ⟨side, some source⟩ ⟨side, some source'⟩

/-- Two flags, which may differ. -/
def Finding.Flags (x y : Finding) : Prop := ∃ b b', x = .flag b ∧ y = .flag b'

/-- The operations that take a secret, once with one and once with another of the same length, and
how the findings are related. -/
inductive Operation.Alike : (Finding → Finding → Prop) → Operation → Operation → Prop where
  | loadKey {source source' : KeySource} (alike : source.Alike source') :
    Alike Eq (.iso14443a (.loadKey source)) (.iso14443a (.loadKey source'))
  | storeKey (slot : KeySlot) (key key' : SectorKey) :
    Alike Eq (.iso14443a (.storeKey slot key)) (.iso14443a (.storeKey slot key'))
  | authenticate (side : KeySide) (uid : Uid) {source source' : KeySource}
    (alike : source.Alike source') (block : UInt8) :
    Alike Eq (.iso14443a (.authenticate side uid source block))
      (.iso14443a (.authenticate side uid source' block))
  | readSector (sector : UInt8) {auth auth' : Mifare.SectorAuth} (alike : auth.Alike auth')
    (mask : UInt16) :
    Alike Eq (.mifare (.readSector sector auth mask)) (.mifare (.readSector sector auth' mask))
  | writeSector (data : Bytes) (sector : UInt8) {auth auth' : Mifare.SectorAuth}
    (alike : auth.Alike auth') (mask : UInt16) :
    Alike Eq (.mifare (.writeSector data sector auth mask))
      (.mifare (.writeSector data sector auth' mask))
  | writeTrailers (mask : UInt64) {trailers trailers' : List (Octets 16)}
    (length_eq : trailers.length = trailers'.length) :
    Alike Eq (.mifare (.writeTrailers mask trailers)) (.mifare (.writeTrailers mask trailers'))
  | setPassword (uid : Option Uid) (id : Icode.PasswordId) {password password' : Bytes}
    (length_eq : password.length = password'.length) :
    Alike Eq (.icode (.setPassword uid id password)) (.icode (.setPassword uid id password'))
  | writePassword (uid : Uid) (id : Icode.PasswordId) {password password' : Bytes}
    (length_eq : password.length = password'.length) :
    Alike Eq (.icode (.writePassword uid id password)) (.icode (.writePassword uid id password'))
  | authenticateUltralightC (s s' : UltralightC.Session) (nonce : Block) :
    Alike Finding.Flags (.iso14443a (.authenticateUltralightC s nonce))
      (.iso14443a (.authenticateUltralightC s' nonce))
  | authenticateByKey {key key' : Bytes} (length_eq : key.length = key'.length) (nonce : Block) :
    Alike Finding.Flags (.mifare (.authenticateUltralightC key nonce))
      (.mifare (.authenticateUltralightC key' nonce))

lemma Iso14443a.alike_loadKey {source source' : KeySource} (h : source.Alike source') :
    (loadKey source).Alike Call.Alike Eq (loadKey source') := by
  cases h with
  | explicit key key' => exact alike_order ((Command.Alike.refl _).octets key key')
  | stored slot => exact alike_refl _

namespace Mifare

variable {auth auth' : SectorAuth} (h : auth.Alike auth')
include h

lemma alike_sectorCommand (code sector : UInt8) (mask : UInt16) :
    (sectorCommand code sector auth mask).Alike (sectorCommand code sector auth' mask) := by
  cases h with
  | default side => exact .refl _
  | source side hs =>
    cases hs with
    | explicit key key' => exact (Command.Alike.refl _).octets key key'
    | stored slot => exact .refl _

lemma sectorText_alike (verb : String) (sector : UInt8) (mask : UInt16) :
    sectorText verb sector auth mask = sectorText verb sector auth' mask := by
  cases h <;> rfl

lemma alike_readSector (sector : UInt8) (mask : UInt16) :
    (readSector sector auth mask).Alike Call.Alike Eq (readSector sector auth' mask) := by
  unfold readSector
  rw [sectorText_alike h]
  refine (alike_refl _).seq fun _ => ?_
  exact (alike_exchangeWithin (alike_sectorCommand h _ _ _) _).seq fun _ => .ofExcept (.refl _)

lemma alike_writeSector (data : Bytes) (sector : UInt8) (mask : UInt16) :
    (writeSector data sector auth mask).Alike Call.Alike Eq
      (writeSector data sector auth' mask) := by
  unfold writeSector
  rw [sectorText_alike h]
  refine .check fun _ => (alike_refl _).seq fun _ => ?_
  refine (alike_exchangeWithin ?_ _).seq fun _ => .ofExcept (.refl _)
  exact (alike_sectorCommand h _ _ _).bytes rfl

omit h

lemma alike_writeTrailers (mask : UInt64) {trailers trailers' : List (Octets 16)}
    (h : trailers.length = trailers'.length) :
    (writeTrailers mask trailers).Alike Call.Alike Eq (writeTrailers mask trailers') := by
  unfold writeTrailers
  dsimp only
  rw [h]
  refine .check fun _ => .check fun _ => ?_
  refine (alike_exchangeWithin ?_ _).seq fun _ => .ofExcept (.refl _)
  refine (Command.Alike.refl _).bytes ?_
  rw [Bytes.length_flatMap Octets.length_eq, Bytes.length_flatMap Octets.length_eq, h]

end Mifare

namespace Icode

variable {pwd pwd' : Bytes} (h : pwd.length = pwd'.length)
include h

/-- Whether bytes are a password depends on their number only. -/
lemma alike_password :
    (password pwd).Alike Call.Alike (fun _ _ => True) (password pwd') := by
  unfold password Octets.ofBytes?
  by_cases hfour : pwd.length = 4
  · rw [dif_pos hfour, dif_pos (h ▸ hfour)]
    exact .done trivial
  · rw [dif_neg hfour, dif_neg (h ▸ hfour), h]
    exact .fail _

lemma alike_setPassword (uid : Option Uid) (id : PasswordId) :
    (setPassword uid id pwd).Alike Call.Alike Eq (setPassword uid id pwd') := by
  refine (alike_password h).bind fun p p' _ => .check fun _ => ?_
  refine (alike_refl _).seq fun tag => (alike_refl _).seq fun number => ?_
  exact alike_order ((Command.Alike.refl _).octets _ _)

lemma alike_writePassword (uid : Uid) (id : PasswordId) :
    (writePassword uid id pwd).Alike Call.Alike Eq (writePassword uid id pwd') := by
  refine (alike_password h).bind fun p p' _ => (alike_refl _).seq fun tag => ?_
  exact alike_order ((Command.Alike.refl _).octets p p')

end Icode

/-- Whether bytes are a key depends on their number only. -/
lemma UltralightC.Session.agree_ofKey {key key' : Bytes} (h : key.length = key'.length) :
    Agree (fun _ _ => True) (ofKey key) (ofKey key') := by
  unfold ofKey Octets.ofBytes?
  by_cases hlen : key.length = 16
  · rw [dif_pos hlen, dif_pos (h ▸ hlen)]
    exact trivial
  · rw [dif_neg hlen, dif_neg (h ▸ hlen), h]
    rfl

namespace Operation

/-- The dialogues of an operation with one secret and with another are alike. -/
lemma Alike.talk {Q : Finding → Finding → Prop} {op op' : Operation} (h : Alike Q op op')
    (b : Iso14443b.Session) :
    (op.talk b).Alike Call.Alike (fun x y => Q x.1 y.1 ∧ x.2 = y.2) (op'.talk b) := by
  have hdone {d d' : Talk Unit} (hd : d.Alike Call.Alike Eq d') :
      (d.finish).Alike Call.Alike Eq (d'.finish) := hd.map fun _ _ _ => rfl
  have hfind {α : Type} {f : α → Finding} {d d' : Talk α} (hd : d.Alike Call.Alike Eq d') :
      (d.find f).Alike Call.Alike Eq (d'.find f) := hd.map fun _ _ hab => congrArg f hab
  have hflag {d d' : Talk Bool} (hd : d.Alike Call.Alike (fun _ _ => True) d') :
      (d.find .flag).Alike Call.Alike Finding.Flags (d'.find .flag) :=
    hd.map fun b b' _ => ⟨b, b', rfl, rfl⟩
  have hpair {Q : Finding → Finding → Prop} {d d' : Talk Finding}
      (hd : d.Alike Call.Alike Q d') : Dialogue.Alike Call.Alike
        (fun x y : Finding × Iso14443b.Session => Q x.1 y.1 ∧ x.2 = y.2)
        (do pure (← d, b)) (do pure (← d', b)) := hd.map fun _ _ hab => ⟨hab, rfl⟩
  cases h with
  | loadKey hs => exact hpair (hdone (Iso14443a.alike_loadKey hs))
  | storeKey slot key key' =>
    exact hpair (hdone (alike_order ((Command.Alike.refl _).octets key key')))
  | authenticate side uid hs block =>
    exact hpair (hdone ((Iso14443a.alike_loadKey hs).seq fun _ => alike_refl _))
  | readSector sector hs mask => exact hpair (hfind (Mifare.alike_readSector hs sector mask))
  | writeSector data sector hs mask =>
    exact hpair (hfind (Mifare.alike_writeSector hs data sector mask))
  | writeTrailers mask hlen => exact hpair (hfind (Mifare.alike_writeTrailers mask hlen))
  | setPassword uid id hlen => exact hpair (hdone (Icode.alike_setPassword hlen uid id))
  | writePassword uid id hlen => exact hpair (hdone (Icode.alike_writePassword hlen uid id))
  | authenticateUltralightC s s' nonce =>
    exact hpair (hflag (Iso14443a.alike_authenticate s s' nonce))
  | authenticateByKey hlen nonce =>
    refine hpair (hflag ((Dialogue.Alike.ofExcept (UltralightC.Session.agree_ofKey hlen)).bind ?_))
    exact fun s s' _ => Iso14443a.alike_authenticate s s' nonce

end Operation

/-! ## Two runs with different secrets -/

/-- Outcomes behind recorders that cannot be told apart: the same fault or related values, the same
notes but for the level of tracing, and as many frames of the same lengths. -/
structure Outcome.Alike (Q : α → β → Prop) (o : Outcome (Recorded σ) α)
    (o' : Outcome (Recorded σ) β) : Prop where
  result : Agree Q o.result o'.result
  notes_eq : shown o.notes = shown o'.notes
  lengths_eq : o.state.frames.map List.length = o'.state.frames.map List.length

lemma Run.Indistinct.outcome {R : σ → σ → Prop} {Q : α → β → Prop} {x : Run (Recorded σ) α}
    {y : Run (Recorded σ) β} (h : Run.Indistinct (Recorded.Alike R) Q x y) {s t : Recorded σ}
    (hst : s.Alike R t) : Outcome.Alike Q (x s) (y t) := by
  obtain ⟨hr, hn, hs⟩ := h hst
  exact ⟨hr, hn, hs.frames⟩

namespace Engine

variable {R : σ → σ → Prop}

/-- **Secrets stay out of the log, and out of what can be seen of the frames.**  Over a link that
heeds no more than the length of what it is given, two runs of an operation with different keys or
passwords of the same length write the same notes up to the level of debugging, send as many frames
of the same lengths, and end in the same result, texts of errors included; the same is true of two
tries of the Ultralight C handshake, except that one key may be accepted and the other not. -/
theorem keeps_secrets (e : Engine σ) (h : e.link.Heedless R) {s t : Recorded σ}
    (hst : s.Alike R t) :
    (∀ (Q : Finding → Finding → Prop) (op op' : Operation) (b : Iso14443b.Session),
      op.Alike Q op' →
        Outcome.Alike Q (op.perform e.recorded b s).1 (op'.perform e.recorded b t).1 ∧
        (op.perform e.recorded b s).2 = (op'.perform e.recorded b t).2) ∧
    ∀ (x y : UltralightC.Session) (nonce : Block),
      Outcome.Alike (fun _ _ => True) (x.run e.recorded.channel nonce s).1
        (y.run e.recorded.channel nonce t).1 := by
  refine ⟨fun Q op op' b hop => ?_, fun x y nonce => ?_⟩
  · obtain ⟨hr, hn, hl⟩ :=
      (indistinct_conduct (e := e.recorded) h.recorded (hop.talk b)).outcome hst
    unfold Operation.perform
    rcases he : e.recorded.conduct (op.talk b) s with ⟨r, s', ns⟩
    rcases he' : e.recorded.conduct (op'.talk b) t with ⟨r', t', ns'⟩
    rw [he, he'] at hr hn hl
    rcases r with f | ⟨finding, c⟩ <;> rcases r' with g | ⟨finding', c'⟩
    · exact ⟨⟨hr, hn, hl⟩, rfl⟩
    · exact hr.elim
    · exact hr.elim
    · exact ⟨⟨hr.1, hn, hl⟩, hr.2⟩
  · have hchannel (m m' : Bytes) (hm : m.length = m'.length) :
        Run.Indistinct (Recorded.Alike R) Eq (e.recorded.channel m) (e.recorded.channel m') :=
      indistinct_conduct (e := e.recorded) h.recorded (Iso14443a.alike_passThrough .three hm)
    have htries : Run.Indistinct (Recorded.Alike R) (fun _ _ => True)
        ((x.attempt nonce).run e.recorded.channel) ((y.attempt nonce).run e.recorded.channel) :=
      (UltralightC.alike_handshake _ _ nonce).indistinct_run hchannel
    exact htries.outcome hst

/-- A key that is loaded after a first reply has been lost: the frames differ, and nothing else. -/
theorem keeps_secrets_loadKey :
    let e : Engine (Script Unit) := ⟨Script.link fun _ r => (.error .timeout, r), .standard, {}⟩
    let s : Recorded (Script Unit) :=
      { inner := { queue := [.error .timeout, .ok (Frame.closed .standard [7, 0, 0, 0, 0])] } }
    let load (key : SectorKey) := (Operation.iso14443a (.loadKey (.explicit key))).perform
      e.recorded {} s
    (e.link.Heedless Script.Alike ∧ s.Alike Script.Alike s) ∧
      (load SectorKey.factory).1.result.isOk = true ∧
      (load SectorKey.factory).1.state.frames ≠ (load (Octets.fill 6 0xA0)).1.state.frames ∧
      Outcome.Alike Eq (load SectorKey.factory).1 (load (Octets.fill 6 0xA0)).1 := by
  intro e s load
  have h : e.link.Heedless Script.Alike := Script.heedless_link _
  have hst : s.Alike Script.Alike s := ⟨⟨rfl, rfl, rfl⟩, rfl, rfl, rfl⟩
  refine ⟨⟨h, hst⟩, by decide +kernel, by decide +kernel, ?_⟩
  exact ((keeps_secrets e h hst).1 Eq _ _ {} (.loadKey (.explicit _ _))).1

end Engine

end TagReader
