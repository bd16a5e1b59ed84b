/-
# Nothing there

A caller that looks for tags again and again must be able to tell "no tag" from a failure.  This
file says when an operation yields "nothing there": exactly when the reader says so.

* What an exchange comes to is decided by its last call, as a recorder keeps it (`Answers`): a frame
  that is accepted gives its payload or its status, and everything else is a fault that is no
  status.  This needs that the link does not report a status by itself (`Link.Statusless`), as no
  stream does (`ByteStream.statusless`).
* All operations that look for tags go the same way (`Talk.seek`): they ask up to a few questions,
  one after the other, and the first one that is answered by success decides.
  `Search.silent_talk` says so of each of them, and `Sought` what comes of it.

The main result is `Search.absent_iff`.
-/
import Mathlib
import TagReader.Operation
import TagReader.Proofs.Attempts
import TagReader.Proofs.Decoding
import TagReader.Proofs.Journal
import TagReader.Proofs.Peer
import TagReader.Stream.Channel

namespace TagReader

variable {σ ι α β : Type}

/-! ## The last call of an exchange -/

/-- The last call has brought a frame, and it is accepted as a reply. -/
def Accepts (t : Trailer) (evs : List Event) (reply : Reply) : Prop :=
  ∃ ms raw, evs.getLast? = some (.received ms (.ok raw)) ∧ Frame.decode t raw = .ok reply

/-- The last call has brought a reply with a status other than success. -/
def Denies (t : Trailer) (evs : List Event) : Prop :=
  ∃ reply, Accepts t evs reply ∧ reply.status ≠ 0

/-- The last call has brought a reply with success and a payload. -/
def Supplies (t : Trailer) (evs : List Event) (p : Bytes) : Prop :=
  ∃ reply, Accepts t evs reply ∧ reply.status = 0 ∧ reply.payload = p

section Last

variable {t : Trailer} {evs : List Event} {reply reply' : Reply}

lemma Accepts.unique (h : Accepts t evs reply) (h' : Accepts t evs reply') : reply = reply' := by
  obtain ⟨ms, raw, hlast, hdecode⟩ := h
  obtain ⟨ms', raw', hlast', hdecode'⟩ := h'
  cases hlast.symm.trans hlast'
  exact Except.ok.inj (hdecode.symm.trans hdecode')

lemma Supplies.unique {p p' : Bytes} (h : Supplies t evs p) (h' : Supplies t evs p') : p = p' := by
  obtain ⟨reply, haccepts, -, rfl⟩ := h
  obtain ⟨reply', haccepts', -, rfl⟩ := h'
  rw [haccepts.unique haccepts']

lemma Denies.not_supplies (h : Denies t evs) (p : Bytes) : ¬Supplies t evs p := by
  obtain ⟨reply, haccepts, hstatus⟩ := h
  rintro ⟨reply', haccepts', hstatus', -⟩
  rw [haccepts.unique haccepts'] at hstatus
  exact hstatus hstatus'

lemma Attempt.accepts_iff (a : Attempt t) (frame : Bytes) (ms : Nat) :
    Accepts t (a.events frame ms) reply ↔ a.outcome = .ok reply := by
  obtain ⟨course, dropped, hdropped⟩ := a
  cases dropped with
  | some r =>
    -- The last call drops the input, after a transient fault.
    constructor
    · rintro ⟨_, _, hlast, -⟩
      simp [Attempt.events] at hlast
    · intro hok
      have hfault : endsTransient (course.outcome t) = true := hdropped.symm
      rw [show course.outcome t = .ok reply from hok] at hfault
      cases hfault
  | none =>
    cases course with
    | unsent f => simp [Accepts, Attempt.events, Attempt.outcome, Course.events, Course.outcome]
    | unanswered f => simp [Accepts, Attempt.events, Attempt.outcome, Course.events, Course.outcome]
    | answered raw => simp [Accepts, Attempt.events, Attempt.outcome, Course.events, Course.outcome]

/-- The last attempt of an exchange decides what its last call has brought. -/
lemma Attempts.accepts_iff {bound : Nat} (k : Attempts t bound) (frame : Bytes) (ms : Nat) :
    Accepts t (k.events frame ms) reply ↔ k.last.outcome = .ok reply := by
  rw [← k.last.accepts_iff frame ms]
  have hlast : (k.events frame ms).getLast? = (k.last.events frame ms).getLast? := by
    have hne : k.last.events frame ms ≠ [] := by
      cases hc : k.last.course <;> simp [Attempt.events, Course.events, hc]
    rw [Attempts.events, List.flatMap_append, List.flatMap_singleton, List.getLast?_append,
      List.getLast?_eq_some_getLast hne, Option.some_or]
  unfold Accepts
  rw [hlast]

end Last

/-! ## What an exchange comes to -/

/-- The link reports no status by itself; only a reader does. -/
structure Link.Statusless (l : Link σ) : Prop where
  send : ∀ frame s code, (l.send frame s).result ≠ .error (.readerStatus code)
  receive : ∀ ms s code, (l.receive ms s).result ≠ .error (.readerStatus code)

namespace ByteStream

variable (S : ByteStream σ)

lemma isTransient_of_readFull {ms room : Nat} {s : σ} {f : Fault}
    (h : (S.readFull ms room s).1 = .error f) : f.isTransient = true := by
  fun_induction S.readFull ms room s with
  | case1 => cases h
  | case2 =>
    cases h
    rfl
  | case3 =>
    cases h
    exact IoFault.isTransient_toFault _
  | case4 =>
    cases h
    rfl
  | case5 => cases h
  | case6 =>
    rename_i hrest ih
    rw [hrest] at ih
    exact ih h
  | case7 =>
    rename_i ih
    exact ih h
  | case8 =>
    cases h
    exact IoFault.isTransient_toFault _

lemma isTransient_of_writeAll {data : Bytes} {s : σ} {f : Fault}
    (h : (S.writeAll data s).1 = .error f) : f.isTransient = true := by
  fun_induction S.writeAll data s with
  | case1 => cases h
  | case2 =>
    cases h
    rfl
  | case3 =>
    rename_i ih
    exact ih h
  | case4 =>
    rename_i ih
    exact ih h
  | case5 =>
    cases h
    exact IoFault.isTransient_toFault _

/-- Whatever fails about a stream is transient, and a status is not. -/
lemma statusless : S.link.Statusless := by
  have hne {f : Fault} (h : f.isTransient = true) (code : UInt8) : f ≠ .readerStatus code := by
    rintro rfl
    exact absurd h Bool.false_ne_true
  refine ⟨fun frame s code h => ?_, fun ms s code h => ?_⟩
  · change (S.send frame s).result = _ at h
    unfold send at h
    split at h
    · rename_i f s₁ hwrite
      exact hne (S.isTransient_of_writeAll (congrArg Prod.fst hwrite)) code (Except.error.inj h)
    · split at h
      · exact hne (IoFault.isTransient_toFault _) code (Except.error.inj h)
      · cases h
  · change (S.receive ms s).result = _ at h
    unfold receive at h
    split at h
    · rename_i f s₁ hread
      exact hne (S.isTransient_of_readFull (congrArg Prod.fst hread)) code (Except.error.inj h)
    · split at h
      · rename_i f s₂ hread
        exact hne (S.isTransient_of_readFull (congrArg Prod.fst hread)) code (Except.error.inj h)
      · cases h

end ByteStream

/-- The call has not ended in a status. -/
def Event.Statusless : Event → Prop
  | sent _ r => ∀ code, r ≠ .error (.readerStatus code)
  | received _ r => ∀ code, r ≠ .error (.readerStatus code)
  | discarded _ => True

/-- If no call has ended in a status, then no attempt has failed by one. -/
lemma Attempts.not_status {t : Trailer} {bound : Nat} {k : Attempts t bound} {frame : Bytes}
    {ms : Nat} (h : ∀ ev ∈ k.events frame ms, ev.Statusless) {f : Fault}
    (hf : k.last.outcome = .error f) (code : UInt8) : f ≠ .readerStatus code := by
  have hcourse : ∀ ev ∈ k.last.course.events frame ms, ev.Statusless := fun ev hev => by
    refine h ev (List.mem_flatMap.2 ⟨k.last, ?_, List.mem_append_left _ hev⟩)
    exact List.mem_append_right _ List.mem_cons_self
  rw [Attempt.outcome] at hf
  cases hc : k.last.course with
  | unsent g =>
    rw [hc] at hcourse hf
    rintro rfl
    obtain rfl := Except.error.inj hf
    exact hcourse _ List.mem_cons_self code rfl
  | unanswered g =>
    rw [hc] at hcourse hf
    rintro rfl
    obtain rfl := Except.error.inj hf
    exact hcourse _ (List.mem_cons_of_mem _ List.mem_cons_self) code rfl
  | answered raw =>
    rw [hc] at hf
    rintro rfl
    exact absurd (Frame.isTransient_of_decode hf) Bool.false_ne_true

/-- The last call of an exchange decides its answer. -/
inductive Answers (t : Trailer) (evs : List Event) : Except Fault Bytes → Prop where
  | payload {p : Bytes} (h : Supplies t evs p) : Answers t evs (.ok p)
  | status {reply : Reply} (h : Accepts t evs reply) (hs : reply.status ≠ 0) :
    Answers t evs (.error (.readerStatus reply.status))
  | failure {f : Fault} (h : ∀ reply, ¬Accepts t evs reply) (hf : ∀ code, f ≠ .readerStatus code) :
    Answers t evs (.error f)

namespace Engine

variable (e : Engine σ)

/-- The calls of one exchange. -/
def span (q : Call) (s : σ) : List Event := (e.recorded.serve q { inner := s }).state.events

variable {e}

/-- A recorder keeps no status over such a link. -/
lemma statusless_span (hl : e.link.Statusless) (q : Call) (s : σ) :
    ∀ ev ∈ e.span q s, ev.Statusless := by
  let P (r : Recorded σ) : Prop :=
    r.sendFaults = [] ∧ r.discardFaults = [] ∧ ∀ ev ∈ r.events, ev.Statusless
  have hkeep : Corresponds (fun a b => a = b ∧ P a) e.recorded e.recorded := by
    refine keeps ?_ ?_ ?_
    · rintro frame ⟨s, events, _, _⟩ ⟨rfl, rfl, hevents⟩
      exact ⟨rfl, rfl, List.forall_mem_append.2
        ⟨hevents, List.forall_mem_singleton.2 (hl.send frame s)⟩⟩
    · rintro ms ⟨s, events, _, _⟩ ⟨rfl, rfl, hevents⟩
      exact ⟨rfl, rfl, List.forall_mem_append.2
        ⟨hevents, List.forall_mem_singleton.2 (hl.receive ms s)⟩⟩
    · rintro ⟨s, events, _, _⟩ ⟨rfl, rfl, hevents⟩
      exact ⟨rfl, rfl, List.forall_mem_append.2 ⟨hevents, List.forall_mem_singleton.2 trivial⟩⟩
  have hstart : P { inner := s } := ⟨rfl, rfl, fun ev hev => absurd hev List.not_mem_nil⟩
  exact (hkeep.serve q ⟨rfl, hstart⟩).2.2.2.2

/-- **The last call of an exchange decides its answer.** -/
theorem answers_serve (hl : e.link.Statusless) (q : Call) (s : σ) :
    Answers e.trailer (e.span q s) (e.serve q s).result := by
  have hstatusless := statusless_span hl q s
  have hresult : (e.recorded.serve q { inner := s }).result = (e.serve q s).result :=
    (e.recorded_corresponds.serve q ⟨rfl, rfl, rfl⟩).1
  unfold span at hstatusless ⊢
  rw [← hresult]
  cases hf : Frame.encode e.trailer q.command.body with
  | error f =>
    obtain ⟨text, rfl⟩ := Frame.exists_of_encode_eq_error hf
    rw [serve_of_refused (e := e.recorded) hf]
    refine .failure ?_ (by simp)
    rintro reply ⟨_, _, hlast, -⟩
    cases hlast
  | ok frame =>
    obtain ⟨k, hk, hev⟩ := e.attempts_recorded q.command frame
      (q.bound.getD e.settings.retries) (q.bound.getD e.settings.retries) { inner := s }
    rw [serve_of_encode (e := e.recorded) hf] at hstatusless ⊢
    rw [show e.recorded.settings = e.settings from rfl] at hstatusless ⊢
    rw [hev, List.nil_append] at hstatusless ⊢
    have haccepts : ∀ reply, Accepts e.trailer (k.events frame e.settings.timeoutMs) reply ↔
        k.last.outcome = .ok reply := fun reply => k.accepts_iff frame e.settings.timeoutMs
    rw [hk, Attempts.answer]
    cases ho : k.last.outcome with
    | error f =>
      refine .failure (fun reply hreply => ?_) (Attempts.not_status hstatusless ho)
      rw [haccepts, ho] at hreply
      cases hreply
    | ok reply =>
      have hreply := (haccepts reply).2 ho
      dsimp only
      by_cases hs : reply.status = 0
      · rw [if_pos hs]
        exact .payload ⟨reply, hreply, hs, rfl⟩
      · rw [if_neg hs]
        exact .status hreply hs

/-! ## The exchanges of a dialogue -/

variable (e)

/-- The calls of a dialogue, exchange by exchange. -/
def spans : Talk α → σ → List (List Event)
  | .done _, _ => []
  | .fail _, _ => []
  | .note _ d, s => spans d s
  | .ask q k, s => e.span q s :: spans (k (e.serve q s).result) (e.serve q s).state

lemma spans_ask (q : Call) (k : Except Fault Bytes → Talk α) (s : σ) :
    e.spans (.ask q k) s =
      e.span q s :: e.spans (k (e.serve q s).result) (e.serve q s).state := rfl

/-- A recorder that has kept some calls before, and lets all calls through. -/
def Behind (pre : List Event) (r r' : Recorded σ) : Prop :=
  r = { r' with events := pre ++ r'.events } ∧ r'.sendFaults = [] ∧ r'.discardFaults = []

/-- It goes on like one that has kept none. -/
lemma corresponds_behind (pre : List Event) :
    Corresponds (Behind pre) e.recorded e.recorded := by
  refine corresponds_of_link ⟨?_, ?_, ?_⟩ rfl rfl
  · rintro frame _ ⟨s, events, _, _⟩ ⟨rfl, rfl, rfl⟩
    refine ⟨rfl, ?_, rfl, rfl⟩
    exact congrArg (Recorded.mk _ · [] []) (List.append_assoc _ _ _)
  · rintro ms _ ⟨s, events, _, _⟩ ⟨rfl, rfl, rfl⟩
    refine ⟨rfl, ?_, rfl, rfl⟩
    exact congrArg (Recorded.mk _ · [] []) (List.append_assoc _ _ _)
  · rintro _ ⟨s, events, _, _⟩ ⟨rfl, rfl, rfl⟩
    refine ⟨rfl, ?_, rfl, rfl⟩
    exact congrArg (Recorded.mk _ · [] []) (List.append_assoc _ _ _)

/-- What a recorder keeps of a dialogue is what it keeps of its exchanges. -/
theorem events_conduct_eq (d : Talk α) (s : σ) :
    (e.recorded.conduct d { inner := s }).state.events = (e.spans d s).flatten := by
  suffices h : ∀ r : Recorded σ, r.sendFaults = [] → r.discardFaults = [] →
      (e.recorded.conduct d r).state.events = r.events ++ (e.spans d r.inner).flatten from
    h { inner := s } rfl rfl
  induction d with
  | done a => exact fun r _ _ => (List.append_nil _).symm
  | fail f => exact fun r _ _ => (List.append_nil _).symm
  | note n d ih =>
    intro r hsend hdiscard
    rw [state_conduct_note]
    exact ih r hsend hdiscard
  | ask q k ih =>
    rintro ⟨s, events, _, _⟩ rfl rfl
    obtain ⟨hresult, hinner, hsend, hdiscard⟩ :=
      e.recorded_corresponds.serve q (⟨rfl, rfl, rfl⟩ : Recorded.Shows ⟨s, events, [], []⟩ s)
    obtain ⟨-, hbehind, -⟩ := (e.corresponds_behind events).serve q
      (⟨congrArg (Recorded.mk s · [] []) (List.append_nil _).symm, rfl, rfl⟩ :
        Behind events ⟨s, events, [], []⟩ { inner := s })
    have hevents := congrArg Recorded.events hbehind
    rw [state_conduct_ask, spans_ask, ih _ _ hsend hdiscard, hresult, hinner, hevents,
      List.flatten_cons, List.append_assoc]
    rfl

end Engine

/-! ## Dialogues up to their notes -/

namespace Dialogue

lemma andThen_done (d : Dialogue ι α) : d.andThen done = d := by
  induction d with
  | done a => rfl
  | fail f => rfl
  | note n d ih => exact congrArg (note n) ih
  | ask q k ih => exact congrArg (ask q) (funext ih)

lemma andThen_assoc {γ : Type} (d : Dialogue ι α) (f : α → Dialogue ι β) (g : β → Dialogue ι γ) :
    (d.andThen f).andThen g = d.andThen fun a => (f a).andThen g := by
  induction d with
  | done a => rfl
  | fail f => rfl
  | note n d ih => exact congrArg (note n) ih
  | ask q k ih => exact congrArg (ask q) (funext ih)

instance : LawfulMonad (Dialogue ι) :=
  LawfulMonad.mk' _ andThen_done (fun _ _ => rfl) andThen_assoc

/-- The dialogue without its notes. -/
def silent : Dialogue ι α → Dialogue ι α
  | done a => done a
  | fail f => fail f
  | note _ d => d.silent
  | ask q k => ask q fun r => (k r).silent

end Dialogue

/-- Notes change nothing else. -/
lemma Engine.conduct_silent (e : Engine σ) (d : Talk α) (s : σ) :
    (e.conduct d.silent s).result = (e.conduct d s).result ∧
      e.spans d.silent s = e.spans d s := by
  induction d generalizing s with
  | done a => exact ⟨rfl, rfl⟩
  | fail f => exact ⟨rfl, rfl⟩
  | note n d ih =>
    rw [result_conduct_note]
    exact ih s
  | ask q k ih =>
    obtain ⟨hresult, hspans⟩ := ih (e.serve q s).result (e.serve q s).state
    rw [result_conduct_ask]
    refine ⟨(result_conduct_ask e q (fun r => (k r).silent) s).trans hresult, ?_⟩
    exact congrArg (List.cons _) hspans

/-- What is made of a value in the end takes no exchange. -/
lemma Engine.spans_map (e : Engine σ) (d : Talk α) (g : α → β) (s : σ) :
    e.spans (d >>= fun a => pure (g a)) s = e.spans d s := by
  induction d generalizing s with
  | done a => rfl
  | fail f => rfl
  | note n d ih => exact ih s
  | ask q k ih => exact congrArg (List.cons _) (ih _ _)

section OfExcept

variable (e : Engine σ) (r : Except Fault α) (s : σ)

lemma Engine.spans_ofExcept : e.spans (Dialogue.ofExcept r) s = [] := by
  cases r <;> rfl

lemma Engine.result_conduct_ofExcept : (e.conduct (Dialogue.ofExcept r) s).result = r := by
  cases r <;> rfl

end OfExcept

/-! ## Looking for tags -/

/-- A command, and how the payload of its reply is read. -/
structure Inquiry where
  command : Command
  read : Bytes → Except Fault Finding

/-- Asks one question after the other.  The first success decides, and so does a failure that is no
status; if the reader reports a status every time, there is nothing there. -/
def Talk.seek (absent : Finding) : List Inquiry → Talk Finding
  | [] => .done absent
  | q :: qs => .ask ⟨q.command, none⟩ fun
    | .ok p => Dialogue.ofExcept (q.read p)
    | .error (.readerStatus _) => seek absent qs
    | .error f => .fail f

/-- What comes of asking, by the calls of each exchange. -/
inductive Sought (t : Trailer) (absent : Finding) :
    List Inquiry → List (List Event) → Except Fault Finding → Prop where
  | absent : Sought t absent [] [] (.ok absent)
  | found {q : Inquiry} {qs : List Inquiry} {evs : List Event} {p : Bytes} (h : Supplies t evs p) :
    Sought t absent (q :: qs) [evs] (q.read p)
  | denied {q : Inquiry} {qs : List Inquiry} {evs : List Event} {w : List (List Event)}
    {r : Except Fault Finding} (h : Denies t evs) (later : Sought t absent qs w r) :
    Sought t absent (q :: qs) (evs :: w) r
  | failed {q : Inquiry} {qs : List Inquiry} {evs : List Event} {f : Fault}
    (h : ∀ reply, ¬Accepts t evs reply) (hf : ∀ code, f ≠ .readerStatus code) :
    Sought t absent (q :: qs) [evs] (.error f)

/-- Each question is answered as its last call says. -/
lemma Engine.sought_seek {e : Engine σ} (hl : e.link.Statusless) (absent : Finding)
    (qs : List Inquiry) (s : σ) :
    Sought e.trailer absent qs (e.spans (Talk.seek absent qs) s)
      (e.conduct (Talk.seek absent qs) s).result := by
  induction qs generalizing s with
  | nil => exact .absent
  | cons q qs ih =>
    have hanswers := answers_serve hl ⟨q.command, none⟩ s
    have hlater := ih (e.serve ⟨q.command, none⟩ s).state
    rw [Talk.seek, spans_ask, result_conduct_ask]
    generalize (e.serve ⟨q.command, none⟩ s).result = r at hanswers
    cases hanswers with
    | @payload p h =>
      dsimp only
      rw [spans_ofExcept, result_conduct_ofExcept]
      exact .found h
    | status h hs => exact .denied ⟨_, h, hs⟩ hlater
    | @failure f h hf =>
      cases f with
      | readerStatus code => exact absurd rfl (hf code)
      | _ => exact .failed h hf

namespace Sought

variable {t : Trailer} {absent : Finding} {q : Inquiry} {qs : List Inquiry}
  {w : List (List Event)} {r : Except Fault Finding}

/-- If nothing that is read means "nothing there", then only the reader's status does. -/
lemma eq_absent_iff (h : Sought t absent qs w r) (hread : ∀ q ∈ qs, ∀ p, q.read p ≠ .ok absent) :
    r = .ok absent ↔ w.length = qs.length ∧ ∀ evs ∈ w, Denies t evs := by
  induction h with
  | absent => simp
  | @found q qs evs p h =>
    refine iff_of_false (hread q List.mem_cons_self p) ?_
    rintro ⟨-, hall⟩
    exact (hall evs List.mem_cons_self).not_supplies p h
  | @denied q qs evs w r h later ih =>
    rw [ih fun q' hq' => hread q' (List.mem_cons_of_mem _ hq')]
    simp [h]
  | @failed q qs evs f h hf =>
    refine iff_of_false (by simp) ?_
    rintro ⟨-, hall⟩
    obtain ⟨reply, haccepts, -⟩ := hall evs List.mem_cons_self
    exact h reply haccepts

/-- With a single question, what is read may mean "nothing there", too. -/
lemma eq_absent_iff_of_single (h : Sought t absent [q] w r) :
    r = .ok absent ↔ ∃ evs, w = [evs] ∧
      (Denies t evs ∨ ∃ p, Supplies t evs p ∧ q.read p = .ok absent) := by
  cases h with
  | @found _ _ evs p h =>
    constructor
    · exact fun hr => ⟨evs, rfl, .inr ⟨p, h, hr⟩⟩
    · rintro ⟨evs', hevs, hdenied | ⟨p', h', hr⟩⟩
      · obtain rfl := List.head_eq_of_cons_eq hevs
        exact absurd h (hdenied.not_supplies p)
      · obtain rfl := List.head_eq_of_cons_eq hevs
        rwa [h.unique h']
  | denied h later =>
    cases later
    exact iff_of_true rfl ⟨_, rfl, .inl h⟩
  | @failed _ _ evs f h hf =>
    refine iff_of_false (by simp) ?_
    rintro ⟨evs', hevs, ⟨reply, haccepts, -⟩ | ⟨p, ⟨reply, haccepts, -⟩, -⟩⟩
    all_goals
      obtain rfl := List.head_eq_of_cons_eq hevs
      exact h reply haccepts

/-- A status is never a failure. -/
lemma ne_status (h : Sought t absent qs w r) (hread : ∀ q ∈ qs, ∀ p, OnlyMalformed (q.read p))
    (code : UInt8) : r ≠ .error (.readerStatus code) := by
  induction h with
  | absent => simp
  | @found q qs evs p h =>
    intro hr
    exact absurd (hread q List.mem_cons_self p _ hr) Bool.false_ne_true
  | denied _ _ ih => exact ih fun q' hq' => hread q' (List.mem_cons_of_mem _ hq')
  | failed h hf => exact fun hr => hf code (Except.error.inj hr)

/-- The last exchange decides: a status means "nothing there", a payload is read, whatever comes of
that, and anything else is a failure. -/
lemma exists_last (h : Sought t absent qs w r) (hqs : qs ≠ []) :
    ∃ evs, w.getLast? = some evs ∧ (Denies t evs → r = .ok absent) ∧
      ((∀ reply, ¬Accepts t evs reply) → ∃ f, r = .error f) ∧
      ∀ p, Supplies t evs p → ∃ q, qs[w.length - 1]? = some q ∧ r = q.read p := by
  induction h with
  | absent => exact absurd rfl hqs
  | @found q qs evs p h =>
    refine ⟨evs, rfl, fun hdenied => absurd h (hdenied.not_supplies p), fun hnone => ?_,
      fun p' h' => ⟨q, rfl, by rw [h.unique h']⟩⟩
    obtain ⟨reply, haccepts, -⟩ := h
    exact absurd haccepts (hnone reply)
  | @denied q qs evs w r h later ih =>
    by_cases hqs : qs = []
    · subst hqs
      cases later
      refine ⟨evs, rfl, fun _ => rfl, fun hnone => ?_, fun p h' => absurd h' (h.not_supplies p)⟩
      obtain ⟨reply, haccepts, -⟩ := h
      exact absurd haccepts (hnone reply)
    · obtain ⟨last, hlast, hdenied, hnone, hread⟩ := ih hqs
      obtain ⟨n, hn⟩ : ∃ n, w.length = n + 1 :=
        Nat.exists_eq_succ_of_ne_zero fun hw => by
          rw [List.length_eq_zero_iff.1 hw] at hlast
          cases hlast
      refine ⟨last, ?_, hdenied, hnone, fun p hp => ?_⟩
      · rw [List.getLast?_cons, hlast]
        rfl
      · obtain ⟨q', hq', hr⟩ := hread p hp
        refine ⟨q', ?_, hr⟩
        rw [hn, Nat.add_sub_cancel] at hq'
        rw [List.length_cons, hn, Nat.add_sub_cancel, List.getElem?_cons_succ, hq']
  | @failed q qs evs f h hf =>
    refine ⟨evs, rfl, ?_, fun _ => ⟨f, rfl⟩, ?_⟩
    · rintro ⟨reply, haccepts, -⟩
      exact absurd haccepts (h reply)
    · rintro p ⟨reply, haccepts, -⟩
      exact absurd haccepts (h reply)

end Sought

/-! ## The operations that look for tags -/

namespace TagList

/-- A reading that puts something in front yields no empty list. -/
lemma bind_cons_ne_nil (x : Except Fault α) (y : α → Except Fault (List β)) (g : α → β) :
    (x >>= fun a => y a >>= fun bs => pure (g a :: bs)) ≠ .ok [] := by
  cases x with
  | error f => exact nofun
  | ok a =>
    show (y a >>= fun bs => pure (g a :: bs)) ≠ .ok []
    cases y a <;> exact nofun

/-- If the number of tags is read first, then an empty list is read just if that is none. -/
lemma eq_nil_iff_of_count {f : UInt8 → Except Fault (List Uid)} (hzero : f 0 = .ok [])
    (hpos : ∀ n, n ≠ 0 → f n ≠ .ok []) (p : Bytes) :
    (Payload.byte p 0 >>= f) = .ok [] ↔ ∃ rest, p = 0 :: rest := by
  cases p with
  | nil => exact iff_of_false nofun nofun
  | cons n rest =>
    show f n = .ok [] ↔ _
    by_cases hn : n = 0
    · subst hn
      exact iff_of_true hzero ⟨rest, rfl⟩
    · exact iff_of_false (hpos n hn) fun ⟨_, h⟩ => hn (List.head_eq_of_cons_eq h)

lemma exists_toNat_eq_succ {n : UInt8} (hn : n ≠ 0) : ∃ m, n.toNat = m + 1 :=
  Nat.exists_eq_succ_of_ne_zero fun h => hn (UInt8.toNat_inj.1 h)

lemma decode_eq_nil_iff (p : Bytes) : decode p = .ok [] ↔ ∃ rest, p = 0 :: rest := by
  refine eq_nil_iff_of_count rfl (fun n hn => ?_) p
  obtain ⟨m, hm⟩ := exists_toNat_eq_succ hn
  rw [hm]
  exact bind_cons_ne_nil _ _ _

lemma decodeFixed_eq_nil_iff (p : Bytes) : decodeFixed p = .ok [] ↔ ∃ rest, p = 0 :: rest := by
  refine eq_nil_iff_of_count rfl (fun n hn => ?_) p
  obtain ⟨m, hm⟩ := exists_toNat_eq_succ hn
  rw [hm, List.range_succ_eq_map, List.mapM_cons]
  exact bind_cons_ne_nil _ _ _

end TagList

/-- The operations that look for tags. -/
inductive Search where
  | activateIdle
  | activateWakeup (uid : Uid)
  | wupA
  | reqA
  | showCards
  | reqB (family : UInt8)
  | select
  | getUid
  | readUid
  | inventory
  | picopassUid
  | cards

namespace Search

/-- The operation. -/
def operation : Search → Operation
  | activateIdle => .iso14443a .activateIdle
  | activateWakeup uid => .iso14443a (.activateWakeup uid)
  | wupA => .iso14443a .wupA
  | reqA => .iso14443a .reqA
  | showCards => .iso14443a .showCards
  | reqB family => .iso14443b (.reqB family)
  | select => .iso14443b .select
  | getUid => .iso14443b .getUid
  | readUid => .iso14443b .readUid
  | inventory => .iso15693 .inventory
  | picopassUid => .picopass .getUid
  | cards => .picopass .cards

/-- What it yields if there is nothing there. -/
def absent : Search → Finding
  | reqA => .flag false
  | showCards | inventory | cards => .uids []
  | _ => .nothing

/-- The operations whose reply may be a list of no tags. -/
def Lists : Search → Prop
  | showCards | inventory => True
  | _ => False

/-- How many exchanges it may take. -/
def exchanges : Search → Nat
  | readUid => 2
  | _ => 1

/-- An identifier behind its length. -/
def readUidOf (p : Bytes) : Except Fault Uid := do pure ⟨← Payload.prefixed p 0⟩

/-- What it asks, and how the replies are read. -/
def inquiries : Search → List Inquiry
  | activateIdle =>
    [⟨Iso14443a.Request.activateIdle.command, fun p => (Target.ofReport p).map .target⟩]
  | activateWakeup uid =>
    [⟨(Iso14443a.Request.activateWakeup uid).command, fun p => (Target.ofReport p).map .target⟩]
  | wupA =>
    [⟨Iso14443a.Request.wupA.command,
      fun p => (Payload.slice p 0 2 >>= Atqa.ofBytes).map .atqa⟩]
  | reqA => [⟨Iso14443a.Request.reqA.command, fun _ => .ok (.flag true)⟩]
  | showCards => [⟨Iso14443a.Request.listCards.command, fun p => (TagList.decode p).map .uids⟩]
  | reqB family =>
    [⟨(Iso14443b.Request.reqB family).command, fun p => (Atqb.ofBytes p).map .atqb⟩]
  | select =>
    [⟨Iso14443b.Request.select.command,
      fun p => (Payload.byte p 0).map fun chip => .number chip.toNat⟩]
  | getUid => [⟨Iso14443b.Request.uid.command, fun p => (readUidOf p).map .uid⟩]
  | readUid =>
    [⟨Iso14443b.Request.uid.command, fun p => (readUidOf p).map .uid⟩,
      ⟨(Iso14443b.Request.read 0 4).command,
        fun p => (Iso14443b.decodeBlocks 4 p).map fun bs => .uid ⟨bs⟩⟩]
  | inventory =>
    [⟨Iso15693.Request.inventory.command, fun p => (TagList.decodeFixed p).map .uids⟩]
  | picopassUid => [⟨Picopass.Request.selectUid.command, fun p => (readUidOf p).map .uid⟩]
  | cards =>
    [⟨Picopass.Request.selectUid.command, fun p => (readUidOf p).map fun uid => .uids [uid]⟩]

end Search

/-- A question that may be answered by a status, as the first one of a search. -/
lemma Talk.silent_exchangeOptional {absent : Finding} {c : Command}
    {next : Option Bytes → Talk Finding} {read : Bytes → Except Fault Finding} {qs : List Inquiry}
    (hsome : ∀ p, (next (some p)).silent = Dialogue.ofExcept (read p))
    (hnone : (next none).silent = Talk.seek absent qs) :
    (Talk.exchangeOptional c >>= next).silent = Talk.seek absent (⟨c, read⟩ :: qs) := by
  refine congrArg (Dialogue.ask _) (funext fun r => ?_)
  match r with
  | .ok p => exact hsome p
  | .error f =>
    cases f with
    | readerStatus code => exact hnone
    | _ => rfl

/-- A search with one question, of which the answer is decoded. -/
lemma Talk.silent_decoded (c : Command) (decode : Bytes → Except Fault α) (g : Option α → Finding) :
    (Talk.exchangeOptional c >>= fun p => Talk.decoded decode p >>= fun o => pure (g o)).silent =
      Talk.seek (g none) [⟨c, fun p => (decode p).map fun a => g (some a)⟩] := by
  refine Talk.silent_exchangeOptional (fun p => ?_) rfl
  simp only [Talk.decoded, bind_assoc]
  cases decode p <;> rfl

/-- A search with one question, which is answered by a list. -/
lemma Talk.silent_list (c : Command) (decode : Bytes → Except Fault (List Uid)) :
    ((do match ← Talk.exchangeOptional c with
      | some p => Dialogue.ofExcept (decode p)
      | none => pure []) >>= fun us => pure (Finding.uids us) : Talk Finding).silent =
      Talk.seek (.uids []) [⟨c, fun p => (decode p).map .uids⟩] := by
  rw [bind_assoc]
  refine Talk.silent_exchangeOptional (fun p => ?_) rfl
  dsimp only
  cases decode p <;> rfl

namespace Search

/-- Every one of these operations is a search. -/
lemma silent_talk (x : Search) (b : Iso14443b.Session) :
    (Prod.fst <$> x.operation.talk b).silent = Talk.seek x.absent x.inquiries := by
  cases x with
  | activateIdle | activateWakeup uid | wupA =>
    simp only [operation, Operation.talk, Iso14443aOperation.talk, Talk.findOption, Talk.find,
      Iso14443a.activateIdle, Iso14443a.activateWakeup, Iso14443a.wupA, map_eq_pure_bind,
      bind_assoc, pure_bind]
    exact Talk.silent_decoded _ _ _
  | reqB family | getUid =>
    simp only [operation, Operation.talk, Iso14443bOperation.talk, Talk.findOption, Talk.find,
      Iso14443b.reqB, Iso14443b.getUid, map_eq_pure_bind, bind_assoc, pure_bind]
    exact Talk.silent_decoded _ _ _
  | picopassUid | cards =>
    simp only [operation, Operation.talk, PicopassOperation.talk, Talk.findOption, Talk.find,
      Picopass.cards, Picopass.getUid, map_eq_pure_bind, bind_assoc, pure_bind]
    exact Talk.silent_decoded _ _ _
  | showCards =>
    simp only [operation, Operation.talk, Iso14443aOperation.talk, Talk.find, map_eq_pure_bind,
      bind_assoc, pure_bind]
    exact Talk.silent_list _ _
  | inventory =>
    simp only [operation, Operation.talk, Iso15693Operation.talk, Talk.find, map_eq_pure_bind,
      bind_assoc, pure_bind]
    exact Talk.silent_list _ _
  | reqA =>
    simp only [operation, Operation.talk, Iso14443aOperation.talk, Talk.find, Iso14443a.reqA,
      map_eq_pure_bind, bind_assoc, pure_bind]
    exact Talk.silent_exchangeOptional (fun p => rfl) rfl
  | select =>
    simp only [operation, Operation.talk, Iso14443bOperation.talk, Iso14443b.Session.select,
      map_eq_pure_bind, bind_assoc, pure_bind]
    refine Talk.silent_exchangeOptional (fun p => ?_) rfl
    simp only [Talk.decoded, bind_assoc]
    cases Payload.byte p 0 <;> rfl
  | readUid =>
    -- A status leads to the second question, which is an exchange of its own.
    simp only [operation, Operation.talk, Iso14443bOperation.talk, Talk.findOption, Talk.find,
      Iso14443b.readUid, Iso14443b.getUid, map_eq_pure_bind, bind_assoc, pure_bind]
    refine Talk.silent_exchangeOptional (fun p => ?_) ?_
    · simp only [Talk.decoded, bind_assoc, readUidOf]
      cases Payload.prefixed p 0 <;> rfl
    · refine congrArg (Dialogue.ask _) (funext fun r => ?_)
      match r with
      | .ok p =>
        dsimp only
        cases Iso14443b.decodeBlocks 4 p <;> rfl
      | .error f => cases f <;> rfl

/-! ## Nothing there -/

lemma length_inquiries (x : Search) : x.inquiries.length = x.exchanges := by
  cases x <;> rfl

/-- What a reply is read as fails for the form of its bytes only. -/
lemma onlyMalformed_read (x : Search) : ∀ q ∈ x.inquiries, ∀ p, OnlyMalformed (q.read p) := by
  have huid (p : Bytes) : OnlyMalformed (readUidOf p) :=
    (Payload.onlyMalformed_prefixed p 0).bind fun _ => .ok _
  cases x with
  | activateIdle | activateWakeup uid =>
    exact List.forall_mem_singleton.2 fun p => (Target.onlyMalformed_ofReport p).map _
  | wupA =>
    exact List.forall_mem_singleton.2 fun p =>
      ((Payload.onlyMalformed_slice p 0 2).bind Atqa.onlyMalformed_ofBytes).map _
  | reqA => exact List.forall_mem_singleton.2 fun p => .ok _
  | showCards => exact List.forall_mem_singleton.2 fun p => (TagList.onlyMalformed_decode p).map _
  | reqB family => exact List.forall_mem_singleton.2 fun p => (Atqb.onlyMalformed_ofBytes p).map _
  | select => exact List.forall_mem_singleton.2 fun p => (Payload.onlyMalformed_byte p 0).map _
  | getUid | picopassUid | cards => exact List.forall_mem_singleton.2 fun p => (huid p).map _
  | readUid =>
    refine List.forall_mem_cons.2 ⟨fun p => (huid p).map _, ?_⟩
    exact List.forall_mem_singleton.2 fun p => (Iso14443b.onlyMalformed_decodeBlocks 4 p).map _
  | inventory =>
    exact List.forall_mem_singleton.2 fun p => (TagList.onlyMalformed_decodeFixed p).map _

/-- Unless the reply is a list, no payload means that there is nothing there. -/
lemma read_ne_absent {x : Search} (hx : ¬x.Lists) :
    ∀ q ∈ x.inquiries, ∀ p, q.read p ≠ .ok x.absent := by
  have hmap {γ : Type} {g : γ → Finding} {y : Finding} (hg : ∀ a, g a ≠ y) (r : Except Fault γ) :
      r.map g ≠ .ok y := by
    cases r with
    | error f => exact nofun
    | ok a => exact fun h => hg a (Except.ok.inj h)
  cases x with
  | showCards | inventory => exact absurd trivial hx
  | reqA => exact List.forall_mem_singleton.2 fun p => by simp [absent]
  | readUid =>
    refine List.forall_mem_cons.2 ⟨fun p => hmap (by simp [absent]) _, ?_⟩
    exact List.forall_mem_singleton.2 fun p => hmap (by simp [absent]) _
  | cards => exact List.forall_mem_singleton.2 fun p => hmap (by simp [absent]) _
  | _ => exact List.forall_mem_singleton.2 fun p => hmap (by simp [absent]) _

/-- A list is empty just if its first byte says so. -/
lemma read_eq_absent_iff {x : Search} (hx : x.Lists) :
    ∃ q, x.inquiries = [q] ∧ ∀ p, q.read p = .ok x.absent ↔ ∃ rest, p = 0 :: rest := by
  have hmap (r : Except Fault (List Uid)) :
      r.map Finding.uids = .ok (Finding.uids []) ↔ r = .ok [] := by
    cases r <;> simp [Except.map]
  cases x with
  | showCards => exact ⟨_, rfl, fun p => (hmap _).trans (TagList.decode_eq_nil_iff p)⟩
  | inventory => exact ⟨_, rfl, fun p => (hmap _).trans (TagList.decodeFixed_eq_nil_iff p)⟩
  | _ => exact absurd hx id

/-- An operation yields what its questions come to. -/
lemma sought {e : Engine σ} (hl : e.link.Statusless) (x : Search) (b : Iso14443b.Session) (s : σ) :
    Sought e.trailer x.absent x.inquiries (e.spans (x.operation.talk b) s)
      (x.operation.perform e b s).1.result := by
  have hsilent := e.conduct_silent (Prod.fst <$> x.operation.talk b) s
  rw [silent_talk, map_eq_pure_bind, e.spans_map] at hsilent
  have hsought := e.sought_seek hl x.absent x.inquiries s
  rw [hsilent.1, hsilent.2, (e.conduct_map (x.operation.talk b) Prod.fst s).1] at hsought
  rwa [(x.operation.perform_spec e b s).1]

/-- **Operations that look for tags find nothing exactly when the reader says so.**  Whatever
happens on the way, an operation yields "nothing there" just if each of its exchanges has ended in a
reply with a status other than success, or if it has brought a list of no tags.  A status of the
reader is never a failure; and the last exchange decides: a status means "nothing there", a payload
is read, whatever comes of that, and if the last call has brought no acceptable frame at all, there
is a failure. -/
theorem absent_iff (e : Engine σ) (hl : e.link.Statusless) (x : Search) (b : Iso14443b.Session)
    (s : σ) :
    let r := (x.operation.perform e b s).1.result
    let w := e.spans (x.operation.talk b) s
    (x.operation.perform e.recorded b { inner := s }).1.state.events = w.flatten ∧
      (r = .ok x.absent ↔
        (w.length = x.exchanges ∧ ∀ evs ∈ w, Denies e.trailer evs) ∨
          (x.Lists ∧ ∃ evs rest, w = [evs] ∧ Supplies e.trailer evs (0 :: rest))) ∧
      (∀ code, r ≠ .error (.readerStatus code)) ∧
      ∃ evs, w.getLast? = some evs ∧ (Denies e.trailer evs → r = .ok x.absent) ∧
        ((∀ reply, ¬Accepts e.trailer evs reply) → ∃ f, r = .error f) ∧
        ∀ p, Supplies e.trailer evs p → ∃ q, x.inquiries[w.length - 1]? = some q ∧ r = q.read p := by
  intro r w
  have hsought : Sought e.trailer x.absent x.inquiries w r := x.sought hl b s
  have hne : x.inquiries ≠ [] := by
    cases x <;> exact List.cons_ne_nil _ _
  refine ⟨?_, ?_, hsought.ne_status x.onlyMalformed_read, hsought.exists_last hne⟩
  · rw [(x.operation.perform_spec e.recorded b _).2]
    exact e.events_conduct_eq (x.operation.talk b) s
  · by_cases hx : x.Lists
    · obtain ⟨q, hq, hread⟩ := read_eq_absent_iff hx
      have hone : x.exchanges = 1 := by rw [← x.length_inquiries, hq, List.length_singleton]
      rw [hq] at hsought
      rw [hsought.eq_absent_iff_of_single, hone]
      constructor
      · rintro ⟨evs, hw, hdenied | ⟨p, hp, hnil⟩⟩
        · rw [hw]
          exact .inl ⟨rfl, List.forall_mem_singleton.2 hdenied⟩
        · obtain ⟨rest, rfl⟩ := (hread p).1 hnil
          exact .inr ⟨hx, evs, rest, hw, hp⟩
      · rintro (⟨hlen, hall⟩ | ⟨-, evs, rest, hw, hp⟩)
        · obtain ⟨evs, hw⟩ := List.length_eq_one_iff.1 hlen
          rw [hw] at hall
          exact ⟨evs, hw, .inl (List.forall_mem_singleton.1 hall)⟩
        · exact ⟨evs, hw, .inr ⟨_, hp, (hread _).2 ⟨rest, rfl⟩⟩⟩
    · rw [hsought.eq_absent_iff (read_ne_absent hx), x.length_inquiries]
      exact ⟨.inl, fun h => h.resolve_right fun h' => hx h'.1⟩

/-- Nobody answers, and the reader says so twice. -/
theorem readUid_finds_nothing :
    let reply : Bytes := Frame.closed .standard [0x07, 0x00, 0x00, 0x00, 0x01]
    let e : Engine Channel := Channel.stream.engine .standard { retries := 0 }
    let c : Channel := { arrivals := [.bytes reply, .bytes reply] }
    (readUid.operation.perform e {} c).1.result = .ok .nothing ∧
      (e.spans (readUid.operation.talk {}) c).length = 2 ∧
      ∀ evs ∈ e.spans (readUid.operation.talk {}) c, Denies .standard evs := by
  intro reply e c
  have hresult : (readUid.operation.perform e {} c).1.result = .ok .nothing := by cbv
  obtain ⟨-, hiff, -⟩ := absent_iff e Channel.stream.statusless readUid {} c
  exact ⟨hresult, (hiff.1 hresult).resolve_right fun h => h.1⟩

end Search

end TagReader
