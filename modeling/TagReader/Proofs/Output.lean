/-
# What has been written

A stream may take a frame in parts, and fail between two of them.  This file says what it has been
given after a run of exchanges.

* For every sending it has a `Piece`: the front of the frame that was to be sent, which falls short
  of it only where the sending has ended in a transient fault (`Written`).  No other call of a link
  writes, so a run keeps this (`ByteStream.written_conduct`).
* As a broken frame is a transient fault, the exchange sends its frame once more, directly behind
  the piece, unless its attempts are used up (`Engine.sendings_attempts`).
* As long as nothing stands behind a broken frame (`Tidy`) the output is `Orderly`: whole frames,
  and at most one at the end that is not.  The first frame of an orderly output can be opened
  (`Orderly.exists_body`).

The main result is `ByteStream.conduct_writes`, and `ByteStream.conduct_writes_torn` is a run whose
output is not orderly.
-/
import Mathlib
import TagReader.Proofs.Exchanges
import TagReader.Proofs.Framing
import TagReader.Proofs.Metering
import TagReader.Stream.Channel

namespace TagReader

variable {σ α : Type}

/-! ## Sendings -/

/-- The frame and the result, if a call is a sending. -/
def Event.sending? : Event → Option (Bytes × Except Fault Unit)
  | sent frame r => some (frame, r)
  | received _ _ => none
  | discarded _ => none

/-- The frames that the link was given to send, each with what came of it. -/
def Recorded.sendings (t : Recorded σ) : List (Bytes × Except Fault Unit) :=
  t.events.filterMap Event.sending?

lemma Recorded.frames_eq (t : Recorded σ) : t.frames = t.sendings.map Prod.fst := by
  unfold frames sendings
  rw [List.map_filterMap]
  refine List.filterMap_congr fun ev _ => ?_
  cases ev <;> rfl

lemma Recorded.sendings_append {t : Recorded σ} {s : Recorded σ} {evs : List Event}
    (h : t.events = s.events ++ evs) :
    t.sendings = s.sendings ++ evs.filterMap Event.sending? := by
  rw [sendings, h, List.filterMap_append, sendings]

/-- Other calls are no sendings. -/
lemma Recorded.sendings_concat {t : Recorded σ} {s : Recorded σ} {ev : Event}
    (h : t.events = s.events ++ [ev]) (hev : ev.sending? = none) : t.sendings = s.sendings := by
  rw [sendings_append h, List.filterMap_cons_none hev, List.filterMap_nil, List.append_nil]

/-! ## Every sending leaves a piece -/

/-- For every sending the stream has taken a piece of its frame, and it has taken nothing else. -/
structure Written (t : Recorded (Metered σ)) (pieces : List Bytes) : Prop where
  taken : t.inner.taken = pieces.flatten
  each : List.Forall₂ (fun x piece => Piece x.1 x.2 piece) t.sendings pieces

namespace ByteStream

variable (S : ByteStream σ) (t : Trailer) (c : Settings)

/-- A stream that nothing has been written to, with a meter and a recorder. -/
def start (s : σ) : Recorded (Metered σ) := { inner := { inner := s } }

/-- The calls of a link keep it, as long as the recorder lets all of them through. -/
lemma written_conduct (d : Talk α) (s : σ) :
    ∃ pieces, Written ((S.metered.engine t c).recorded.conduct d (start s)).state pieces := by
  let P (r : Recorded (Metered σ)) : Prop :=
    r.sendFaults = [] ∧ r.discardFaults = [] ∧ ∃ pieces, Written r pieces
  have hkeep : P ((S.metered.engine t c).recorded.conduct d (start s)).state := by
    refine ((Engine.keeps ?_ ?_ ?_).conduct d ⟨rfl, rfl, rfl, [], rfl, .nil⟩).2.2
    · rintro frame ⟨m, events, _, _⟩ ⟨rfl, rfl, pieces, htaken, heach⟩
      obtain ⟨⟨piece, hpiece, hfront⟩, -⟩ := S.taken_send frame m
      refine ⟨rfl, rfl, pieces ++ [piece], ?_, ?_⟩
      · rw [List.flatten_append, ← htaken, List.flatten_singleton]
        exact hpiece
      · rw [Recorded.sendings_append rfl]
        exact List.rel_append heach (.cons hfront .nil)
    · rintro ms ⟨m, events, _, _⟩ ⟨rfl, rfl, pieces, htaken, heach⟩
      refine ⟨rfl, rfl, pieces, (S.reads_receive ms m).1.trans htaken, ?_⟩
      rw [Recorded.sendings_concat rfl rfl]
      exact heach
    · rintro ⟨m, events, _, _⟩ ⟨rfl, rfl, pieces, htaken, heach⟩
      refine ⟨rfl, rfl, pieces, (S.discards_discard m).1.trans htaken, ?_⟩
      rw [Recorded.sendings_concat rfl rfl]
      exact heach
  exact hkeep.2.2

end ByteStream

/-! ## Orderly output -/

/-- Nothing is written behind a frame that is broken off. -/
inductive Tidy : List Bytes → List Bytes → Prop where
  | nil : Tidy [] []
  | whole {frame : Bytes} {frames pieces : List Bytes} (later : Tidy frames pieces) :
    Tidy (frame :: frames) (frame :: pieces)
  | missing {frame : Bytes} {frames pieces : List Bytes} (later : Tidy frames pieces) :
    Tidy (frame :: frames) ([] :: pieces)
  | broken {frame piece : Bytes} {frames pieces : List Bytes} (front : piece <+: frame)
    (nothing : pieces.flatten = []) : Tidy (frame :: frames) (piece :: pieces)

/-- Whole frames, followed by at most one that is broken off. -/
def Orderly (frame : Bytes → Prop) (out : Bytes) : Prop :=
  ∃ (whole : List Bytes) (rest : Bytes), (∀ f ∈ whole, frame f) ∧ out = whole.flatten ++ rest ∧
    (rest = [] ∨ ∃ f, frame f ∧ rest <+: f)

lemma Orderly.of_tidy {frames pieces : List Bytes} (h : Tidy frames pieces) :
    Orderly (· ∈ frames) pieces.flatten := by
  induction h with
  | nil => exact ⟨[], [], fun f hf => absurd hf List.not_mem_nil, rfl, .inl rfl⟩
  | @whole frame frames pieces _ ih =>
    obtain ⟨whole, rest, hwhole, hout, hrest⟩ := ih
    refine ⟨frame :: whole, rest, ?_, ?_, ?_⟩
    · intro f hf
      rcases List.mem_cons.1 hf with rfl | hf
      · exact List.mem_cons_self
      · exact List.mem_cons_of_mem _ (hwhole f hf)
    · rw [List.flatten_cons, hout, List.flatten_cons, List.append_assoc]
    · exact hrest.imp_right fun ⟨f, hf, hfront⟩ => ⟨f, List.mem_cons_of_mem _ hf, hfront⟩
  | @missing frame frames pieces _ ih =>
    obtain ⟨whole, rest, hwhole, hout, hrest⟩ := ih
    refine ⟨whole, rest, fun f hf => List.mem_cons_of_mem _ (hwhole f hf), ?_, ?_⟩
    · rw [List.flatten_cons, hout, List.nil_append]
    · exact hrest.imp_right fun ⟨f, hf, hfront⟩ => ⟨f, List.mem_cons_of_mem _ hf, hfront⟩
  | @broken frame piece frames pieces front nothing =>
    refine ⟨[], piece, fun f hf => absurd hf List.not_mem_nil, ?_,
      .inr ⟨frame, List.mem_cons_self, front⟩⟩
    rw [List.flatten_cons, nothing, List.append_nil, List.flatten_nil, List.nil_append]

/-- Of an orderly output the reader can open the first frame, once it is there. -/
lemma Orderly.exists_body {t : Trailer} {out : Bytes}
    (h : Orderly (fun f => ∃ body, Frame.encode t body = .ok f) out) (hne : out ≠ [])
    (hlen : Frame.declared out ≤ out.length) :
    ∃ body, Frame.encode t body = .ok (out.take (Frame.declared out)) := by
  obtain ⟨whole, rest, hwhole, rfl, hrest⟩ := h
  cases whole with
  | cons f whole =>
    obtain ⟨body, hbody⟩ := hwhole f List.mem_cons_self
    obtain ⟨hf, hcount⟩ := Frame.declared_of_encode hbody
    refine ⟨body, ?_⟩
    rw [List.flatten_cons, List.append_assoc, Frame.declared_append hf, hcount, List.take_left,
      hbody]
  | nil =>
    rw [List.flatten_nil, List.nil_append] at hne hlen ⊢
    obtain ⟨f, ⟨body, hbody⟩, tail, rfl⟩ := hrest.resolve_left hne
    obtain ⟨hf, hcount⟩ := Frame.declared_of_encode hbody
    -- As many bytes are there as are announced, so that the last frame is whole, too.
    rw [Frame.declared_append hne, List.length_append] at hcount
    have htail : tail = [] := List.length_eq_zero_iff.1 (by omega)
    refine ⟨body, ?_⟩
    rw [hcount, htail, List.length_nil, Nat.add_zero, List.take_length, hbody, htail,
      List.append_nil]

/-- As long as all sendings but the last one go through, nothing stands behind a broken frame. -/
lemma Tidy.of_sendings {xs : List (Bytes × Except Fault Unit)} {pieces : List Bytes}
    (h : List.Forall₂ (fun x piece => Piece x.1 x.2 piece) xs pieces)
    (hok : ∀ x ∈ xs.dropLast, x.2 = .ok ()) : Tidy (xs.map Prod.fst) pieces := by
  induction h with
  | nil => exact .nil
  | @cons x piece xs pieces hx hxs ih =>
    cases xs with
    | nil =>
      cases hxs
      exact .broken hx.front rfl
    | cons y xs =>
      rw [List.dropLast_cons_cons] at hok
      have hwhole : piece = x.1 := by
        by_contra hne
        obtain ⟨f, hf, -⟩ := hx.missing hne
        rw [hok x List.mem_cons_self] at hf
        cases hf
      subst hwhole
      exact .whole (ih fun z hz => hok z (List.mem_cons_of_mem _ hz))

/-! ## What follows a broken frame -/

/-- What came of sending the frame, in the course of an attempt. -/
def Course.sending : Course → Except Fault Unit
  | unsent f => .error f
  | unanswered _ => .ok ()
  | answered _ => .ok ()

lemma Attempt.sendings_events {t : Trailer} (frame : Bytes) (ms : Nat) (a : Attempt t) :
    (a.events frame ms).filterMap Event.sending? = [(frame, a.course.sending)] := by
  have hdropped : (a.dropped.toList.map Event.discarded).filterMap Event.sending? = [] := by
    cases a.dropped <;> rfl
  rw [Attempt.events, List.filterMap_append, hdropped, List.append_nil]
  cases a.course <;> rfl

/-- A frame that cannot be sent is the fault of its attempt. -/
lemma Attempt.outcome_of_sending {t : Trailer} {a : Attempt t} {f : Fault}
    (h : a.course.sending = .error f) : a.outcome = .error f := by
  rw [outcome]
  cases hc : a.course with
  | unsent g =>
    rw [hc] at h
    obtain rfl := Except.error.inj h
    rfl
  | unanswered g =>
    rw [hc] at h
    cases h
  | answered raw =>
    rw [hc] at h
    cases h

/-- An exchange goes on after a frame that is broken off: the last of its sendings has ended in a
transient fault only if there have been as many as the bound allows. -/
theorem Engine.sendings_attempts (e : Engine σ) (q : Command) (frame : Bytes) (bound left : Nat)
    (r : Recorded σ) :
    ∃ (before : List (Except Fault Unit)) (last : Except Fault Unit),
      (e.recorded.attempts q frame bound left r).state.sendings =
        r.sendings ++ (before ++ [last]).map (frame, ·) ∧
      before.length ≤ left ∧ (endsTransient last = true → before.length = left) := by
  obtain ⟨k, -, hev⟩ := e.attempts_recorded q frame bound left r
  refine ⟨k.earlier.map fun a => a.course.sending, k.last.course.sending, ?_, ?_, ?_⟩
  · rw [Recorded.sendings_append hev, Attempts.events, List.filterMap_flatMap]
    simp only [Attempt.sendings_events]
    rw [← List.map_eq_flatMap, List.map_append, List.map_append, List.map_map]
    rfl
  · rw [List.length_map]
    exact k.length_le
  · intro hlast
    rw [List.length_map]
    refine k.length_eq ?_
    rcases hf : k.last.course.sending with f | _
    · rw [hf] at hlast
      rw [Attempt.outcome_of_sending hf]
      exact hlast
    · rw [hf] at hlast
      cases hlast

namespace ByteStream

/-- **What is written in a run of exchanges.**  Over any stream, and without a change to what it
sees, a run of exchanges gives the stream the frames of its exchanges, one after the other, each of
them as far as the stream takes it; and a frame falls short only where sending it has ended in a
transient fault.  The output is orderly as long as nothing follows a frame that falls short, and so
as long as all sendings but the last one go through. -/
theorem conduct_writes (S : ByteStream σ) (t : Trailer) (c : Settings) (d : Talk α) (s : σ) :
    let o := (S.metered.engine t c).recorded.conduct d (start s)
    (o.result = ((S.engine t c).conduct d s).result ∧
      o.state.inner.inner = ((S.engine t c).conduct d s).state) ∧
    Transmits t c.retries ((S.engine t c).exchanges d s) o.state.frames ∧
    ∃ pieces, Written o.state pieces ∧
      (Tidy o.state.frames pieces → Orderly (· ∈ o.state.frames) o.state.inner.taken) ∧
      ((∀ x ∈ o.state.sendings.dropLast, x.2 = .ok ()) → Tidy o.state.frames pieces) := by
  intro o
  have hmeter := S.metered_engine_corresponds t c
  have hrec := (S.metered.engine t c).recorded_corresponds
  have hstart : Recorded.Shows (start s) { inner := s } := ⟨rfl, rfl, rfl⟩
  obtain ⟨hresult, hinner, -⟩ := hrec.conduct d hstart
  obtain ⟨hresult', hinner'⟩ := hmeter.conduct d (rfl : ({ inner := s } : Metered σ).inner = s)
  obtain ⟨frames, hframes, hsent⟩ := (S.metered.engine t c).frames_conduct d (start s)
  rw [hrec.exchanges d hstart,
    hmeter.exchanges d (rfl : ({ inner := s } : Metered σ).inner = s)] at hsent
  obtain ⟨pieces, hwritten⟩ := S.written_conduct t c d s
  refine ⟨⟨hresult.trans hresult', ?_⟩, ?_, pieces, hwritten, fun htidy => ?_, fun hok => ?_⟩
  · exact (congrArg Metered.inner hinner).trans hinner'
  · show Transmits t c.retries _ o.state.frames
    rw [hframes]
    exact hsent
  · rw [hwritten.taken]
    exact .of_tidy htidy
  · rw [Recorded.frames_eq]
    exact .of_sendings hwritten.each hok

/-- A stream that takes two bytes at a time, and is busy when it is asked for the second time. -/
def busy : Channel :=
  { writeChunk := 2
    writeFaults := [none, some ⟨.timedOut, "busy"⟩] }

/-- A frame is broken off after two bytes, and the next attempt sends it once more right behind
them.  A reader that takes the first five bytes for a frame cannot open it. -/
theorem conduct_writes_torn :
    let o := (Channel.stream.metered.engine .standard { retries := 1 }).recorded.conduct
      (Talk.exchange ⟨0x01, 0x02, []⟩) (start busy)
    o.state.inner.taken = [0x05, 0x01] ++ [0x05, 0x01, 0x02, 0xBB, 0xC5] ∧
      ¬Orderly (fun f => ∃ body, Frame.encode .standard body = .ok f) o.state.inner.taken := by
  intro o
  let e := Channel.stream.metered.engine .standard { retries := 1 }
  let q : Command := ⟨0x01, 0x02, []⟩
  let frame : Bytes := [0x05, 0x01, 0x02, 0xBB, 0xC5]
  have hframe : Frame.encode e.trailer q.body = .ok frame := by decide +kernel
  have hexchange : e.exchangeWithin 1 q = e.attempts q frame 1 1 :=
    Engine.exchangeWithin_of_encode hframe
  have hinner : o.state.inner = (e.attempts q frame 1 1 { inner := busy }).state := by
    obtain ⟨-, hinner, -⟩ := e.recorded_corresponds.conduct (Talk.exchange q)
      (⟨rfl, rfl, rfl⟩ : Recorded.Shows (start busy) { inner := busy })
    rw [e.conduct_exchange, Engine.exchange] at hinner
    rw [← hexchange]
    exact hinner
  -- The first attempt breaks off, and the second one goes through.
  have htransient : endsTransient (e.attempt frame { inner := busy }).result = true := by cbv
  have htwice := (Engine.attempts_repeated q 1 0 htransient).2.trans (Engine.attempts_zero q 1).2
  have htaken : o.state.inner.taken = [0x05, 0x01] ++ frame := by
    rw [hinner, htwice]
    cbv
  refine ⟨htaken, fun horderly => ?_⟩
  rw [htaken] at horderly
  obtain ⟨body, hbody⟩ := horderly.exists_body (by decide) (by decide)
  have hopen := Frame.openFrame_eq_ok_iff.2 ⟨body, Nat.zero_le _, hbody, rfl⟩
  have hclosed : (Frame.openFrame .standard 1 [0x05, 0x01, 0x05, 0x01, 0x02]).isOk = false := by
    decide +kernel
  cases hclosed.symm.trans (congrArg Except.isOk hopen)

end ByteStream

end TagReader
