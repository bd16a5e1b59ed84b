/-
# Peers of a stream

Somebody sits at the other end of a byte stream and answers the frames that are written to it.
A `Peer` says how: what it sends for a complete frame, and in which situations a read may end
without bringing anything.  How the bytes are cut into reads and writes, and how often a call is
interrupted, is left open: `Peer.Reads` and `Peer.Writes` list all that one call may do, and
`ByteStream.Faces` says that every call of a stream does one of these things.

The loops of `TagReader.Stream.Basic` are described here by what they do to the peer:

* reading a frame takes the bytes of a frame, or fewer, and then the peer is silent;
* dropping the input takes bytes until the peer is silent;
* sending a frame hands the peer exactly that frame, or nothing if a write fails.
-/
import Mathlib.Tactic.Common
import TagReader.Frame
import TagReader.Stream.Basic

namespace TagReader

variable {σ ω : Type}

/-! ## Peers -/

/-- The other end of a stream, with a memory of type `ω`. -/
structure Peer (ω : Type) where
  /-- What is sent for a frame, and what is remembered afterwards. -/
  answer : ω → Bytes → Bytes × ω
  /-- The ways in which a read may end without bringing anything, while certain bytes have been
  sent and not been read. -/
  silence : ω → Bytes → Except IoFault Bytes → Prop

/-- The other end of a stream at some moment. -/
structure View (ω : Type) where
  /-- What the peer remembers. -/
  memory : ω
  /-- What the peer has sent and nobody has read. -/
  unread : Bytes := []
  /-- The beginning of a frame that has not been completed. -/
  held : Bytes := []

namespace View

/-- The view before some bytes were read. -/
def putBack (bs : Bytes) (v : View ω) : View ω := { v with unread := bs ++ v.unread }

@[simp] lemma memory_putBack (bs : Bytes) (v : View ω) : (v.putBack bs).memory = v.memory := rfl

@[simp] lemma held_putBack (bs : Bytes) (v : View ω) : (v.putBack bs).held = v.held := rfl

@[simp] lemma unread_putBack (bs : Bytes) (v : View ω) :
    (v.putBack bs).unread = bs ++ v.unread := rfl

@[simp] lemma putBack_nil (v : View ω) : v.putBack [] = v := rfl

lemma putBack_putBack (bs cs : Bytes) (v : View ω) :
    (v.putBack cs).putBack bs = v.putBack (bs ++ cs) := by
  simp [putBack]

end View

/-- The fault to which a read leads that brings nothing. -/
def IoFault.endFault : Except IoFault Bytes → Fault
  | .ok _ => .communication "connection closed"
  | .error e => e.toFault

lemma IoFault.isTransient_toFault (e : IoFault) : e.toFault.isTransient = true := by
  unfold toFault
  cases e.kind <;> rfl

lemma IoFault.isTransient_endFault (r : Except IoFault Bytes) :
    (IoFault.endFault r).isTransient = true := by
  cases r with
  | ok bs => rfl
  | error e => exact e.isTransient_toFault

namespace Frame

/-- The number of bytes that a receiver takes for a frame, by the first one of them. -/
def extent (frame : Bytes) : Nat := max 1 (declared frame)

lemma one_le_extent (frame : Bytes) : 1 ≤ extent frame := Nat.le_max_left _ _

lemma declared_append {bs : Bytes} (h : bs ≠ []) (cs : Bytes) :
    declared (bs ++ cs) = declared bs := by
  cases bs with
  | nil => exact absurd rfl h
  | cons b bs => rfl

lemma extent_append {bs : Bytes} (h : bs ≠ []) (cs : Bytes) : extent (bs ++ cs) = extent bs :=
  congrArg (max 1) (declared_append h cs)

lemma ne_nil_of_length_eq_extent {frame : Bytes} (h : frame.length = extent frame) :
    frame ≠ [] := by
  rintro rfl
  exact absurd h (by decide)

end Frame

namespace Peer

variable (p : Peer ω)

/-- The peer receives a frame and answers it. -/
def receives (frame : Bytes) (v : View ω) : View ω :=
  ⟨(p.answer v.memory frame).2, v.unread ++ (p.answer v.memory frame).1, []⟩

/-- The peer is silent, so that a read that brings nothing leads to a certain fault. -/
def Stops (v : View ω) (f : Fault) : Prop :=
  ∃ r, p.silence v.memory v.unread r ∧ f = IoFault.endFault r

/-- All that one read may do. -/
inductive Reads : View ω → Except IoFault Bytes → View ω → Prop
  /-- It takes some bytes. -/
  | bytes {v : View ω} {bs : Bytes} (h : bs ≠ []) : Reads (v.putBack bs) (.ok bs) v
  /-- It is interrupted. -/
  | interrupted {v : View ω} {e : IoFault} (h : e.kind = .interrupted) : Reads v (.error e) v
  /-- It brings nothing. -/
  | silent {v : View ω} {r : Except IoFault Bytes} (h : p.silence v.memory v.unread r)
      (hr : IoFault.goesOn r = false) : Reads v r v

/-- All that one write of some bytes may do.  What a peer makes of bytes that go beyond the end
of a frame is left open. -/
inductive Writes (bs : Bytes) : View ω → Except IoFault Nat → View ω → Prop
  /-- Some bytes are taken, and the frame is not complete yet. -/
  | part {v : View ω} {n : Nat} (h : 0 < n)
      (hlt : (v.held ++ bs.take n).length < Frame.declared (v.held ++ bs.take n)) :
      Writes bs v (.ok n) { v with held := v.held ++ bs.take n }
  /-- Some bytes are taken, and they complete a frame. -/
  | whole {v : View ω} {n : Nat} (h : 0 < n)
      (heq : (v.held ++ bs.take n).length = Frame.declared (v.held ++ bs.take n)) :
      Writes bs v (.ok n) (p.receives (v.held ++ bs.take n) v)
  /-- Some bytes are taken, and they go beyond the end of a frame. -/
  | beyond {v v' : View ω} {n : Nat} (h : 0 < n)
      (hgt : Frame.declared (v.held ++ bs.take n) < (v.held ++ bs.take n).length) :
      Writes bs v (.ok n) v'
  /-- The write is interrupted. -/
  | interrupted {v : View ω} {e : IoFault} (h : e.kind = .interrupted) : Writes bs v (.error e) v
  /-- The write fails, and the peer forgets the frame that it was about to receive. -/
  | failed {v : View ω} {e : IoFault} (h : e.kind ≠ .interrupted) :
      Writes bs v (.error e) { v with held := [] }

variable {p} {v v' : View ω}

lemma Reads.of_ok {bs : Bytes} (h : p.Reads v (.ok bs) v') (hbs : bs ≠ []) :
    v = v'.putBack bs := by
  cases h with
  | bytes _ => rfl
  | silent _ hr =>
    simp only [IoFault.goesOn, Bool.not_eq_false', List.isEmpty_iff] at hr
    exact absurd hr hbs

lemma Reads.of_interrupted {e : IoFault} (h : p.Reads v (.error e) v')
    (he : e.kind = .interrupted) : v = v' := by
  cases h with
  | interrupted _ => rfl
  | silent _ hr => simp [IoFault.goesOn, he] at hr

lemma Reads.of_end {r : Except IoFault Bytes} (h : p.Reads v r v') (hr : IoFault.goesOn r = false) :
    v = v' ∧ p.Stops v' (IoFault.endFault r) := by
  cases h with
  | bytes hbs =>
    simp only [IoFault.goesOn, Bool.not_eq_false', List.isEmpty_iff] at hr
    exact absurd hr hbs
  | interrupted he => simp [IoFault.goesOn, he] at hr
  | silent hs _ => exact ⟨rfl, r, hs, rfl⟩

/-- A write of the rest of a frame takes a part of it, or all of it. -/
lemma Writes.of_ok {bs frame : Bytes} {n : Nat} (h : p.Writes bs v (.ok n) v')
    (hbs : bs ≠ []) (hheld : v.held ++ bs = frame) (hframe : Frame.declared frame = frame.length) :
    0 < n ∧ (n < bs.length → v' = { v with held := v.held ++ bs.take n }) ∧
      (bs.length ≤ n → v' = p.receives frame v) := by
  have hn : 0 < n := by cases h <;> assumption
  have hne : v.held ++ bs.take n ≠ [] := by
    simp [hbs, Nat.pos_iff_ne_zero.1 hn]
  -- What the peer has got by now begins like the frame, so it expects that many bytes.
  have hdecl : Frame.declared (v.held ++ bs.take n) = frame.length := by
    rw [← hframe, ← hheld, ← Frame.declared_append hne (bs.drop n), List.append_assoc,
      List.take_append_drop]
  have hlen : (v.held ++ bs.take n).length = v.held.length + min n bs.length := by simp
  have htotal : v.held.length + bs.length = frame.length := by simp [← hheld]
  refine ⟨hn, fun hlt => ?_, fun hle => ?_⟩
  · cases h with
    | part _ _ => rfl
    | whole _ heq => omega
    | beyond _ hgt => omega
  · have hall : v.held ++ bs.take n = frame := by rw [List.take_of_length_le hle, hheld]
    cases h with
    | part _ hlt => omega
    | whole _ _ => rw [hall]
    | beyond _ hgt => omega

lemma Writes.of_interrupted {bs : Bytes} {e : IoFault} (h : p.Writes bs v (.error e) v')
    (he : e.kind = .interrupted) : v = v' := by
  cases h with
  | interrupted _ => rfl
  | failed hne => exact absurd he hne

lemma Writes.of_failed {bs : Bytes} {e : IoFault} (h : p.Writes bs v (.error e) v')
    (he : e.kind ≠ .interrupted) : v' = { v with held := [] } := by
  cases h with
  | interrupted h => exact absurd h he
  | failed _ => rfl

end Peer

/-- The calls of a stream do what they may do with a peer at the other end. -/
structure ByteStream.Faces (S : ByteStream σ) (p : Peer ω) (view : σ → View ω) : Prop where
  read : ∀ {n : Nat} (s : σ), 0 < n → p.Reads (view s) (S.read n s).1 (view (S.read n s).2)
  write : ∀ {bs : Bytes} (s : σ), bs ≠ [] →
    p.Writes bs (view s) (S.write bs s).1 (view (S.write bs s).2)
  flush : ∀ s, view (S.flush s).2 = view s
  setTimeout : ∀ ms s, (S.setTimeout ms s).1 = .ok () ∧ view (S.setTimeout ms s).2 = view s

/-! ## Reading -/

/-- Without time nothing is read. -/
lemma ByteStream.receive_zero (S : ByteStream σ) (s : σ) :
    (S.receive 0 s).result = .error .timeout ∧ (S.receive 0 s).state = s := by
  have hread : S.readFull 0 1 s = (.error .timeout, s) := by
    unfold ByteStream.readFull
    rfl
  unfold ByteStream.receive
  rw [hread]
  exact ⟨rfl, rfl⟩

lemma ByteStream.writeAll_nil (S : ByteStream σ) (s : σ) : S.writeAll [] s = (.ok (), s) := by
  unfold ByteStream.writeAll
  exact if_pos rfl

namespace ByteStream.Faces

variable {S : ByteStream σ} {p : Peer ω} {view : σ → View ω} (h : S.Faces p view)
include h

lemma setTimeout_eq (ms : Nat) (s : σ) {r : Except IoFault Unit} {s' : σ}
    (hs : S.setTimeout ms s = (r, s')) : r = .ok () ∧ view s' = view s := by
  have hset := h.setTimeout ms s
  rwa [hs] at hset

lemma reads {n : Nat} {s s' : σ} {r : Except IoFault Bytes} (hn : n ≠ 0)
    (hs : S.read n s = (r, s')) : p.Reads (view s) r (view s') := by
  have hread := h.read s (Nat.pos_of_ne_zero hn)
  rwa [hs] at hread

lemma writes {bs : Bytes} {s s' : σ} {r : Except IoFault Nat} (hbs : bs ≠ [])
    (hs : S.write bs s = (r, s')) : p.Writes bs (view s) r (view s') := by
  have hwrite := h.write s hbs
  rwa [hs] at hwrite

/-- Reading `room` bytes takes that many, or fewer until the peer is silent. -/
lemma readFull_spec {ms : Nat} (hms : 0 < ms) (room : Nat) (s : σ) :
    ∃ taken, view s = (view (S.readFull ms room s).2).putBack taken ∧
      match (S.readFull ms room s).1 with
      | .ok bs => bs = taken ∧ taken.length = room
      | .error f => taken.length < room ∧ p.Stops (view (S.readFull ms room s).2) f := by
  -- The cases are those of the loop: nothing left to read, no time, the call that sets the
  -- timeout fails, the end of the stream, some bytes and then the rest of them or a fault, an
  -- interruption, and any other failure.
  fun_induction S.readFull ms room s with
  | case1 s => exact ⟨[], rfl, rfl, rfl⟩
  | case2 room s _ hzero => exact absurd hzero (Nat.pos_iff_ne_zero.1 hms)
  | case3 room s _ _ e s₁ hset => cases (h.setTimeout_eq ms s hset).1
  | case4 room s hroom _ _ s₁ hset s₂ hread =>
    obtain ⟨heq, hstop⟩ := (h.reads hroom hread).of_end rfl
    refine ⟨[], ?_, Nat.pos_of_ne_zero hroom, hstop⟩
    rw [← (h.setTimeout_eq ms s hset).2, heq]
    rfl
  | case5 room s hroom _ _ s₁ hset b bs s₂ hread rest s₃ hrest ih =>
    have hlen : (b :: bs).length ≤ room := S.length_read (s := s₁) (by rw [hread])
    rw [hrest] at ih
    obtain ⟨taken, hview, rfl, htaken⟩ := ih
    refine ⟨b :: bs ++ rest, ?_, rfl, ?_⟩
    · rw [← (h.setTimeout_eq ms s hset).2, (h.reads hroom hread).of_ok (List.cons_ne_nil _ _),
        hview, View.putBack_putBack]
    · rw [List.length_append, htaken]
      omega
  | case6 room s hroom _ _ s₁ hset b bs s₂ hread f s₃ hrest ih =>
    rw [hrest] at ih
    obtain ⟨taken, hview, htaken, hstop⟩ := ih
    refine ⟨b :: bs ++ taken, ?_, ?_, hstop⟩
    · rw [← (h.setTimeout_eq ms s hset).2, (h.reads hroom hread).of_ok (List.cons_ne_nil _ _),
        hview, View.putBack_putBack]
    · rw [List.length_append]
      omega
  | case7 room s hroom _ _ s₁ hset e s₂ hread he ih =>
    rwa [← (h.setTimeout_eq ms s hset).2, (h.reads hroom hread).of_interrupted he]
  | case8 room s hroom _ _ s₁ hset e s₂ hread he =>
    obtain ⟨heq, hstop⟩ := (h.reads hroom hread).of_end (by simpa [IoFault.goesOn] using he)
    refine ⟨[], ?_, Nat.pos_of_ne_zero hroom, hstop⟩
    rw [← (h.setTimeout_eq ms s hset).2, heq]
    rfl

/-- Receiving takes a frame, or the beginning of one until the peer is silent. -/
lemma receive_spec {ms : Nat} (hms : 0 < ms) (s : σ) :
    ∃ taken, view s = (view (S.receive ms s).state).putBack taken ∧
      match (S.receive ms s).result with
      | .ok frame => frame = taken ∧ taken.length = Frame.extent taken
      | .error f =>
        taken.length < Frame.extent taken ∧ p.Stops (view (S.receive ms s).state) f := by
  obtain ⟨first, hfirst, hone⟩ := h.readFull_spec hms 1 s
  unfold receive
  rcases hr : S.readFull ms 1 s with ⟨_ | bs, s₁⟩
  · rw [hr] at hfirst hone
    obtain ⟨hlt, hstop⟩ := hone
    exact ⟨first, hfirst, Nat.lt_of_lt_of_le hlt (Frame.one_le_extent _), hstop⟩
  · rw [hr] at hfirst hone
    obtain ⟨rfl, hlen⟩ := hone
    obtain ⟨b, rfl⟩ := List.length_eq_one_iff.1 hlen
    -- The first byte says how many more there are to be.
    obtain ⟨more, hmore, hrest⟩ := h.readFull_spec hms (([b].headD 0).toNat - 1) s₁
    have hextent : Frame.extent ([b] ++ more) = 1 + (([b].headD 0).toNat - 1) := by
      show max 1 b.toNat = 1 + (b.toNat - 1)
      omega
    dsimp only
    rcases hr' : S.readFull ms (([b].headD 0).toNat - 1) s₁ with ⟨_ | bs', s₂⟩
    · rw [hr'] at hmore hrest
      obtain ⟨hlt, hstop⟩ := hrest
      refine ⟨[b] ++ more, ?_, ?_, hstop⟩
      · rw [hfirst, hmore, View.putBack_putBack]
      · rw [hextent, List.length_append, List.length_singleton]
        omega
    · rw [hr'] at hmore hrest
      obtain ⟨rfl, hlen'⟩ := hrest
      refine ⟨[b] ++ bs', ?_, rfl, ?_⟩
      · rw [hfirst, hmore, View.putBack_putBack]
      · rw [hextent, List.length_append, List.length_singleton, hlen']

lemma drain_spec (dropped : Nat) (s : σ) :
    ∃ taken f, view s = (view (S.drain dropped s).2).putBack taken ∧
      p.Stops (view (S.drain dropped s).2) f := by
  -- Bytes and interruptions keep the loop going, and everything else is silence.
  fun_induction S.drain dropped s with
  | case1 dropped s s₁ hread =>
    obtain ⟨heq, hstop⟩ := (h.reads (by decide) hread).of_end rfl
    exact ⟨[], _, heq, hstop⟩
  | case2 dropped s b bs s₁ hread ih =>
    obtain ⟨taken, f, hview, hstop⟩ := ih
    refine ⟨b :: bs ++ taken, f, ?_, hstop⟩
    rw [(h.reads (by decide) hread).of_ok (List.cons_ne_nil _ _), hview, View.putBack_putBack]
  | case3 dropped s e s₁ hread he ih =>
    rwa [(h.reads (by decide) hread).of_interrupted he]
  | case4 dropped s e s₁ hread he =>
    obtain ⟨heq, hstop⟩ := (h.reads (by decide) hread).of_end (by simpa [IoFault.goesOn] using he)
    exact ⟨[], _, heq, hstop⟩

/-- Dropping the input takes bytes until the peer is silent. -/
lemma discard_spec (s : σ) :
    (S.discard s).result = .ok () ∧ ∃ taken f,
      view s = (view (S.discard s).state).putBack taken ∧ p.Stops (view (S.discard s).state) f := by
  unfold discard
  rcases hset : S.setTimeout drainTimeoutMs s with ⟨r, s₁⟩
  obtain ⟨rfl, hview⟩ := h.setTimeout_eq _ _ hset
  obtain ⟨taken, f, hdrain, hstop⟩ := h.drain_spec 0 s₁
  rw [hview] at hdrain
  dsimp only
  rcases hd : S.drain 0 s₁ with ⟨_ | n, s₂⟩
  all_goals
    rw [hd] at hdrain hstop
    exact ⟨rfl, taken, f, hdrain, hstop⟩

/-! ## Writing -/

/-- The rest of a frame is written: the peer receives the frame, or a write fails. -/
lemma writeAll_spec {frame : Bytes} (hframe : Frame.declared frame = frame.length) (data : Bytes)
    (s : σ) (hdata : data ≠ []) (hheld : (view s).held ++ data = frame) :
    match (S.writeAll data s).1 with
    | .ok _ => view (S.writeAll data s).2 = p.receives frame (view s)
    | .error f => view (S.writeAll data s).2 = { view s with held := [] } ∧
        ∃ bs s' e, (S.write bs s').1 = .error e ∧ e.kind ≠ .interrupted ∧ f = e.toFault := by
  fun_induction S.writeAll data s with
  | case1 data s hz => exact absurd (List.length_eq_zero_iff.1 hz) hdata
  | case2 data s _ s₁ hw =>
    exact absurd ((h.writes hdata hw).of_ok hdata hheld hframe).1 (Nat.lt_irrefl 0)
  | case3 data s _ n s₁ hw ih =>
    obtain ⟨-, hpart, hwhole⟩ := (h.writes hdata hw).of_ok hdata hheld hframe
    -- Either this was the rest of the frame, or the peer holds more of it than before.
    by_cases hle : data.length ≤ n + 1
    · rw [List.drop_of_length_le hle, S.writeAll_nil]
      exact hwhole hle
    · have hview := hpart (Nat.not_le.1 hle)
      have hrest : data.drop (n + 1) ≠ [] := by
        rw [ne_eq, List.drop_eq_nil_iff]
        exact hle
      have hsplit : (view s₁).held ++ data.drop (n + 1) = frame := by
        rw [hview, ← hheld, List.append_assoc, List.take_append_drop]
      have hdone := ih hrest hsplit
      rw [hview] at hdone
      exact hdone
  | case4 data s _ e s₁ hw he ih =>
    rw [(h.writes hdata hw).of_interrupted he] at hheld ⊢
    exact ih hdata hheld
  | case5 data s _ e s₁ hw he =>
    exact ⟨(h.writes hdata hw).of_failed he, data, s, e, by rw [hw], he, rfl⟩

/-- Sending hands the peer the frame, or nothing, and the latter only if a call fails. -/
lemma send_spec {frame : Bytes} (hframe : Frame.declared frame = frame.length)
    (hne : frame ≠ []) {s : σ} (hheld : (view s).held = []) :
    match (S.send frame s).result with
    | .ok _ => view (S.send frame s).state = p.receives frame (view s)
    | .error f => f.isTransient = true ∧
        (view (S.send frame s).state = view s ∨
          view (S.send frame s).state = p.receives frame (view s)) := by
  have hall := h.writeAll_spec hframe frame s hne (by rw [hheld, List.nil_append])
  unfold send
  dsimp only
  rcases hw : S.writeAll frame s with ⟨f | _, s₁⟩
  · rw [hw] at hall
    obtain ⟨hview, bs, s', e, -, -, rfl⟩ := hall
    refine ⟨e.isTransient_toFault, .inl (hview.trans ?_)⟩
    rw [← hheld]
  · rw [hw] at hall
    have hflush := h.flush s₁
    dsimp only
    rcases hf : S.flush s₁ with ⟨e | _, s₂⟩
    · rw [hf] at hflush
      exact ⟨e.isTransient_toFault, .inr (hflush.trans hall)⟩
    · rw [hf] at hflush
      exact hflush.trans hall

end ByteStream.Faces

end TagReader
