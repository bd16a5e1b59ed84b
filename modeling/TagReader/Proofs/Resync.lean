/-
# Resynchronisation

A device that answers every frame with an arbitrary burst of bytes may get the host out of step:
a burst may be too short, too long, or no frame at all.  This file shows that an engine over a
stream always gets into step again, so that the stream behaves like a script.

* The script's queue holds, burst by burst, what a receiver makes of the beginning of the burst
  (`Frame.leading`): a frame, or a timeout if the burst is too short for one.
* A burst is `Frame.Clean` if nothing follows a frame in it that decodes.  Of other bursts
  nothing at all is required.

The invariant is `Rehearses`: between attempts nothing is unread, and the queue of the script
agrees with the bursts to come.  An attempt keeps it because every fault of a frame that does not
decode is transient, so that what is left of the burst is dropped; after a frame that decodes,
nothing is left.  The main result is `Engine.conduct_rehearsed`.
-/
import TagReader.Link.Script
import TagReader.Proofs.Journal
import TagReader.Proofs.Wire

namespace TagReader

variable {σ ρ α : Type}

/-! ## Bursts -/

namespace Frame

/-- What a receiver makes of the beginning of a burst that is all there is. -/
def leading (burst : Bytes) : Except Fault Bytes :=
  if burst.length < extent burst then .error .timeout else .ok (burst.take (extent burst))

/-- If the frame at the beginning of a burst decodes, nothing follows it. -/
def Clean (t : Trailer) (burst : Bytes) : Prop :=
  ∀ frame reply, leading burst = .ok frame → decode t frame = .ok reply → burst = frame

instance (t : Trailer) (burst : Bytes) : Decidable (Clean t burst) :=
  match hl : leading burst with
  | .error _ => isTrue fun _ _ h => by rw [hl] at h; cases h
  | .ok frame =>
    match hd : decode t frame with
    | .error _ => isTrue fun _ _ h h' => by
      rw [hl] at h
      obtain rfl := Except.ok.inj h
      rw [hd] at h'
      cases h'
    | .ok reply =>
      if hb : burst = frame then isTrue fun _ _ h _ => by
        rw [hl] at h
        exact hb.trans (Except.ok.inj h)
      else isFalse fun h => hb (h frame reply hl hd)

lemma leading_of_short {burst : Bytes} (h : burst.length < extent burst) :
    leading burst = .error .timeout := if_pos h

lemma leading_of_frame {frame : Bytes} (h : frame.length = extent frame) (rest : Bytes) :
    leading (frame ++ rest) = .ok frame := by
  have hext := extent_append (ne_nil_of_length_eq_extent h) rest
  unfold leading
  rw [hext, if_neg (by rw [List.length_append]; omega), ← h, List.take_left']
  rfl

/-- Only a transient fault leaves bytes of a clean burst behind. -/
lemma Clean.drop_eq_nil {t : Trailer} {burst : Bytes} (h : Clean t burst)
    (hs : endsTransient ((leading burst).bind (decode t)) = false) :
    burst.drop (extent burst) = [] := by
  by_cases hshort : burst.length < extent burst
  · exact List.drop_of_length_le (Nat.le_of_lt hshort)
  · have hl : leading burst = .ok (burst.take (extent burst)) := if_neg hshort
    have hs' : endsTransient (decode t (burst.take (extent burst))) = false := by
      rw [hl] at hs
      exact hs
    cases hd : decode t (burst.take (extent burst)) with
    | error f =>
      rw [hd] at hs'
      exact absurd (hs'.symm.trans (isTransient_of_decode hd)) Bool.false_ne_true
    | ok reply =>
      have hlen := congrArg List.length (h _ reply hl hd)
      rw [List.length_take] at hlen
      exact List.drop_of_length_le (by omega)

end Frame

/-- A device with the bursts that it is going to send, one for each frame. -/
structure Device where
  /-- The bursts to come. -/
  bursts : List Bytes
  /-- The frames received so far, oldest first. -/
  frames : List Bytes := []

/-- The device as a peer.  A read brings nothing only if nothing is there, and then it says so. -/
def Device.peer : Peer Device where
  answer d frame := (d.bursts.headD [], ⟨d.bursts.tail, d.frames ++ [frame]⟩)
  silence _ unread r :=
    unread = [] ∧ ∃ e : IoFault, r = .error e ∧ (e.kind = .timedOut ∨ e.kind = .wouldBlock)

lemma Device.stops_iff {v : View Device} {f : Fault} (h : Device.peer.Stops v f) :
    v.unread = [] ∧ f = .timeout := by
  obtain ⟨_, ⟨hunread, e, rfl, hkind⟩, rfl⟩ := h
  refine ⟨hunread, ?_⟩
  show e.toFault = .timeout
  unfold IoFault.toFault
  rcases hkind with hkind | hkind <;> rw [hkind]

/-- Writes on the stream may be interrupted, and do not fail. -/
structure ByteStream.Willing (S : ByteStream σ) : Prop where
  write : ∀ {bs s e}, (S.write bs s).1 = .error e → e.kind = .interrupted
  flush : ∀ s, (S.flush s).1 = .ok ()

/-! ## The stream before a device -/

namespace ByteStream.Faces

variable {S : ByteStream σ} {view : σ → View Device} (h : S.Faces Device.peer view)
include h

/-- A receiver takes the leading frame of what is unread, or all of it. -/
lemma receive_burst {ms : Nat} (hms : 0 < ms) (s : σ) :
    (S.receive ms s).result = Frame.leading (view s).unread ∧
      view (S.receive ms s).state =
        { view s with unread := (view s).unread.drop (Frame.extent (view s).unread) } := by
  obtain ⟨taken, hview, hres⟩ := h.receive_spec hms s
  cases hr : (S.receive ms s).result with
  | error f =>
    rw [hr] at hres
    -- The device is silent, so all that was unread has been taken.
    obtain ⟨hshort, hstop⟩ := hres
    obtain ⟨hempty, rfl⟩ := Device.stops_iff hstop
    have hall : (view s).unread = taken := by
      rw [hview, View.unread_putBack, hempty, List.append_nil]
    refine ⟨by rw [hall, Frame.leading_of_short hshort], ?_⟩
    rw [hall, List.drop_of_length_le (Nat.le_of_lt hshort), hview, ← hempty]
    rfl
  | ok frame =>
    rw [hr] at hres
    obtain ⟨rfl, hlen⟩ := hres
    have hsplit : (view s).unread = frame ++ (view (S.receive ms s).state).unread := by
      rw [hview, View.unread_putBack]
    refine ⟨by rw [hsplit, Frame.leading_of_frame hlen], ?_⟩
    rw [hsplit, Frame.extent_append (Frame.ne_nil_of_length_eq_extent hlen), ← hlen,
      List.drop_left, hview]
    rfl

/-- After the input has been dropped nothing is unread. -/
lemma discard_burst (s : σ) : view (S.discard s).state = { view s with unread := [] } := by
  obtain ⟨-, taken, f, hview, hstop⟩ := h.discard_spec s
  obtain ⟨hempty, -⟩ := Device.stops_iff hstop
  rw [hview, ← hempty]
  rfl

/-- A frame that is sent calls for the next burst. -/
lemma send_burst (hw : S.Willing) {frame : Bytes} (hne : frame ≠ [])
    (hframe : Frame.declared frame = frame.length) {s : σ} (hheld : (view s).held = []) :
    (S.send frame s).result = .ok () ∧
      view (S.send frame s).state = Device.peer.receives frame (view s) := by
  have hall := h.writeAll_spec hframe frame s hne (by rw [hheld, List.nil_append])
  unfold send
  dsimp only
  rcases hwr : S.writeAll frame s with ⟨f | _, s₁⟩
  · rw [hwr] at hall
    obtain ⟨-, bs, s', e, he, hkind, -⟩ := hall
    exact absurd (hw.write he) hkind
  · rw [hwr] at hall
    have hview := h.flush s₁
    have hok := hw.flush s₁
    dsimp only
    rcases hf : S.flush s₁ with ⟨r, s₂⟩
    rw [hf] at hview hok
    obtain rfl : r = .ok () := hok
    exact ⟨rfl, hview.trans hall⟩

end ByteStream.Faces

/-! ## Stream and script side by side -/

/-- The script has sent the frames that the device has received, and its queue stands for the
bursts to come. -/
structure Abreast (t : Trailer) (v : View Device) (m : Script ρ) : Prop where
  held : v.held = []
  frames : v.memory.frames = m.sent
  queue : m.queue = v.memory.bursts.map Frame.leading
  responder : m.responder = none
  clean : ∀ burst ∈ v.memory.bursts, Frame.Clean t burst

lemma Abreast.clean_next {t : Trailer} {v : View Device} {m : Script ρ} (h : Abreast t v m) :
    Frame.Clean t (v.memory.bursts.headD []) := by
  rcases hb : v.memory.bursts with _ | ⟨burst, bursts⟩
  · intro frame reply hl
    cases hl
  · exact h.clean burst (by rw [hb]; exact List.mem_cons_self)

/-- The invariant between two attempts: stream and script are abreast, and nothing is unread. -/
def Rehearses (t : Trailer) (v : View Device) (m : Script ρ) : Prop :=
  Abreast t v m ∧ v.unread = []

/-- The engine over a script. -/
def Script.engine (respond : Bytes → ρ → Except Fault Bytes × ρ) (t : Trailer) (c : Settings) :
    Engine (Script ρ) :=
  ⟨Script.link respond, t, c⟩

/-- A script without a responder answers from its queue. -/
lemma Script.receive_queue (respond : Bytes → ρ → Except Fault Bytes × ρ) {m : Script ρ}
    (hm : m.responder = none) :
    (Script.receive respond m).result = m.queue.headD (.error .timeout) ∧
      (Script.receive respond m).state =
        { m with queue := m.queue.tail, receives := m.receives + 1 } := by
  obtain ⟨sent, queue, _, receives, discards⟩ := m
  obtain rfl := hm
  cases queue with
  | nil => exact ⟨rfl, rfl⟩
  | cons answer rest => exact ⟨rfl, rfl⟩

namespace Engine

section Attempt

variable {S : ByteStream σ} {view : σ → View Device} (h : S.Faces Device.peer view)
  (hw : S.Willing) {t : Trailer} {c : Settings} (hc : 0 < c.timeoutMs)
  (respond : Bytes → ρ → Except Fault Bytes × ρ)
include h hw hc

/-- Up to the reading of a reply both sides do the same, and only a transient fault leaves bytes
behind. -/
lemma converse_abreast {body frame : Bytes} (hf : Frame.encode t body = .ok frame) {s : σ}
    {m : Script ρ} (hsm : Rehearses t (view s) m) :
    ((S.engine t c).converse frame s).result =
        ((Script.engine respond t c).converse frame m).result ∧
      Abreast t (view ((S.engine t c).converse frame s).state)
        ((Script.engine respond t c).converse frame m).state ∧
      (endsTransient ((S.engine t c).converse frame s).result = false →
        (view ((S.engine t c).converse frame s).state).unread = []) := by
  obtain ⟨hab, hempty⟩ := hsm
  obtain ⟨hne, hdecl⟩ := Frame.declared_of_encode hf
  obtain ⟨hsent, hview⟩ := h.send_burst hw hne hdecl hab.held
  obtain ⟨hres, hrest⟩ := h.receive_burst hc (S.send frame s).state
  obtain ⟨hresult, hstate⟩ := converse_sent (e := S.engine t c) hsent
  have hscript : ((Script.engine respond t c).link.send frame m).result = .ok () := rfl
  obtain ⟨hresult', hstate'⟩ := converse_sent hscript
  have hunread : (view (S.send frame s).state).unread = (view s).memory.bursts.headD [] := by
    rw [hview]
    show (view s).unread ++ _ = _
    rw [hempty]
    rfl
  rw [hunread] at hres hrest
  obtain ⟨hqres, hqstate⟩ := Script.receive_queue respond
    (m := { m with sent := m.sent ++ [frame] }) hab.responder
  have hqueue : m.queue.headD (.error .timeout) =
      Frame.leading ((view s).memory.bursts.headD []) := by
    rw [hab.queue]
    cases (view s).memory.bursts <;> rfl
  -- Both sides receive the leading frame of the next burst.
  have hboth : ((S.engine t c).converse frame s).result =
      (Frame.leading ((view s).memory.bursts.headD [])).bind (Frame.decode t) := by
    rw [hresult, ← hres]
    rfl
  have hview' : view ((S.engine t c).converse frame s).state =
      ⟨⟨(view s).memory.bursts.tail, (view s).memory.frames ++ [frame]⟩,
        ((view s).memory.bursts.headD []).drop
          (Frame.extent ((view s).memory.bursts.headD [])), []⟩ := by
    rw [hstate]
    show view (S.receive c.timeoutMs (S.send frame s).state).state = _
    rw [hrest, hview]
    rfl
  refine ⟨?_, ?_, fun hsettled => ?_⟩
  · rw [hboth, ← hqueue, ← hqres, hresult']
    rfl
  · rw [hview', hstate']
    show Abreast t _ (Script.receive respond { m with sent := m.sent ++ [frame] }).state
    rw [hqstate]
    refine ⟨rfl, ?_, ?_, hab.responder, fun burst hb => hab.clean burst (List.mem_of_mem_tail hb)⟩
    · rw [← hab.frames]
    · rw [List.map_tail, ← hab.queue]
  · rw [hview']
    rw [hboth] at hsettled
    exact hab.clean_next.drop_eq_nil hsettled

/-- An attempt keeps the invariant. -/
lemma attempt_rehearses {body frame : Bytes} (hf : Frame.encode t body = .ok frame) {s : σ}
    {m : Script ρ} (hsm : Rehearses t (view s) m) :
    ((S.engine t c).attempt frame s).result =
        ((Script.engine respond t c).attempt frame m).result ∧
      Rehearses t (view ((S.engine t c).attempt frame s).state)
        ((Script.engine respond t c).attempt frame m).state := by
  obtain ⟨hres, hab, hrest⟩ := converse_abreast h hw hc respond hf hsm
  refine ⟨by rw [result_attempt, result_attempt, hres], ?_⟩
  cases ht : endsTransient ((S.engine t c).converse frame s).result with
  | true =>
    rw [state_attempt_transient ht, state_attempt_transient (by rw [← hres, ht])]
    have hview : view ((S.engine t c).link.discard ((S.engine t c).converse frame s).state).state =
        { view ((S.engine t c).converse frame s).state with unread := [] } := h.discard_burst _
    rw [hview]
    exact ⟨⟨hab.held, hab.frames, hab.queue, hab.responder, hab.clean⟩, rfl⟩
  | false =>
    -- Nothing is dropped, and nothing needs to be: the burst was clean.
    rw [state_attempt_settled ht, state_attempt_settled (by rw [← hres, ht])]
    exact ⟨hab, hrest ht⟩

/-- The engine over the stream, with a journal, corresponds to the engine over the script: the
invariant holds between attempts, and nothing was unread when a frame was sent. -/
lemma journaled_rehearses :
    Engine.Corresponds
      (fun (j : Journal σ) (m : Script ρ) =>
        Rehearses t (view j.inner) m ∧ ∀ s ∈ j.sends, (view s).unread = [])
      (S.engine t c).journaled (Script.engine respond t c) := by
  refine ⟨rfl, rfl, fun body frame hf j m ⟨hjm, hsends⟩ => ?_⟩
  obtain ⟨hres, hnext⟩ := attempt_rehearses h hw hc respond hf hjm
  have hsame := (S.engine t c).journaled_corresponds.attempt body frame hf (s := j) rfl
  refine ⟨hsame.1.trans hres, ?_⟩
  rw [state_attempt_journaled]
  refine ⟨hnext, fun s hs => ?_⟩
  rcases List.mem_append.1 hs with hs | hs
  · exact hsends s hs
  · rw [List.mem_singleton.1 hs]
    exact hjm.2

/-- **A script is a faithful rehearsal of a device.**  Let a stream lead to a device that answers
each frame with some burst of bytes, in pieces of any size and with any interruptions.  If the
bursts are clean, every dialogue ends over the stream as it ends over a script whose queue holds
the leading frames of the bursts, and the same frames are sent.  Nothing is ever unread when a
frame is sent. -/
theorem conduct_rehearsed {bursts : List Bytes} (hclean : ∀ burst ∈ bursts, Frame.Clean t burst)
    {s : σ} (hs : view s = { memory := { bursts } }) (d : Dialogue Call α) :
    let real := (S.engine t c).conduct d s
    let kept := (S.engine t c).journaled.conduct d { inner := s }
    let rehearsal := (Script.engine respond t c).conduct d { queue := bursts.map Frame.leading }
    (real.result = rehearsal.result ∧
      (view real.state).memory.frames = rehearsal.state.sent) ∧
    kept.result = real.result ∧ kept.state.inner = real.state ∧
      ∀ s' ∈ kept.state.sends, (view s').unread = [] := by
  intro real kept rehearsal
  have hstart : Rehearses t (view s) ({ queue := bursts.map Frame.leading } : Script ρ) := by
    rw [hs]
    exact ⟨⟨rfl, rfl, rfl, rfl, hclean⟩, rfl⟩
  obtain ⟨hres, ⟨hend, -⟩, hsends⟩ := (journaled_rehearses h hw hc respond).conduct d
    (s := { inner := s }) ⟨hstart, fun _ hmem => absurd hmem List.not_mem_nil⟩
  obtain ⟨hsame, hinner⟩ := (S.engine t c).journaled_corresponds.conduct d
    (s := { inner := s }) rfl
  refine ⟨⟨hsame.symm.trans hres, ?_⟩, hsame, hinner, hsends⟩
  have hframes := hend.frames
  rwa [hinner] at hframes

end Attempt

/-- Bursts that bring an engine out of step: one that is too short for a frame, one with a wrong
trailer and bytes after it, and then a reply. -/
def garbled : List Bytes :=
  [[0x03, 0x00], [0x07, 0x00, 0x00, 0x00, 0x00, 0xAA, 0xBB, 0x01, 0x02],
    Frame.closed .standard [0x08, 0x00, 0x00, 0x00, 0x00, 0x2A]]

/-- The reply is found behind the garbage. -/
theorem conduct_rehearsed_garbled :
    (∀ burst ∈ garbled, Frame.Clean .standard burst) ∧ 0 < ({} : Settings).timeoutMs ∧
      (((Wire.stream Device.peer fun _ _ => false).engine .standard {}).conduct
        (Talk.exchange ⟨0x01, 0x02, []⟩)
        { view := { memory := { bursts := garbled } }, plan := [1, 1, 2, 3] }).result =
          .ok [0x2A] := by
  have hfaces : (Wire.stream Device.peer fun _ _ => false).Faces Device.peer Wire.view := by
    refine Wire.faces _ _ fun m u hu => ⟨hu.resolve_right Bool.false_ne_true, Wire.late, rfl, ?_⟩
    exact .inl rfl
  have hwilling : (Wire.stream Device.peer fun _ _ => false).Willing :=
    { write := fun he => absurd he (by simp [Wire.stream, Wire.write])
      flush := fun _ => rfl }
  have hclean : ∀ burst ∈ garbled, Frame.Clean .standard burst := by decide +kernel
  refine ⟨hclean, by decide, ?_⟩
  refine (conduct_rehearsed hfaces hwilling (by decide) (fun _ (r : Unit) => (.error .timeout, r))
    hclean rfl (Talk.exchange ⟨0x01, 0x02, []⟩)).1.1.trans ?_
  decide +kernel

end Engine

end TagReader
