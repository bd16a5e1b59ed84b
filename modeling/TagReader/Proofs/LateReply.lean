/-
# Late replies

A reader that answers every frame with one reply may answer late, after the host has given up on
the reply and gone on.  Dropping the input after a transient fault is meant to keep such a reply
from being taken for the answer to another command, but a reply that arrives after the input has
been dropped stays.  This file says exactly when an answer belongs to its own exchange.

* `Peer.late reply` is the reader: it sends `reply frames` when it has received `frames`, and a
  read may end without bringing anything wherever a whole reply has just been read.
* `Aligned` is the invariant: the replies have been read up to some number, and none in part.
* `Turn.Answers i` says that the answer of an exchange is what the reply to frame number `i` says,
  and `Turn.Owns i` that this frame was sent in the exchange and with its command.

The main result is `Engine.turn_owns_iff`: the answer belongs to its exchange exactly if the input
that was dropped during the exchange is at least as long as what was still to be read when it
began.  So an exchange that begins with nothing to be read gets an answer of its own, and after a
timeout there is no such guarantee.
-/
import Mathlib
import TagReader.Proofs.Journal
import TagReader.Proofs.Wire

namespace TagReader

variable {σ : Type}

/-! ## Replies in order -/

/-- The replies to some frames, where `reply` gives the one to the last frame of a list. -/
def replies (reply : List Bytes → Bytes) (frames : List Bytes) : List Bytes :=
  (List.range frames.length).map fun i => reply (frames.take (i + 1))

/-- A reader that answers each frame with one reply, and takes its time for that. -/
def Peer.late (reply : List Bytes → Bytes) : Peer (List Bytes) where
  answer frames frame := (reply (frames ++ [frame]), frames ++ [frame])
  silence frames unread _ := ∃ k, unread = ((replies reply frames).drop k).flatten

section Replies

variable (reply : List Bytes → Bytes)

lemma length_replies (frames : List Bytes) : (replies reply frames).length = frames.length := by
  simp [replies]

lemma getElem_replies {frames : List Bytes} {i : Nat} (hi : i < (replies reply frames).length) :
    (replies reply frames)[i] = reply (frames.take (i + 1)) := by
  simp [replies]

lemma replies_concat (frames : List Bytes) (frame : Bytes) :
    replies reply (frames ++ [frame]) = replies reply frames ++ [reply (frames ++ [frame])] := by
  unfold replies
  rw [List.length_append, List.length_singleton, List.range_succ, List.map_append]
  congr 1
  · refine List.map_congr_left fun i hi => ?_
    rw [List.take_append_of_le_length (List.mem_range.1 hi)]
  · rw [List.map_singleton, List.take_of_length_le (by simp)]

end Replies

/-- Of a list of lists, more remain if fewer are dropped. -/
lemma length_flatten_drop_le {rs : List Bytes} {i j : Nat} (hij : i ≤ j) :
    (rs.drop j).flatten.length ≤ (rs.drop i).flatten.length := by
  obtain ⟨d, rfl⟩ := Nat.exists_eq_add_of_le hij
  have hsplit : (rs.drop i).flatten =
      ((rs.drop i).take d).flatten ++ (rs.drop (i + d)).flatten := by
    rw [← List.flatten_append, ← List.drop_drop, List.take_append_drop]
  rw [hsplit, List.length_append]
  omega

lemma length_flatten_drop_lt {rs : List Bytes} (hne : ∀ r ∈ rs, r ≠ []) {i j : Nat} (hij : i < j)
    (hi : i < rs.length) : (rs.drop j).flatten.length < (rs.drop i).flatten.length := by
  have hpos : 0 < rs[i].length := List.length_pos_iff.2 (hne _ (List.getElem_mem hi))
  have hle : (rs.drop j).flatten.length ≤ (rs.drop (i + 1)).flatten.length :=
    length_flatten_drop_le hij
  rw [List.drop_eq_getElem_cons hi, List.flatten_cons, List.length_append]
  omega

/-! ## Alignment -/

/-- The first `k` replies have been read, and nothing else. -/
structure Aligned (reply : List Bytes → Bytes) (k : Nat) (v : View (List Bytes)) : Prop where
  held : v.held = []
  le : k ≤ v.memory.length
  unread : v.unread = ((replies reply v.memory).drop k).flatten

/-- The number of bytes of all replies from number `N` on. -/
def bytesSince (reply : List Bytes → Bytes) (N : Nat) (v : View (List Bytes)) : Nat :=
  ((replies reply v.memory).drop N).flatten.length

section Aligned

variable {reply : List Bytes → Bytes} {k : Nat} {v v' : View (List Bytes)}

lemma Aligned.le_length (h : Aligned reply k v) : k ≤ (replies reply v.memory).length := by
  rw [length_replies]
  exact h.le

/-- A frame that arrives adds its reply at the end. -/
lemma Aligned.receives (h : Aligned reply k v) (frame : Bytes) :
    Aligned reply k ((Peer.late reply).receives frame v) := by
  refine ⟨rfl, ?_, ?_⟩
  · show k ≤ (v.memory ++ [frame]).length
    rw [List.length_append]
    exact Nat.le_add_right_of_le h.le
  · show v.unread ++ reply (v.memory ++ [frame]) =
      ((replies reply (v.memory ++ [frame])).drop k).flatten
    rw [replies_concat, List.drop_append_of_le_length h.le_length, List.flatten_append,
      ← h.unread, List.flatten_singleton]

/-- What has not been read grows as the replies from any earlier number on do. -/
lemma bytesSince_receives {N : Nat} (hN : N ≤ v.memory.length) (frame : Bytes) :
    bytesSince reply N ((Peer.late reply).receives frame v) + v.unread.length =
      bytesSince reply N v + ((Peer.late reply).receives frame v).unread.length := by
  have hN' : N ≤ (replies reply v.memory).length := by rwa [length_replies]
  show ((replies reply (v.memory ++ [frame])).drop N).flatten.length + v.unread.length =
    ((replies reply v.memory).drop N).flatten.length +
      (v.unread ++ reply (v.memory ++ [frame])).length
  rw [replies_concat, List.drop_append_of_le_length hN', List.flatten_append,
    List.flatten_singleton, List.length_append, List.length_append]
  omega

/-- Dropping the input leaves the replies aligned. -/
lemma Aligned.dropped (h : Aligned reply k v) {taken : Bytes} {f : Fault}
    (hv : v = v'.putBack taken) (hs : (Peer.late reply).Stops v' f) :
    ∃ k', Aligned reply k' v' := by
  obtain ⟨r, ⟨n, hn⟩, -⟩ := hs
  have hheld : v'.held = [] := by rw [← h.held, hv, View.held_putBack]
  by_cases hle : n ≤ v'.memory.length
  · exact ⟨n, hheld, hle, hn⟩
  · refine ⟨v'.memory.length, hheld, Nat.le_refl _, ?_⟩
    have hall : ∀ m, v'.memory.length ≤ m → (replies reply v'.memory).drop m = [] := by
      intro m hm
      exact List.drop_of_length_le (by rwa [length_replies])
    rw [hn, hall n (Nat.le_of_not_le hle), hall _ (Nat.le_refl _)]

/-! ## Reading replies -/

/-- Every reply of the reader is a reply. -/
def WellFormed (t : Trailer) (reply : List Bytes → Bytes) : Prop :=
  ∀ frames, ∃ p, Frame.decode t (reply frames) = .ok p

lemma Frame.length_of_decode {t : Trailer} {frame : Bytes} {p : Reply}
    (h : Frame.decode t frame = .ok p) : frame.length = Frame.extent frame := by
  have hopen : ∃ data, Frame.openFrame t Frame.headerLength frame = .ok data := by
    unfold Frame.decode at h
    cases ho : Frame.openFrame t Frame.headerLength frame with
    | ok data => exact ⟨data, rfl⟩
    | error f =>
      rw [ho] at h
      cases h
  obtain ⟨data, hopen⟩ := hopen
  unfold Frame.openFrame at hopen
  split at hopen
  · cases hopen
  · rename_i hlen
    rw [not_or, not_not, Nat.not_lt] at hlen
    unfold Frame.extent
    unfold Frame.headerLength at hlen
    omega

variable {t : Trailer}

lemma WellFormed.length (hw : WellFormed t reply) (frames : List Bytes) :
    (reply frames).length = Frame.extent (reply frames) := by
  obtain ⟨p, hp⟩ := hw frames
  exact Frame.length_of_decode hp

lemma WellFormed.ne_nil (hw : WellFormed t reply) {frames : List Bytes} :
    ∀ r ∈ replies reply frames, r ≠ [] := by
  intro r hr
  obtain ⟨i, -, rfl⟩ := List.mem_map.1 hr
  exact Frame.ne_nil_of_length_eq_extent (hw.length _)

/-- Where something is unread, it begins with the next reply. -/
lemma Aligned.next (hw : WellFormed t reply) (h : Aligned reply k v) {taken rest : Bytes}
    (hv : v.unread = taken ++ rest) (hne : taken ≠ []) :
    k < v.memory.length ∧
      v.unread = reply (v.memory.take (k + 1)) ++ ((replies reply v.memory).drop (k + 1)).flatten ∧
      Frame.extent taken = (reply (v.memory.take (k + 1))).length := by
  have hk : k < (replies reply v.memory).length := by
    by_contra hge
    have hnil := h.unread
    rw [List.drop_of_length_le (Nat.not_lt.1 hge), hv] at hnil
    exact hne (List.append_eq_nil_iff.1 hnil).1
  have hsplit : v.unread =
      reply (v.memory.take (k + 1)) ++ ((replies reply v.memory).drop (k + 1)).flatten := by
    rw [h.unread, List.drop_eq_getElem_cons hk, List.flatten_cons, getElem_replies]
  refine ⟨by rwa [length_replies] at hk, hsplit, ?_⟩
  have hreply := hw.length (v.memory.take (k + 1))
  rw [hreply, ← Frame.extent_append hne rest, ← hv, hsplit,
    Frame.extent_append (Frame.ne_nil_of_length_eq_extent hreply)]

/-- A reply is read as a whole. -/
lemma Aligned.received (hw : WellFormed t reply) (h : Aligned reply k v) {frame : Bytes}
    (hv : v = v'.putBack frame) (hlen : frame.length = Frame.extent frame) :
    k < v.memory.length ∧ frame = reply (v.memory.take (k + 1)) ∧ Aligned reply (k + 1) v' := by
  have hunread : v.unread = frame ++ v'.unread := by rw [hv, View.unread_putBack]
  obtain ⟨hk, hsplit, hext⟩ := h.next hw hunread (Frame.ne_nil_of_length_eq_extent hlen)
  obtain ⟨hframe, hrest⟩ := List.append_inj (hunread.symm.trans hsplit) (hlen.trans hext)
  subst hv
  exact ⟨hk, hframe, h.held, hk, hrest⟩

/-- A read that ends in silence before a whole reply has read nothing. -/
lemma Aligned.unreceived (hw : WellFormed t reply) (h : Aligned reply k v) {taken : Bytes}
    {f : Fault} (hv : v = v'.putBack taken) (hlen : taken.length < Frame.extent taken)
    (hs : (Peer.late reply).Stops v' f) : v' = v := by
  by_cases hne : taken = []
  · rw [hv, hne, View.putBack_nil]
  · exfalso
    have hunread : v.unread = taken ++ v'.unread := by rw [hv, View.unread_putBack]
    obtain ⟨hk, hsplit, hext⟩ := h.next hw hunread hne
    obtain ⟨r, ⟨n, hn⟩, -⟩ := hs
    have hmem : v'.memory = v.memory := by rw [hv, View.memory_putBack]
    rw [hmem] at hn
    have hpos := List.length_pos_iff.2 hne
    -- The bytes that remain would lie strictly between two replies.
    have hcount := congrArg List.length hunread
    have hcount' := congrArg List.length hsplit
    rw [List.length_append] at hcount hcount'
    have hrest := congrArg List.length hn
    rcases Nat.lt_or_ge k n with hlt | hge
    · have hle : ((replies reply v.memory).drop n).flatten.length ≤
          ((replies reply v.memory).drop (k + 1)).flatten.length := length_flatten_drop_le hlt
      omega
    · have hle : ((replies reply v.memory).drop k).flatten.length ≤
          ((replies reply v.memory).drop n).flatten.length := length_flatten_drop_le hge
      rw [← h.unread] at hle
      omega

/-- The next reply belongs to the frames from number `N` on exactly if no more bytes are to be
read than the replies to these frames have. -/
lemma Aligned.le_iff (hw : WellFormed t reply) (h : Aligned reply k v) {N : Nat}
    (hN : N ≤ v.memory.length) : N ≤ k ↔ v.unread.length ≤ bytesSince reply N v := by
  rw [h.unread]
  constructor
  · exact fun hle => length_flatten_drop_le hle
  · intro hle
    by_contra hlt
    have hk : k < (replies reply v.memory).length := by
      rw [length_replies]
      omega
    have hless := length_flatten_drop_lt hw.ne_nil (Nat.not_le.1 hlt) hk
    unfold bytesSince at hle
    omega

end Aligned

/-! ## Attempts -/

/-- An answer is what the reply to frame number `i` says, and that reply has been read last. -/
def AnsweredBy (t : Trailer) (reply : List Bytes → Bytes) (v : View (List Bytes))
    (r : Except Fault Bytes) (i : Nat) : Prop :=
  Aligned reply (i + 1) v ∧
    ∃ p, Frame.decode t (reply (v.memory.take (i + 1))) = .ok p ∧ r = Engine.judge (.ok p)

/-- The number of bytes that were dropped. -/
def bytesDropped {ω : Type} (view : σ → View ω) : List (σ × σ) → Nat
  | [] => 0
  | (full, left) :: drops =>
    (view full).unread.length - (view left).unread.length + bytesDropped view drops

lemma bytesDropped_append {ω : Type} (view : σ → View ω) (drops more : List (σ × σ)) :
    bytesDropped view (drops ++ more) = bytesDropped view drops + bytesDropped view more := by
  induction drops with
  | nil => exact (Nat.zero_add _).symm
  | cons p drops ih =>
    show _ + bytesDropped view (drops ++ more) = _ + bytesDropped view drops + _
    rw [ih, Nat.add_assoc]

/-- What can be said of attempts with a frame from a state with a journal to an outcome.  The
replies stay aligned, and the frame was sent some number of times.  An answer comes from the reply
to some frame, and that is one of the frames from number `N` on exactly if enough bytes have been
dropped. -/
structure Traceable (t : Trailer) (reply : List Bytes → Bytes) (view : σ → View (List Bytes))
    (frame : Bytes) (j : Journal σ) (o : Outcome (Journal σ) Bytes) : Prop where
  aligned : ∃ k, Aligned reply k (view o.state.inner)
  sent : ∃ n, (view o.state.inner).memory = (view j.inner).memory ++ List.replicate n frame
  answered : endsTransient o.result = false →
    ∃ i, AnsweredBy t reply (view o.state.inner) o.result i ∧
      ∀ N ≤ (view j.inner).memory.length,
        (N ≤ i ↔ (view j.inner).unread.length + bytesDropped view j.drops ≤
          bytesSince reply N (view j.inner) + bytesDropped view o.state.drops)

namespace Engine

lemma endsTransient_judge {r : Except Fault Reply} (h : endsTransient r = true) :
    endsTransient (judge r) = true := by
  rcases r with f | p
  · exact h
  · exact absurd h Bool.false_ne_true

section Attempt

variable {S : ByteStream σ} {view : σ → View (List Bytes)} {reply : List Bytes → Bytes}
  (h : S.Faces (Peer.late reply) view) {t : Trailer} (hw : WellFormed t reply) (c : Settings)
include h hw

/-- Receiving brings the next reply, or a transient fault and nothing. -/
lemma receive_late (ms : Nat) {s : σ} {k : Nat} (hk : Aligned reply k (view s)) :
    (endsTransient (S.receive ms s).result = true ∧ view (S.receive ms s).state = view s) ∨
    (S.receive ms s).result = .ok (reply ((view s).memory.take (k + 1))) ∧
      Aligned reply (k + 1) (view (S.receive ms s).state) ∧
      (view (S.receive ms s).state).memory = (view s).memory := by
  rcases Nat.eq_zero_or_pos ms with rfl | hpos
  · obtain ⟨hres, hst⟩ := S.receive_zero s
    left
    rw [hres, hst]
    exact ⟨rfl, rfl⟩
  · obtain ⟨taken, hview, hread⟩ := h.receive_spec hpos s
    cases hr : (S.receive ms s).result with
    | error f =>
      rw [hr] at hread
      obtain ⟨hshort, hstop⟩ := hread
      left
      refine ⟨?_, hk.unreceived hw hview hshort hstop⟩
      obtain ⟨r, -, rfl⟩ := hstop
      exact IoFault.isTransient_endFault r
    | ok raw =>
      rw [hr] at hread
      obtain ⟨rfl, hlen⟩ := hread
      obtain ⟨-, hreply, hnext⟩ := hk.received hw hview hlen
      right
      rw [← hreply]
      exact ⟨rfl, hnext, by rw [hview, View.memory_putBack]⟩

/-- Up to the reading of a reply: either a transient fault, and nothing has been read, or the next
reply. -/
lemma converse_late {body frame : Bytes} (hf : Frame.encode t body = .ok frame) {s : σ} {k : Nat}
    (hk : Aligned reply k (view s)) :
    (endsTransient ((S.engine t c).converse frame s).result = true ∧
      (view ((S.engine t c).converse frame s).state = view s ∨
        view ((S.engine t c).converse frame s).state =
          (Peer.late reply).receives frame (view s))) ∨
    ∃ p, ((S.engine t c).converse frame s).result = .ok p ∧
      Frame.decode t (reply (((view s).memory ++ [frame]).take (k + 1))) = .ok p ∧
      Aligned reply (k + 1) (view ((S.engine t c).converse frame s).state) ∧
      (view ((S.engine t c).converse frame s).state).memory = (view s).memory ++ [frame] := by
  obtain ⟨hne, hdecl⟩ := Frame.declared_of_encode hf
  have hsend := h.send_spec hdecl hne hk.held
  cases hs : (S.send frame s).result with
  | error f =>
    rw [hs] at hsend
    obtain ⟨hres, hst⟩ := converse_unsent (e := S.engine t c) hs
    left
    rw [hres, hst]
    exact hsend
  | ok _ =>
    rw [hs] at hsend
    have hnext : Aligned reply k (view (S.send frame s).state) := by
      rw [hsend]
      exact hk.receives frame
    obtain ⟨hres, hst⟩ := converse_sent (e := S.engine t c) hs
    rcases receive_late h hw c.timeoutMs hnext with ⟨htrans, hview⟩ | ⟨hraw, hview, hmem⟩
    · left
      rw [hres, hst]
      refine ⟨?_, .inr (hview.trans hsend)⟩
      show endsTransient ((S.receive c.timeoutMs (S.send frame s).state).result.bind _) = true
      cases hr : (S.receive c.timeoutMs (S.send frame s).state).result with
      | error f =>
        rw [hr] at htrans
        exact htrans
      | ok raw =>
        rw [hr] at htrans
        exact absurd htrans Bool.false_ne_true
    · right
      rw [hsend] at hraw hmem
      obtain ⟨p, hp⟩ := hw (((view s).memory ++ [frame]).take (k + 1))
      rw [hres, hst]
      refine ⟨p, ?_, hp, hview, hmem⟩
      show (S.receive c.timeoutMs (S.send frame s).state).result.bind _ = _
      rw [hraw]
      exact hp

/-- After a transient fault the replies are aligned again.  From the replies on that are of
interest, what is unread and what has been dropped make up what was unread before. -/
lemma attempt_late {body frame : Bytes} (hf : Frame.encode t body = .ok frame) {s : σ} {k : Nat}
    (hk : Aligned reply k (view s))
    (ht : endsTransient ((S.engine t c).attempt frame s).result = true) :
    ∃ k' n, Aligned reply k' (view ((S.engine t c).attempt frame s).state) ∧
      (view ((S.engine t c).attempt frame s).state).memory =
        (view s).memory ++ List.replicate n frame ∧
      ∀ N ≤ (view s).memory.length,
        bytesSince reply N (view ((S.engine t c).attempt frame s).state) + (view s).unread.length =
          bytesSince reply N (view s) +
            (view ((S.engine t c).attempt frame s).state).unread.length +
            bytesDropped view [(((S.engine t c).converse frame s).state,
              ((S.engine t c).attempt frame s).state)] := by
  rw [result_attempt] at ht
  rw [state_attempt_transient ht]
  rcases converse_late h hw c hf hk with ⟨-, hconv⟩ | ⟨p, hres, -⟩
  · obtain ⟨-, taken, f, hdrop, hstop⟩ := h.discard_spec ((S.engine t c).converse frame s).state
    -- Before the input is dropped: the frame has been sent, or not, and nothing has been read.
    have hsent : Aligned reply k (view ((S.engine t c).converse frame s).state) ∧
        (∃ n, (view ((S.engine t c).converse frame s).state).memory =
          (view s).memory ++ List.replicate n frame) ∧
        ∀ N ≤ (view s).memory.length,
          bytesSince reply N (view ((S.engine t c).converse frame s).state) +
            (view s).unread.length = bytesSince reply N (view s) +
              (view ((S.engine t c).converse frame s).state).unread.length := by
      rcases hconv with hsame | hnext
      · rw [hsame]
        exact ⟨hk, ⟨0, (List.append_nil _).symm⟩, fun N _ => rfl⟩
      · rw [hnext]
        exact ⟨hk.receives frame, ⟨1, rfl⟩, fun N hN => bytesSince_receives hN frame⟩
    obtain ⟨haligned, ⟨n, hn⟩, hbytes⟩ := hsent
    obtain ⟨k', hk'⟩ := haligned.dropped hdrop hstop
    have hmem : (view (S.discard ((S.engine t c).converse frame s).state).state).memory =
        (view ((S.engine t c).converse frame s).state).memory := by
      rw [hdrop, View.memory_putBack]
    have hlen := congrArg (fun v => v.unread.length) hdrop
    simp only [View.unread_putBack, List.length_append] at hlen
    refine ⟨k', n, hk', hmem.trans hn, fun N hN => ?_⟩
    have hN' := hbytes N hN
    have hsince : bytesSince reply N
        (view (S.discard ((S.engine t c).converse frame s).state).state) =
        bytesSince reply N (view ((S.engine t c).converse frame s).state) := by
      unfold bytesSince
      rw [hmem]
    show bytesSince reply N (view (S.discard _).state) + _ =
      _ + (view (S.discard _).state).unread.length +
        ((view ((S.engine t c).converse frame s).state).unread.length -
          (view (S.discard _).state).unread.length + 0)
    omega
  · rw [hres] at ht
    exact absurd ht Bool.false_ne_true

/-- An attempt without a transient fault has read the next reply. -/
lemma attempt_late_settled {body frame : Bytes} (hf : Frame.encode t body = .ok frame) {s : σ}
    {k : Nat} (hk : Aligned reply k (view s))
    (ht : endsTransient ((S.engine t c).attempt frame s).result = false) :
    AnsweredBy t reply (view ((S.engine t c).attempt frame s).state)
        (judge ((S.engine t c).attempt frame s).result) k ∧
      (view ((S.engine t c).attempt frame s).state).memory = (view s).memory ++ [frame] := by
  rw [result_attempt] at ht ⊢
  rw [state_attempt_settled ht]
  rcases converse_late h hw c hf hk with ⟨htrans, -⟩ | ⟨p, hres, hp, hk', hmem⟩
  · exact absurd (ht.symm.trans htrans) Bool.false_ne_true
  · rw [hres]
    refine ⟨⟨hk', p, ?_, rfl⟩, hmem⟩
    rw [hmem]
    exact hp

/-- An attempt without a transient fault ends its exchange. -/
lemma traceable_settled {body frame : Bytes} (hf : Frame.encode t body = .ok frame)
    {j : Journal σ} {k : Nat} (hk : Aligned reply k (view j.inner)) {o : Outcome (Journal σ) Bytes}
    (ht : endsTransient ((S.engine t c).attempt frame j.inner).result = false)
    (hres : o.result = judge ((S.engine t c).attempt frame j.inner).result)
    (hst : o.state = ((S.engine t c).journaled.attempt frame j).state) :
    Traceable t reply view frame j o := by
  obtain ⟨hby, hmem⟩ := attempt_late_settled h hw c hf hk ht
  rw [state_attempt_journaled, ht] at hst
  have hinner : o.state.inner = ((S.engine t c).attempt frame j.inner).state := by rw [hst]
  have hdrops : o.state.drops = j.drops := by rw [hst]; exact List.append_nil _
  refine ⟨⟨k + 1, ?_⟩, ⟨1, ?_⟩, fun _ => ⟨k, ?_, fun N hN => ?_⟩⟩
  · rw [hinner]
    exact hby.1
  · rw [hinner, hmem]
    rfl
  · rw [hinner, hres]
    exact hby
  · -- Nothing was dropped, so it is what was unread that decides.
    rw [hk.le_iff hw hN, hdrops]
    omega

/-- What can be said of the attempts after one with a transient fault can be said of all. -/
lemma traceable_repeated {body frame : Bytes} (hf : Frame.encode t body = .ok frame)
    {j : Journal σ} {k : Nat} (hk : Aligned reply k (view j.inner)) {o : Outcome (Journal σ) Bytes}
    (ht : endsTransient ((S.engine t c).attempt frame j.inner).result = true)
    (ho : Traceable t reply view frame ((S.engine t c).journaled.attempt frame j).state o) :
    Traceable t reply view frame j o := by
  obtain ⟨haligned, ⟨m, hm⟩, hanswered⟩ := ho
  obtain ⟨-, n, -, hn, hbytes⟩ := attempt_late h hw c hf hk ht
  rw [state_attempt_journaled, ht, if_pos rfl] at hm hanswered
  refine ⟨haligned, ⟨n + m, ?_⟩, fun hend => ?_⟩
  · rw [hm]
    show (view ((S.engine t c).attempt frame j.inner).state).memory ++ _ = _
    rw [hn, List.append_assoc, List.replicate_append_replicate]
  · obtain ⟨i, hby, howns⟩ := hanswered hend
    refine ⟨i, hby, fun N hN => ?_⟩
    have hN' : N ≤ (view ((S.engine t c).attempt frame j.inner).state).memory.length := by
      rw [hn, List.length_append]
      exact Nat.le_add_right_of_le hN
    have hsplit : bytesDropped view (j.drops ++ [(((S.engine t c).converse frame j.inner).state,
        ((S.engine t c).attempt frame j.inner).state)]) = bytesDropped view j.drops +
        bytesDropped view [(((S.engine t c).converse frame j.inner).state,
          ((S.engine t c).attempt frame j.inner).state)] := bytesDropped_append view _ _
    have hiff := howns N hN'
    have hsum := hbytes N hN
    dsimp only at hiff
    rw [hiff, hsplit]
    omega

/-- All attempts of an exchange together. -/
lemma attempts_late {body frame : Bytes} (hf : Frame.encode t body = .ok frame) (cmd : Command)
    (bound left : Nat) (j : Journal σ) {k : Nat} (hk : Aligned reply k (view j.inner)) :
    Traceable t reply view frame j
      ((S.engine t c).journaled.attempts cmd frame bound left j) := by
  have hsame : ∀ j, ((S.engine t c).journaled.attempt frame j).result =
      ((S.engine t c).attempt frame j.inner).result := fun j =>
    ((S.engine t c).journaled_corresponds.attempt body frame hf rfl).1
  induction left, j using attempts_induct (S.engine t c).journaled frame generalizing k with
  | settled left j ht =>
    obtain ⟨hres, hst⟩ := attempts_settled cmd bound left ht
    rw [hsame] at ht hres
    exact traceable_settled h hw c hf hk ht hres hst
  | exhausted j ht =>
    obtain ⟨hres, hst⟩ := attempts_zero (e := (S.engine t c).journaled) (s := j) cmd bound
    rw [hsame] at ht hres
    obtain ⟨k', n, hk', hn, -⟩ := attempt_late h hw c hf hk ht
    rw [state_attempt_journaled] at hst
    refine ⟨⟨k', ?_⟩, ⟨n, ?_⟩, fun hend => ?_⟩
    · rw [hst]
      exact hk'
    · rw [hst]
      exact hn
    · rw [hres] at hend
      exact absurd (hend.symm.trans (endsTransient_judge ht)) Bool.false_ne_true
  | repeated left j ht ih =>
    obtain ⟨hres, hst⟩ := attempts_repeated cmd bound left ht
    rw [hsame] at ht
    obtain ⟨k', -, hk', -⟩ := attempt_late h hw c hf hk ht
    have hrest := ih (k := k') (by rw [state_attempt_journaled]; exact hk')
    have hall : Traceable t reply view frame j _ := traceable_repeated h hw c hf hk ht hrest
    obtain ⟨haligned, hsent, hanswered⟩ := hall
    refine ⟨?_, ?_, ?_⟩
    · rwa [hst]
    · rwa [hst]
    · rwa [hst, hres]

end Attempt

end Engine

/-! ## Runs of exchanges -/

/-- One exchange of a run. -/
structure Turn (σ : Type) where
  /-- The question. -/
  call : Call
  /-- The state in which it was asked. -/
  before : σ
  /-- What came of it. -/
  result : Except Fault Bytes
  /-- The state afterwards. -/
  after : σ
  /-- The states before and after each dropping of input on the way. -/
  drops : List (σ × σ)

/-- The exchange has been answered by the reader, with success or not. -/
def Turn.Answered (x : Turn σ) : Prop :=
  (∃ payload, x.result = .ok payload) ∨ ∃ code, x.result = .error (.readerStatus code)

/-- Frame number `i` was sent in the exchange, and with its command. -/
def Turn.Owns (t : Trailer) (view : σ → View (List Bytes)) (x : Turn σ) (i : Nat) : Prop :=
  (view x.before).memory.length ≤ i ∧
    ∃ frame, Frame.encode t x.call.command.body = .ok frame ∧
      (view x.after).memory[i]? = some frame

namespace Engine

/-- One exchange, from a state on. -/
def turn (e : Engine σ) (q : Call) (s : σ) : Turn σ where
  call := q
  before := s
  result := (e.serve q s).result
  after := (e.serve q s).state
  drops := (e.journaled.serve q { inner := s }).state.drops

/-- A run of exchanges, one after the other. -/
def turns (e : Engine σ) : List Call → σ → List (Turn σ)
  | [], _ => []
  | q :: qs, s => e.turn q s :: e.turns qs (e.turn q s).after

section Run

variable {S : ByteStream σ} {view : σ → View (List Bytes)} {reply : List Bytes → Bytes}
  (h : S.Faces (Peer.late reply) view) {t : Trailer} (hw : WellFormed t reply) (c : Settings)
include h hw

/-- One exchange as a whole. -/
lemma serve_late (q : Call) {s : σ} {k : Nat} (hk : Aligned reply k (view s)) :
    (∃ k', Aligned reply k' (view ((S.engine t c).serve q s).state)) ∧
      ∀ frame, Frame.encode t q.command.body = .ok frame →
        Traceable t reply view frame { inner := s }
          ((S.engine t c).journaled.serve q { inner := s }) := by
  cases hf : Frame.encode t q.command.body with
  | error f =>
    have hst : (S.engine t c).serve q s = Run.fail f s :=
      congrFun (serve_of_refused (e := S.engine t c) hf) s
    refine ⟨⟨k, ?_⟩, fun frame hframe => by cases hframe⟩
    rw [hst]
    exact hk
  | ok frame =>
    have hall : Traceable t reply view frame { inner := s }
        ((S.engine t c).journaled.serve q { inner := s }) := by
      rw [serve_of_encode (e := (S.engine t c).journaled) hf]
      exact attempts_late h hw c hf _ _ _ { inner := s } hk
    have hinner := ((S.engine t c).journaled_corresponds.serve q (s := { inner := s }) rfl).2
    refine ⟨?_, fun frame' hframe => ?_⟩
    · rw [← hinner]
      exact hall.aligned
    · rw [← Except.ok.inj hframe]
      exact hall

/-- The answer of one exchange, and when it is the exchange's own. -/
lemma turn_owns (q : Call) {s : σ} {k : Nat} (hk : Aligned reply k (view s))
    (hx : ((S.engine t c).turn q s).Answered) :
    ∃ i, AnsweredBy t reply (view ((S.engine t c).turn q s).after)
        ((S.engine t c).turn q s).result i ∧
      (((S.engine t c).turn q s).Owns t view i ↔
        (view s).unread.length ≤ bytesDropped view ((S.engine t c).turn q s).drops) := by
  obtain ⟨hsame, hinner⟩ :=
    (S.engine t c).journaled_corresponds.serve q (s := { inner := s }) rfl
  cases hf : Frame.encode t q.command.body with
  | error f =>
    have hserve : (S.engine t c).serve q s = Run.fail f s :=
      congrFun (serve_of_refused (e := S.engine t c) hf) s
    obtain ⟨text, rfl⟩ := Frame.exists_of_encode_eq_error hf
    have hresult : ((S.engine t c).turn q s).result = .error (.validation text) := by
      show ((S.engine t c).serve q s).result = _
      rw [hserve, Run.result_fail]
    -- A refusal is no answer.
    exfalso
    rcases hx with ⟨payload, hp⟩ | ⟨code, hcode⟩
    · rw [hresult] at hp
      cases hp
    · rw [hresult] at hcode
      cases hcode
  | ok frame =>
    obtain ⟨-, ⟨n, hn⟩, hanswered⟩ := (serve_late h hw c q hk).2 frame hf
    have hend : endsTransient ((S.engine t c).turn q s).result = false := by
      rcases hx with ⟨payload, hp⟩ | ⟨code, hcode⟩
      · rw [hp]
        rfl
      · rw [hcode]
        rfl
    obtain ⟨i, hby, howns⟩ := hanswered (by rw [hsame]; exact hend)
    rw [hsame, hinner] at hby
    have hmem : (view ((S.engine t c).serve q s).state).memory =
        (view s).memory ++ List.replicate n frame := by rw [← hn, hinner]
    have hiff := howns (view s).memory.length (Nat.le_refl _)
    have hnone : bytesSince reply (view s).memory.length (view s) = 0 := by
      unfold bytesSince
      rw [List.drop_of_length_le (Nat.le_of_eq (length_replies reply _))]
      rfl
    have hstart : (view s).memory.length ≤ i ↔
        (view s).unread.length ≤ bytesDropped view ((S.engine t c).turn q s).drops := by
      refine hiff.trans ?_
      show (view s).unread.length + 0 ≤ bytesSince reply _ (view s) + _ ↔ _
      rw [hnone, Nat.add_zero, Nat.zero_add]
      rfl
    refine ⟨i, hby, Iff.trans ⟨And.left, fun hle => ⟨hle, frame, hf, ?_⟩⟩ hstart⟩
    -- All frames from the first one of the exchange on are the same.
    have hle' : (view s).memory.length ≤ i := hle
    have hlt : i < (view ((S.engine t c).serve q s).state).memory.length := hby.1.le
    show (view ((S.engine t c).serve q s).state).memory[i]? = some frame
    rw [hmem] at hlt ⊢
    rw [List.length_append, List.length_replicate] at hlt
    rw [List.getElem?_append_right hle', List.getElem?_replicate]
    exact if_pos (by omega)

/-- **When an answer belongs to its exchange.**  Let a stream lead to a reader that answers every
frame with one reply, whole and in order, after any delay.  In a run of exchanges every answer is
what some reply says.  That reply answers a frame of the exchange itself, with its own command,
exactly if the input that was dropped during the exchange has at least as many bytes as were to be
read when it began. -/
theorem turn_owns_iff {s : σ} (hs : view s = { memory := [] }) (qs : List Call) :
    ∀ x ∈ (S.engine t c).turns qs s, x.Answered →
      ∃ i, AnsweredBy t reply (view x.after) x.result i ∧
        (x.Owns t view i ↔ (view x.before).unread.length ≤ bytesDropped view x.drops) := by
  have hstart : Aligned reply 0 (view s) := by
    rw [hs]
    exact ⟨rfl, Nat.le_refl 0, rfl⟩
  -- Later exchanges begin with some number of replies read, and perhaps not all.
  clear hs
  generalize 0 = k at hstart
  induction qs generalizing s k with
  | nil => exact fun x hx => absurd hx List.not_mem_nil
  | cons q qs ih =>
    intro x hx
    rcases List.mem_cons.1 hx with rfl | hx
    · exact turn_owns h hw c q hstart
    · obtain ⟨⟨k', hk'⟩, -⟩ := serve_late h hw c q hstart
      exact ih k' hk' x hx

end Run

/-- A reader that says which frame it answers: its first reply carries one, and all others two. -/
def counting (frames : List Bytes) : Bytes :=
  [0x06, 0x00, 0x00, 0x00, 0x00, if frames.length = 1 then 0x01 else 0x02]

/-- The stream to a late reader, where reads may run out of time between two replies. -/
def lateWire : ByteStream (Wire (List Bytes)) :=
  Wire.stream (Peer.late counting) fun frames unread =>
    (List.range (frames.length + 1)).any fun k =>
      unread == ((replies counting frames).drop k).flatten

/-- Two exchanges, without retries, the first of which runs out of time twice. -/
def lateStart : Wire (List Bytes) := { view := { memory := [] }, plan := [0, 0] }

/-- The reply to the first command arrives after the input has been dropped, and is taken for the
answer to the second one. -/
theorem turn_owns_late :
    lateWire.Faces (Peer.late counting) Wire.view ∧ WellFormed .absent counting ∧
      ∃ x ∈ (lateWire.engine .absent { retries := 0 }).turns
          [⟨⟨0x01, 0x02, []⟩, none⟩, ⟨⟨0x03, 0x04, []⟩, none⟩] lateStart,
        x.result = .ok [0x01] ∧
          ∃ i, AnsweredBy .absent counting (Wire.view x.after) x.result i ∧
            ¬x.Owns .absent Wire.view i := by
  have hfaces : lateWire.Faces (Peer.late counting) Wire.view := by
    refine Wire.faces _ _ fun frames unread hquiet => ?_
    rcases hquiet with rfl | hquiet
    · refine ⟨frames.length, ?_⟩
      rw [List.drop_of_length_le (Nat.le_of_eq (length_replies counting frames))]
      rfl
    · obtain ⟨k, -, hk⟩ := List.any_eq_true.1 hquiet
      exact ⟨k, beq_iff_eq.1 hk⟩
  have hw : WellFormed .absent counting := fun frames => ⟨_, rfl⟩
  let e := lateWire.engine .absent { retries := 0 }
  let x := e.turn ⟨⟨0x03, 0x04, []⟩, none⟩ (e.turn ⟨⟨0x01, 0x02, []⟩, none⟩ lateStart).after
  have hx : x ∈ e.turns [⟨⟨0x01, 0x02, []⟩, none⟩, ⟨⟨0x03, 0x04, []⟩, none⟩] lateStart :=
    List.mem_cons_of_mem _ List.mem_cons_self
  have hresult : x.result = .ok [0x01] := by cbv
  have hunread : (Wire.view x.before).unread.length = 6 := by cbv
  have hdropped : bytesDropped Wire.view x.drops = 0 := by cbv
  obtain ⟨i, hby, howns⟩ := turn_owns_iff hfaces hw { retries := 0 } (s := lateStart) rfl _ x hx
    (.inl ⟨_, hresult⟩)
  refine ⟨hfaces, hw, x, hx, hresult, i, hby, fun hown => ?_⟩
  have hle := howns.1 hown
  rw [hunread, hdropped] at hle
  exact absurd hle (by decide)

end Engine

end TagReader
