/-
# A wire to a peer

For any peer there are streams with it at the other end.  A `Wire` is one of them, with a plan
for its reads: how many bytes each of them brings at most, where zero stands for a read that runs
out of time, if the peer allows that.  Writes are taken as a whole.
-/
import TagReader.Proofs.Peer

namespace TagReader

variable {ω : Type}

/-- The state of a wire. -/
structure Wire (ω : Type) where
  /-- The peer at the other end. -/
  view : View ω
  /-- How many bytes the next reads bring at most; a read that is not planned brings all. -/
  plan : List Nat := []

namespace Wire

/-- What a read reports that runs out of time. -/
def late : IoFault := ⟨.timedOut, "nothing in time"⟩

/-- One read.  Time runs out if nothing is unread, or if that is planned and `quiet` allows it. -/
def read (quiet : ω → Bytes → Bool) (n : Nat) (w : Wire ω) : Except IoFault Bytes × Wire ω :=
  let room := w.plan.headD n
  if w.view.unread = [] ∨ room = 0 ∧ quiet w.view.memory w.view.unread then
    (.error late, { w with plan := w.plan.tail })
  else
    (.ok (w.view.unread.take (min n (max 1 room))),
      { view := { w.view with unread := w.view.unread.drop (min n (max 1 room)) }
        plan := w.plan.tail })

/-- One write.  A frame that it completes is answered. -/
def write (p : Peer ω) (bs : Bytes) (w : Wire ω) : Except IoFault Nat × Wire ω :=
  let held := w.view.held ++ bs
  (.ok bs.length,
    { w with view :=
        if held.length = Frame.declared held then p.receives held w.view
        else { w.view with held := held } })

variable (p : Peer ω) (quiet : ω → Bytes → Bool)

lemma length_read {n : Nat} {w : Wire ω} {bs : Bytes} (h : (w.read quiet n).1 = .ok bs) :
    bs.length ≤ n := by
  unfold read at h
  dsimp only at h
  split at h
  · cases h
  · obtain rfl := Except.ok.inj h
    rw [List.length_take]
    omega

lemma length_unread_read {n : Nat} {w : Wire ω} (h : IoFault.goesOn (w.read quiet n).1 = true) :
    (w.read quiet n).2.view.unread.length < w.view.unread.length := by
  unfold read at h ⊢
  dsimp only at h ⊢
  split at h
  · simp [IoFault.goesOn, late] at h
  · rename_i hne
    rw [if_neg hne]
    simp only [IoFault.goesOn, Bool.not_eq_true', List.isEmpty_eq_false_iff, ne_eq,
      List.take_eq_nil_iff, not_or] at h
    have hpos := List.length_pos_iff.2 h.2
    rw [List.length_drop]
    omega

/-- The stream over a wire. -/
def stream : ByteStream (Wire ω) where
  read := read quiet
  write := write p
  flush w := (.ok (), w)
  setTimeout _ w := (.ok (), w)
  supply w := w.view.unread.length
  stalls _ := 0
  length_read := length_read quiet
  supply_read := length_unread_read quiet
  supply_setTimeout _ _ := Nat.le_refl _
  stalls_write h _ := by cases h

/-- A wire has the peer at its other end, if that may be silent where it is. -/
theorem faces
    (hquiet : ∀ m u, u = [] ∨ quiet m u = true → p.silence m u (.error late)) :
    (stream p quiet).Faces p Wire.view := by
  refine ⟨fun {n} w hn => ?_, fun {bs} w hbs => ?_, fun _ => rfl, fun _ _ => ⟨rfl, rfl⟩⟩
  · show p.Reads w.view (w.read quiet n).1 (w.read quiet n).2.view
    unfold read
    dsimp only
    split
    · rename_i hstop
      exact .silent (hquiet _ _ (hstop.imp_right And.right)) rfl
    · rename_i hgo
      have hroom : w.view.unread.take (min n (max 1 (w.plan.headD n))) ≠ [] := by
        rw [ne_eq, List.take_eq_nil_iff]
        rintro (hz | hz)
        · omega
        · exact hgo (.inl hz)
      have hsplit : w.view = View.putBack (w.view.unread.take (min n (max 1 (w.plan.headD n))))
          { w.view with unread := w.view.unread.drop (min n (max 1 (w.plan.headD n))) } := by
        simp [View.putBack]
      nth_rewrite 1 [hsplit]
      exact .bytes hroom
  · show p.Writes bs w.view (.ok bs.length) (w.write p bs).2.view
    have hpos := List.length_pos_iff.2 hbs
    have htake : w.view.held ++ bs.take bs.length = w.view.held ++ bs := by rw [List.take_length]
    unfold write
    dsimp only
    split
    · rename_i heq
      have hwhole : p.Writes bs w.view (.ok bs.length) _ := .whole hpos (by rwa [htake])
      rwa [htake] at hwhole
    · rename_i hne
      rcases Nat.lt_or_gt_of_ne hne with hlt | hgt
      · have hpart : p.Writes bs w.view (.ok bs.length) _ := .part hpos (by rwa [htake])
        rwa [htake] at hpart
      · exact .beyond hpos (by rwa [htake])

end Wire

end TagReader
