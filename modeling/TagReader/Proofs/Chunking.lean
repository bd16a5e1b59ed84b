/-
# Frames out of any pieces

What arrives on a stream comes in pieces that have nothing to do with frames: a piece may end within
a frame, or hold the end of one and the beginning of the next; a read takes a chunk of it and no
more; and a read may be interrupted anywhere.  This file shows that a receiver notices none of this.

* `Arrival.signs` forgets the pieces.  What remains are bytes, ends of the stream and failures, one
  after the other (`Channel.signs`).
* `Sign.Takes` says in these terms what comes of reading so many bytes and what is left after that.
  The number may depend on the bytes themselves, as that of a frame does on its first one; still
  there is only one way to take a frame (`Sign.Takes.unique`).
* Reading takes as many bytes as there is room for (`Channel.Calm.readFull_takes`), and receiving
  takes a frame (`Channel.Calm.receive_takes`).

The main result is `Channel.receive_unchunked`.
-/
import TagReader.Proofs.Peer
import TagReader.Stream.Channel

namespace TagReader

/-! ## Arrivals without their boundaries -/

/-- What a reader meets that goes through the arrivals byte by byte. -/
inductive Sign where
  /-- A byte. -/
  | byte (b : UInt8)
  /-- The end of the stream. -/
  | closed
  /-- A failure. -/
  | fault (e : IoFault)
deriving DecidableEq

/-- An arrival without its boundaries.  An interruption leaves no trace, as the read is made again.
For a reader, a read that brings no bytes is the end of the stream. -/
def Arrival.signs : Arrival → List Sign
  | bytes [] => [.closed]
  | bytes bs => bs.map .byte
  | closed => [.closed]
  | fault e => if e.kind = .interrupted then [] else [.fault e]

/-- All arrivals without their boundaries. -/
def Channel.signs (c : Channel) : List Sign := c.arrivals.flatMap Arrival.signs

lemma Arrival.signs_bytes {bs : Bytes} (h : bs ≠ []) : (bytes bs).signs = bs.map .byte := by
  cases bs with
  | nil => exact absurd rfl h
  | cons b bs => rfl

lemma Channel.flatMap_remainder (bs : Bytes) (rest : List Arrival) :
    (remainder bs rest).flatMap Arrival.signs = bs.map .byte ++ rest.flatMap Arrival.signs := by
  cases bs with
  | nil => rfl
  | cons b bs => rfl

namespace Sign

/-- A reader needs another byte and does not get it: the fault that this is, and what is left. -/
inductive Breaks : List Sign → Fault → List Sign → Prop where
  /-- Nothing is there. -/
  | exhausted : Breaks [] .timeout []
  /-- The stream has ended. -/
  | closed (q : List Sign) : Breaks (.closed :: q) (.communication "connection closed") q
  /-- The stream has run out of time, or would block. -/
  | late {e : IoFault} (h : e.kind = .timedOut ∨ e.kind = .wouldBlock) (q : List Sign) :
    Breaks (.fault e :: q) .timeout q
  /-- The stream has failed in any other way. -/
  | failed {e : IoFault} (h : ¬(e.kind = .timedOut ∨ e.kind = .wouldBlock)) (q : List Sign) :
    Breaks (.fault e :: q) (.communication e.text) q

/-- What comes of taking some bytes, whose number may depend on them, and what is left. -/
inductive Takes (wanted : Bytes → Nat) : List Sign → Except Fault Bytes → List Sign → Prop where
  /-- There are as many bytes as are wanted. -/
  | enough {bs : Bytes} {q : List Sign} (h : bs.length = wanted bs) :
    Takes wanted (bs.map .byte ++ q) (.ok bs) q
  /-- There are fewer, and then something else. -/
  | short {bs : Bytes} {q q' : List Sign} {f : Fault} (h : bs.length < wanted bs)
    (breaks : Breaks q f q') : Takes wanted (bs.map .byte ++ q) (.error f) q'

/-! ## One way to take a frame -/

section Unique

variable {q q' q₁ q₂ : List Sign} {f f' : Fault} {r r' : Except Fault Bytes}

/-- What breaks off does not go on with a byte. -/
lemma Breaks.not_byte (b : UInt8) : ¬Breaks (.byte b :: q) f q' := nofun

lemma Breaks.unique (h : Breaks q f q₁) (h' : Breaks q f' q₂) : f = f' ∧ q₁ = q₂ := by
  cases h with
  | exhausted =>
    cases h'
    exact ⟨rfl, rfl⟩
  | closed =>
    cases h'
    exact ⟨rfl, rfl⟩
  | late h =>
    cases h' with
    | late => exact ⟨rfl, rfl⟩
    | failed h' => exact absurd h h'
  | failed h =>
    cases h' with
    | late h' => exact absurd h' h
    | failed => exact ⟨rfl, rfl⟩

/-- Bytes in front of the same signs: one of the two goes on where the other one ends. -/
lemma exists_append {bs cs : Bytes} (h : bs.map byte ++ q = cs.map byte ++ q')
    (hlen : bs.length ≤ cs.length) : ∃ ds, cs = bs ++ ds ∧ q = ds.map byte ++ q' := by
  induction bs generalizing cs with
  | nil => exact ⟨cs, rfl, h⟩
  | cons b bs ih =>
    cases cs with
    | nil => exact absurd hlen (Nat.not_succ_le_zero _)
    | cons c cs =>
      simp only [List.map_cons, List.cons_append, List.cons.injEq, byte.injEq] at h
      obtain ⟨rfl, htail⟩ := h
      obtain ⟨ds, rfl, hq⟩ := ih htail (Nat.le_of_succ_le_succ hlen)
      exact ⟨ds, rfl, hq⟩

/-- Whoever takes a whole frame does not go beyond it. -/
lemma eq_nil_of_frame {bs ds : Bytes} (h : bs.length = Frame.extent bs)
    (hle : (bs ++ ds).length ≤ Frame.extent (bs ++ ds)) : ds = [] := by
  rw [Frame.extent_append (Frame.ne_nil_of_length_eq_extent h), List.length_append, ← h] at hle
  exact List.length_eq_zero_iff.1 (by omega)

/-- A frame that is there is taken: what breaks off before it is complete is another one. -/
lemma not_short_of_frame {bs cs : Bytes} (h : bs.length = Frame.extent bs)
    (hshort : cs.length < Frame.extent cs) (hbreaks : Breaks q' f q₁) :
    bs.map byte ++ q ≠ cs.map byte ++ q' := by
  intro hsame
  rcases Nat.le_total bs.length cs.length with hle | hle
  · obtain ⟨ds, rfl, -⟩ := exists_append hsame hle
    obtain rfl := eq_nil_of_frame h (Nat.le_of_lt hshort)
    rw [List.append_nil] at hshort
    exact absurd h (Nat.ne_of_lt hshort)
  · obtain ⟨ds, rfl, rfl⟩ := exists_append hsame.symm hle
    cases ds with
    | nil =>
      rw [List.append_nil] at h
      exact absurd h (Nat.ne_of_lt hshort)
    | cons d ds => exact hbreaks.not_byte d

/-- What breaks off after some bytes does so at one place. -/
lemma eq_of_breaks {bs cs : Bytes} (hbreaks : Breaks q f q₁)
    (h : bs.map byte ++ q = cs.map byte ++ q') (hle : bs.length ≤ cs.length) : q = q' := by
  obtain ⟨ds, rfl, rfl⟩ := exists_append h hle
  cases ds with
  | nil => rfl
  | cons d ds => exact absurd hbreaks (Breaks.not_byte d)

/-- **There is one way to take a frame.** -/
theorem Takes.unique (h : Takes Frame.extent q r q₁) (h' : Takes Frame.extent q r' q₂) :
    r = r' ∧ q₁ = q₂ := by
  -- With the signs in a variable of their own, both decompositions of them can be compared.
  generalize hq : q = p at h'
  cases h with
  | @enough bs _ hlen =>
    cases h' with
    | @enough cs _ hlen' =>
      rcases Nat.le_total bs.length cs.length with hle | hle
      · obtain ⟨ds, rfl, rfl⟩ := exists_append hq hle
        obtain rfl := eq_nil_of_frame hlen (Nat.le_of_eq hlen')
        exact ⟨by rw [List.append_nil], rfl⟩
      · obtain ⟨ds, rfl, rfl⟩ := exists_append hq.symm hle
        obtain rfl := eq_nil_of_frame hlen' (Nat.le_of_eq hlen)
        exact ⟨by rw [List.append_nil], rfl⟩
    | short hlen' hbreaks => exact absurd hq (not_short_of_frame hlen hlen' hbreaks)
  | @short bs _ _ f hlen hbreaks =>
    cases h' with
    | enough hlen' => exact absurd hq.symm (not_short_of_frame hlen' hlen hbreaks)
    | @short cs _ _ f' hlen' hbreaks' =>
      have hsame : _ = _ := (Nat.le_total bs.length cs.length).elim (eq_of_breaks hbreaks hq)
        fun hle => (eq_of_breaks hbreaks' hq.symm hle).symm
      obtain rfl := hsame
      obtain ⟨rfl, rfl⟩ := hbreaks.unique hbreaks'
      exact ⟨rfl, rfl⟩

/-- Nothing is taken of what breaks off at once. -/
lemma Takes.of_breaks {wanted : Bytes → Nat} (h : 0 < wanted []) (hbreaks : Breaks q f q') :
    Takes wanted q (.error f) q' := @Takes.short wanted [] q q' f h hbreaks

/-- Bytes that are taken before others. -/
lemma Takes.prepend {bs : Bytes} {room : Nat} (hle : bs.length ≤ room)
    (h : Takes (fun _ => room - bs.length) q r q') :
    Takes (fun _ => room) (bs.map byte ++ q) (r.map (bs ++ ·)) q' := by
  cases h with
  | @enough cs _ hlen =>
    rw [← List.append_assoc, ← List.map_append]
    refine .enough ?_
    rw [List.length_append]
    omega
  | @short cs _ _ f hlen hbreaks =>
    rw [← List.append_assoc, ← List.map_append]
    refine .short ?_ hbreaks
    rw [List.length_append]
    omega

/-- The first byte of a frame says how many more there are to be. -/
lemma Takes.frame {b : UInt8} (h : Takes (fun _ => b.toNat - 1) q r q') :
    Takes Frame.extent (byte b :: q) (r.map ([b] ++ ·)) q' := by
  have hextent (more : Bytes) : Frame.extent (b :: more) = 1 + (b.toNat - 1) := by
    show max 1 b.toNat = 1 + (b.toNat - 1)
    omega
  cases h with
  | @enough more _ hlen =>
    refine @Takes.enough _ (b :: more) _ ?_
    rw [hextent, List.length_cons, hlen, Nat.add_comm]
  | @short more _ _ f hlen hbreaks =>
    refine @Takes.short _ (b :: more) _ _ f ?_ hbreaks
    rw [hextent, List.length_cons]
    omega

end Unique

/-! ## One read -/

/-- All that one read may do to the signs that are there. -/
inductive Reads : List Sign → Except IoFault Bytes → List Sign → Prop where
  /-- It takes some bytes. -/
  | bytes {bs : Bytes} {q : List Sign} (h : bs ≠ []) : Reads (bs.map byte ++ q) (.ok bs) q
  /-- It is interrupted. -/
  | interrupted {e : IoFault} {q : List Sign} (h : e.kind = .interrupted) : Reads q (.error e) q
  /-- It brings nothing. -/
  | nothing {r : Except IoFault Bytes} {q q' : List Sign} (hr : IoFault.goesOn r = false)
    (breaks : Breaks q (IoFault.endFault r) q') : Reads q r q'

section Reads

variable {q q' : List Sign}

lemma Reads.of_ok {bs : Bytes} (h : Reads q (.ok bs) q') (hbs : bs ≠ []) :
    q = bs.map byte ++ q' := by
  cases h with
  | bytes _ => rfl
  | nothing hr =>
    simp only [IoFault.goesOn, Bool.not_eq_false', List.isEmpty_iff] at hr
    exact absurd hr hbs

lemma Reads.of_interrupted {e : IoFault} (h : Reads q (.error e) q') (he : e.kind = .interrupted) :
    q = q' := by
  cases h with
  | interrupted _ => rfl
  | nothing hr => simp [IoFault.goesOn, he] at hr

lemma Reads.of_end {r : Except IoFault Bytes} (h : Reads q r q') (hr : IoFault.goesOn r = false) :
    Breaks q (IoFault.endFault r) q' := by
  cases h with
  | bytes hbs =>
    simp only [IoFault.goesOn, Bool.not_eq_false', List.isEmpty_iff] at hr
    exact absurd hr hbs
  | interrupted he => simp [IoFault.goesOn, he] at hr
  | nothing _ hbreaks => exact hbreaks

/-- A failure that is no interruption breaks off. -/
lemma breaks_fault {e : IoFault} (he : e.kind ≠ .interrupted) (q : List Sign) :
    Breaks (.fault e :: q) e.toFault q := by
  obtain ⟨kind, text⟩ := e
  cases kind with
  | interrupted => exact absurd rfl he
  | timedOut => exact .late (.inl rfl) q
  | wouldBlock => exact .late (.inr rfl) q
  | other => exact .failed (by rintro (h | h) <;> cases h) q

end Reads

end Sign

/-! ## Receiving -/

namespace Channel

/-- The stream gives at least a byte at a time, and lets itself be told how long to wait. -/
structure Calm (c : Channel) : Prop where
  chunk : 1 ≤ c.chunk
  timeouts : ∀ fault ∈ c.timeoutFaults, fault = none

lemma reads_read {n : Nat} (hn : n ≠ 0) {c : Channel} (hc : c.Calm) :
    Sign.Reads c.signs (c.read n).1 (c.read n).2.signs ∧ (c.read n).2.Calm := by
  have hchunk := hc.chunk
  unfold read signs
  cases harrivals : c.arrivals with
  | nil => exact ⟨by rw [harrivals]; exact .nothing rfl .exhausted, hc⟩
  | cons a rest =>
    cases a with
    | bytes bs =>
      refine ⟨?_, hc.chunk, hc.timeouts⟩
      dsimp only
      rw [flatMap_remainder, List.flatMap_cons]
      cases bs with
      | nil =>
        rw [List.take_nil, List.drop_nil]
        exact .nothing rfl (.closed _)
      | cons b bs =>
        have htake : (b :: bs).take (min n c.chunk) ≠ [] := by
          simp only [ne_eq, List.take_eq_nil_iff, reduceCtorEq, or_false]
          omega
        rw [Arrival.signs_bytes (List.cons_ne_nil b bs),
          ← List.take_append_drop (min n c.chunk) (b :: bs), List.map_append, List.append_assoc,
          List.take_append_drop]
        exact .bytes htake
    | closed => exact ⟨.nothing rfl (.closed _), hc.chunk, hc.timeouts⟩
    | fault e =>
      refine ⟨?_, hc.chunk, hc.timeouts⟩
      rw [List.flatMap_cons, Arrival.signs]
      by_cases he : e.kind = .interrupted
      · rw [if_pos he]
        exact .interrupted he
      · rw [if_neg he]
        exact .nothing (by simpa [IoFault.goesOn] using he) (Sign.breaks_fault he _)

namespace Calm

variable {c : Channel} (hc : c.Calm)
include hc

lemma setTimeout_eq (ms : Nat) {r : Except IoFault Unit} {c' : Channel}
    (h : stream.setTimeout ms c = (r, c')) : r = .ok () ∧ c'.signs = c.signs ∧ c'.Calm := by
  have hnext : c.timeoutFaults.head?.join = none := by
    cases hfaults : c.timeoutFaults with
    | nil => rfl
    | cons fault rest =>
      obtain rfl := hc.timeouts fault (hfaults ▸ List.mem_cons_self)
      rfl
  change c.setTimeout ms = (r, c') at h
  unfold setTimeout at h
  rw [hnext] at h
  obtain ⟨rfl, rfl⟩ := Prod.mk.inj h
  exact ⟨rfl, rfl, hc.chunk, fun fault hf => hc.timeouts fault (List.mem_of_mem_tail hf)⟩

/-- One round of the loop: the timeout is set, and then the stream is read. -/
lemma round {ms n : Nat} (hn : n ≠ 0) {u : Unit} {r : Except IoFault Bytes} {c₁ c₂ : Channel}
    (hset : stream.setTimeout ms c = (.ok u, c₁)) (hread : stream.read n c₁ = (r, c₂)) :
    Sign.Reads c.signs r c₂.signs ∧ c₂.Calm := by
  obtain ⟨-, hsigns, hcalm⟩ := hc.setTimeout_eq ms hset
  have hreads := reads_read hn hcalm
  rw [show c₁.read n = (r, c₂) from hread, hsigns] at hreads
  exact hreads

end Calm

/-- Reading takes as many bytes as there is room for. -/
lemma Calm.readFull_takes {ms : Nat} (hms : 0 < ms) (room : Nat) {c : Channel} (hc : c.Calm) :
    Sign.Takes (fun _ => room) c.signs (stream.readFull ms room c).1
        (stream.readFull ms room c).2.signs ∧
      (stream.readFull ms room c).2.Calm := by
  -- The cases are those of the loop, as in `ByteStream.Faces.readFull_spec`.
  fun_induction stream.readFull ms room c with
  | case1 c => exact ⟨@Sign.Takes.enough (fun _ => 0) [] c.signs rfl, hc⟩
  | case2 room c _ hzero => exact absurd hzero (Nat.pos_iff_ne_zero.1 hms)
  | case3 room c _ _ e c₁ hset => cases (hc.setTimeout_eq ms hset).1
  | case4 room c hroom _ _ c₁ hset c₂ hread =>
    obtain ⟨hreads, hcalm⟩ := hc.round hroom hset hread
    exact ⟨.of_breaks (Nat.pos_of_ne_zero hroom) (hreads.of_end rfl), hcalm⟩
  | case5 room c hroom _ _ c₁ hset b bs c₂ hread rest c₃ hrest ih =>
    have hlen : (b :: bs).length ≤ room := stream.length_read (s := c₁) (by rw [hread])
    obtain ⟨hreads, hcalm⟩ := hc.round hroom hset hread
    obtain ⟨htakes, hcalm'⟩ := ih hcalm
    rw [hrest] at htakes hcalm'
    rw [hreads.of_ok (List.cons_ne_nil _ _)]
    exact ⟨htakes.prepend hlen, hcalm'⟩
  | case6 room c hroom _ _ c₁ hset b bs c₂ hread f c₃ hrest ih =>
    have hlen : (b :: bs).length ≤ room := stream.length_read (s := c₁) (by rw [hread])
    obtain ⟨hreads, hcalm⟩ := hc.round hroom hset hread
    obtain ⟨htakes, hcalm'⟩ := ih hcalm
    rw [hrest] at htakes hcalm'
    rw [hreads.of_ok (List.cons_ne_nil _ _)]
    exact ⟨htakes.prepend hlen, hcalm'⟩
  | case7 room c hroom _ _ c₁ hset e c₂ hread he ih =>
    obtain ⟨hreads, hcalm⟩ := hc.round hroom hset hread
    rw [hreads.of_interrupted he]
    exact ih hcalm
  | case8 room c hroom _ _ c₁ hset e c₂ hread he =>
    obtain ⟨hreads, hcalm⟩ := hc.round hroom hset hread
    refine ⟨.of_breaks (Nat.pos_of_ne_zero hroom) ?_, hcalm⟩
    exact hreads.of_end (by simpa [IoFault.goesOn] using he)

/-- Receiving takes a frame. -/
lemma Calm.receive_takes {ms : Nat} (hms : 0 < ms) {c : Channel} (hc : c.Calm) :
    Sign.Takes Frame.extent c.signs (stream.receive ms c).result
        (stream.receive ms c).state.signs ∧
      (stream.receive ms c).state.Calm := by
  obtain ⟨hfirst, hcalm⟩ := hc.readFull_takes hms 1
  unfold ByteStream.receive
  rcases hr : stream.readFull ms 1 c with ⟨f | first, c₁⟩
  · rw [hr] at hfirst hcalm
    refine ⟨?_, hcalm⟩
    generalize c.signs = q at hfirst ⊢
    cases hfirst with
    | short hlen hbreaks =>
      exact .short (Nat.lt_of_lt_of_le hlen (Frame.one_le_extent _)) hbreaks
  · rw [hr] at hfirst hcalm
    obtain ⟨b, rfl, hsigns⟩ : ∃ b, first = [b] ∧ c.signs = Sign.byte b :: c₁.signs := by
      generalize c.signs = q at hfirst ⊢
      cases hfirst with
      | enough hlen =>
        obtain ⟨b, rfl⟩ := List.length_eq_one_iff.1 hlen
        exact ⟨b, rfl, rfl⟩
    obtain ⟨hmore, hcalm'⟩ := hcalm.readFull_takes hms (([b].headD 0).toNat - 1)
    dsimp only
    rw [hsigns]
    rcases hr' : stream.readFull ms (([b].headD 0).toNat - 1) c₁ with ⟨f | more, c₂⟩
    · rw [hr'] at hmore hcalm'
      exact ⟨Sign.Takes.frame hmore, hcalm'⟩
    · rw [hr'] at hmore hcalm'
      exact ⟨Sign.Takes.frame hmore, hcalm'⟩

/-! ## Several calls -/

/-- Receives several times, each time with a wait of its own. -/
def receiveAll : List Nat → Channel → List (Except Fault Bytes) × Channel
  | [], c => ([], c)
  | ms :: waits, c =>
    let r := stream.receive ms c
    let later := receiveAll waits r.state
    (r.result :: later.1, later.2)

/-- Frames that follow each other are received one by one. -/
lemma Calm.receiveAll_frames {waits : List Nat} (hwaits : ∀ ms ∈ waits, 0 < ms)
    {frames : List Bytes} (hlen : waits.length = frames.length)
    (hframes : ∀ frame ∈ frames, frame.length = Frame.extent frame) {q : List Sign} {c : Channel}
    (hc : c.Calm) (hq : c.signs = frames.flatten.map .byte ++ q) :
    (receiveAll waits c).1 = frames.map .ok ∧ (receiveAll waits c).2.signs = q := by
  induction frames generalizing waits c with
  | nil =>
    obtain rfl := List.length_eq_zero_iff.1 hlen
    exact ⟨rfl, hq⟩
  | cons frame frames ih =>
    obtain ⟨ms, waits, rfl⟩ := List.exists_cons_of_length_eq_add_one hlen
    rw [List.forall_mem_cons] at hwaits hframes
    rw [List.flatten_cons, List.map_append, List.append_assoc] at hq
    obtain ⟨htakes, hcalm⟩ := hc.receive_takes hwaits.1
    rw [hq] at htakes
    obtain ⟨hresult, hrest⟩ := htakes.unique (.enough hframes.1)
    obtain ⟨hlater, hleft⟩ := ih hwaits.2 (Nat.succ.inj hlen) hframes.2 hcalm hrest
    rw [receiveAll, hresult]
    exact ⟨congrArg (List.cons _) hlater, hleft⟩

/-- **Receiving does not depend on the pieces in which the bytes arrive.**  Let a stream hold any
arrivals, give any chunks and let itself be told how long to wait, and let there be time.  Then
receiving yields a frame just if the signs begin with the bytes of this frame, as many as its first
byte says and at least one.  These bytes are gone then, and all that follows them is there as it
was.  Otherwise the bytes break off before that; the fault is the one that belongs to what stands
there in their place, and they and this are gone.  So another stream with the same signs yields the
same and is left with the same; and from frames that follow each other, as many calls yield these
frames, in whatever pieces they have arrived. -/
theorem receive_unchunked {ms : Nat} (hms : 0 < ms) {c : Channel} (hc : c.Calm) :
    let r := stream.receive ms c
    (∀ frame, r.result = .ok frame ↔
        frame.length = Frame.extent frame ∧ ∃ q, c.signs = frame.map .byte ++ q) ∧
      (∀ frame, r.result = .ok frame → c.signs = frame.map .byte ++ r.state.signs) ∧
      (∀ f, r.result = .error f → ∃ bs q, bs.length < Frame.extent bs ∧
        c.signs = bs.map .byte ++ q ∧ Sign.Breaks q f r.state.signs) ∧
      (∀ (ms' : Nat) (c' : Channel), 0 < ms' → c'.Calm → c'.signs = c.signs →
        (stream.receive ms' c').result = r.result ∧
          (stream.receive ms' c').state.signs = r.state.signs) ∧
      ∀ (waits : List Nat) (frames : List Bytes) (q : List Sign), (∀ ms ∈ waits, 0 < ms) →
        waits.length = frames.length → (∀ frame ∈ frames, frame.length = Frame.extent frame) →
        c.signs = frames.flatten.map .byte ++ q →
        (receiveAll waits c).1 = frames.map .ok ∧ (receiveAll waits c).2.signs = q := by
  intro r
  obtain ⟨htakes, -⟩ : Sign.Takes Frame.extent c.signs r.result r.state.signs ∧ _ :=
    hc.receive_takes hms
  refine ⟨fun frame => ⟨fun h => ?_, fun ⟨hlen, q, hq⟩ => ?_⟩, fun frame h => ?_, fun f h => ?_,
    fun ms' c' hms' hc' hsame => ?_,
    fun waits frames q hwaits hlen hframes hq => hc.receiveAll_frames hwaits hlen hframes hq⟩
  · rw [h] at htakes
    generalize c.signs = q at htakes ⊢
    cases htakes with
    | enough hlen => exact ⟨hlen, _, rfl⟩
  · rw [hq] at htakes
    exact (htakes.unique (.enough hlen)).1
  · rw [h] at htakes
    generalize c.signs = q at htakes ⊢
    cases htakes with
    | enough _ => rfl
  · rw [h] at htakes
    generalize c.signs = q at htakes ⊢
    cases htakes with
    | short hlen hbreaks => exact ⟨_, _, hlen, rfl, hbreaks⟩
  · have htakes' := (hc'.receive_takes hms').1
    rw [hsame] at htakes'
    exact htakes'.unique htakes

/-- Three frames in pieces, with interruptions, of which a read takes a byte at a time. -/
def scattered : Channel where
  arrivals := [.bytes [0x04], .fault ⟨.interrupted, "signal"⟩, .bytes [0xAA, 0xBB],
    .bytes [0xCC, 0x01, 0x00], .closed]
  chunk := 1

/-- They are received, and the end of the stream is left. -/
theorem receive_unchunked_scattered :
    (0 < 5 ∧ scattered.Calm) ∧
      (stream.receive 5 scattered).result = .ok [0x04, 0xAA, 0xBB, 0xCC] ∧
      (receiveAll [5, 1000, 1] scattered).1 =
        [.ok [0x04, 0xAA, 0xBB, 0xCC], .ok [0x01], .ok [0x00]] ∧
      (receiveAll [5, 1000, 1] scattered).2.signs = [.closed] := by
  have hcalm : scattered.Calm := ⟨by decide, by decide⟩
  obtain ⟨hiff, -, -, -, hall⟩ := receive_unchunked (show 0 < 5 by decide) hcalm
  have hone := (hiff [0x04, 0xAA, 0xBB, 0xCC]).2
    ⟨by decide, [.byte 0x01, .byte 0x00, .closed], by decide⟩
  have hthree := hall [5, 1000, 1] [[0x04, 0xAA, 0xBB, 0xCC], [0x01], [0x00]] [.closed] (by decide)
    (by decide) (by decide) (by decide)
  exact ⟨⟨by decide, hcalm⟩, hone, hthree⟩

end Channel
end TagReader
