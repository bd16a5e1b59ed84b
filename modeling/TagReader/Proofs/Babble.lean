/-
# How often an exchange reads

An exchange makes a bounded number of attempts.  An attempt reads no more often than a frame can
have bytes, and then, after a transient fault, until the stream has nothing more.  So the number of
reads has two parts.

* Outside of the droppings of input it is bounded by the number of attempts
  (`ByteStream.spends_attempts`).
* A dropping of input goes on for as long as the stream brings bytes (`ByteStream.Discards`), and
  nothing else bounds it: there are streams that let an exchange read any number of times
  (`ByteStream.babble_reads`).

The main result is `ByteStream.exchange_reads`, and `ByteStream.not_exists_bound` says that there is
no bound in terms of retries.
-/
import TagReader.Proofs.Framing
import TagReader.Proofs.Metering

namespace TagReader

variable {σ : Type}

/-- How often the input was read while it was dropped, by the states before and after. -/
def readsIn : List (Metered σ × Metered σ) → Nat
  | [] => 0
  | p :: drops => p.2.reads - p.1.reads + readsIn drops

lemma readsIn_append (ps qs : List (Metered σ × Metered σ)) :
    readsIn (ps ++ qs) = readsIn ps + readsIn qs := by
  induction ps with
  | nil => exact (Nat.zero_add _).symm
  | cons p ps ih => rw [List.cons_append, readsIn, readsIn, ih, Nat.add_assoc]

namespace ByteStream

/-! ## Two kinds of reads -/

section Reads

variable (S : ByteStream σ) (t : Trailer) (c : Settings)

/-- The states around a dropping of input, as a meter shows them. -/
def Dropped (p : Metered σ × Metered σ) : Prop :=
  ∃ n, S.Discards p.1.inner n p.2.inner ∧ p.2.reads = p.1.reads + n

/-- What `n` attempts may read: no more often than a frame can have bytes, each of them, and
whatever they drop. -/
def Spends (n : Nat) (j j' : Journal (Metered σ)) : Prop :=
  ∃ ps, j'.drops = j.drops ++ ps ∧ ps.length ≤ n ∧ (∀ p ∈ ps, S.Dropped p) ∧
    j'.inner.reads ≤ j.inner.reads + frameReads * n + readsIn ps

variable {S} in
lemma Spends.trans {n n' : Nat} {j j' j'' : Journal (Metered σ)} (h : S.Spends n j j')
    (h' : S.Spends n' j' j'') : S.Spends (n + n') j j'' := by
  obtain ⟨ps, hdrops, hlen, hps, hreads⟩ := h
  obtain ⟨qs, hdrops', hlen', hqs, hreads'⟩ := h'
  refine ⟨ps ++ qs, ?_, ?_, fun p hp => ?_, ?_⟩
  · rw [hdrops', hdrops, List.append_assoc]
  · rw [List.length_append]
    exact Nat.add_le_add hlen hlen'
  · exact (List.mem_append.1 hp).elim (hps p) (hqs p)
  · rw [readsIn_append, Nat.mul_add]
    omega

/-- A conversation reads no more often than a frame can have bytes. -/
lemma reads_converse (frame : Bytes) (m : Metered σ) :
    ((S.metered.engine t c).converse frame m).state.reads ≤ m.reads + frameReads := by
  have hsend : ((S.metered.engine t c).link.send frame m).state.reads = m.reads :=
    (S.taken_send frame m).2
  rcases hs : ((S.metered.engine t c).link.send frame m).result with f | _
  · rw [(Engine.converse_unsent hs).2, hsend]
    exact Nat.le_add_right _ _
  · rw [(Engine.converse_sent hs).2, ← hsend]
    exact (S.reads_receive _ _).2.2

lemma spends_attempt (frame : Bytes) (j : Journal (Metered σ)) :
    S.Spends 1 j ((S.metered.engine t c).journaled.attempt frame j).state := by
  have hconverse := S.reads_converse t c frame j.inner
  rw [Engine.state_attempt_journaled, Engine.result_attempt]
  cases ht : endsTransient ((S.metered.engine t c).converse frame j.inner).result with
  | false =>
    refine ⟨[], rfl, Nat.zero_le 1, fun p hp => absurd hp List.not_mem_nil, ?_⟩
    rw [Engine.state_attempt_settled ht]
    exact hconverse
  | true =>
    obtain ⟨-, n, hdiscards, hreads⟩ :=
      S.discards_discard ((S.metered.engine t c).converse frame j.inner).state
    rw [Engine.state_attempt_transient ht]
    refine ⟨[(_, _)], rfl, Nat.le_refl 1, fun p hp => ?_, ?_⟩
    · obtain rfl := List.mem_singleton.1 hp
      exact ⟨n, hdiscards, hreads⟩
    · simp only [readsIn]
      omega

/-- The attempts of an exchange. -/
lemma spends_attempts (q : Command) (frame : Bytes) (bound left : Nat) (j : Journal (Metered σ)) :
    S.Spends (left + 1) j
      ((S.metered.engine t c).journaled.attempts q frame bound left j).state := by
  induction left, j using Engine.attempts_induct (S.metered.engine t c).journaled frame with
  | settled left j h =>
    rw [(Engine.attempts_settled q bound left h).2]
    obtain ⟨ps, hdrops, hlen, hps, hreads⟩ := S.spends_attempt t c frame j
    refine ⟨ps, hdrops, Nat.le_trans hlen (Nat.le_add_left 1 left), hps, ?_⟩
    rw [Nat.mul_add]
    omega
  | exhausted j h =>
    rw [(Engine.attempts_zero q bound).2]
    exact S.spends_attempt t c frame j
  | repeated left j h ih =>
    rw [(Engine.attempts_repeated q bound left h).2, Nat.add_comm]
    exact (S.spends_attempt t c frame j).trans ih

/-- **How often an exchange reads.**  Over any stream, and without a change to what it sees, an
exchange drops the input at most once for each of its attempts, and the reads that bring bytes are
at most 255 for each attempt and those of the droppings.  A dropping reads on until a read brings
nothing, and so it makes no more reads than the stream can serve. -/
theorem exchange_reads (bound : Nat) (q : Command) (s : σ) :
    let o := (S.metered.engine t c).journaled.exchangeWithin bound q { inner := { inner := s } }
    (o.result = ((S.engine t c).exchangeWithin bound q s).result ∧
      o.state.inner.inner = ((S.engine t c).exchangeWithin bound q s).state) ∧
    o.state.drops.length ≤ bound + 1 ∧
    o.state.inner.reads ≤ 255 * (bound + 1) + readsIn o.state.drops ∧
    ∀ p ∈ o.state.drops, ∃ n ≤ S.supply p.1.inner,
      S.Discards p.1.inner n p.2.inner ∧ p.2.reads = p.1.reads + n := by
  intro o
  have hjournal := (S.metered.engine t c).journaled_corresponds.exchangeWithin bound q
    (rfl : ({ inner := { inner := s } } : Journal (Metered σ)).inner = { inner := s })
  have hmeter := (S.metered_engine_corresponds t c).exchangeWithin bound q
    (rfl : ({ inner := s } : Metered σ).inner = s)
  refine ⟨⟨hjournal.1.trans hmeter.1, (congrArg Metered.inner hjournal.2).trans hmeter.2⟩, ?_⟩
  have hspends : S.Spends (bound + 1) { inner := { inner := s } } o.state := by
    cases hf : Frame.encode t q.body with
    | ok frame =>
      have ho : o = (S.metered.engine t c).journaled.attempts q frame bound bound _ :=
        congrFun (Engine.exchangeWithin_of_encode hf) _
      rw [ho]
      exact S.spends_attempts t c q frame bound bound _
    | error f =>
      have ho : o = Run.fail f _ := congrFun (Engine.exchangeWithin_of_refused hf) _
      rw [ho]
      exact ⟨[], rfl, Nat.zero_le _, fun p hp => absurd hp List.not_mem_nil, Nat.zero_le _⟩
  obtain ⟨ps, hdrops, hlen, hps, hreads⟩ := hspends
  have hdrops' : o.state.drops = ps := hdrops
  rw [hdrops']
  refine ⟨hlen, ?_, fun p hp => ?_⟩
  · rw [Nat.zero_add] at hreads
    exact hreads
  · obtain ⟨n, hn, hreads⟩ := hps p hp
    exact ⟨n, hn.le_supply, hn, hreads⟩

end Reads

/-! ## A reader that does not fall silent -/

/-- A read that brings a byte of zero, if any of them are to come. -/
def babbleRead : Nat → Nat → Except IoFault Bytes × Nat
  | 0, k => (.ok [], k)
  | _ + 1, 0 => (.error ⟨.timedOut, "silent"⟩, 0)
  | _ + 1, k + 1 => (.ok [0], k)

lemma length_babbleRead {n k : Nat} {bs : Bytes} (h : (babbleRead n k).1 = .ok bs) :
    bs.length ≤ n := by
  match n, k with
  | 0, k =>
    cases h
    exact Nat.le_refl 0
  | n + 1, 0 => cases h
  | n + 1, k + 1 =>
    cases h
    exact Nat.le_add_left 1 n

lemma babbleRead_lt {n k : Nat} (h : IoFault.goesOn (babbleRead n k).1 = true) :
    (babbleRead n k).2 < k := by
  match n, k with
  | 0, k => cases h
  | n + 1, 0 => cases h
  | n + 1, k + 1 => exact Nat.lt_succ_self k

/-- A stream that takes everything, and brings bytes of zero, one at a time.  Its state says how
many of them are still to come. -/
def babble : ByteStream Nat where
  read := babbleRead
  write bs k := (.ok bs.length, k)
  flush k := (.ok (), k)
  setTimeout _ k := (.ok (), k)
  supply k := k
  stalls _ := 0
  length_read := length_babbleRead
  supply_read := babbleRead_lt
  supply_setTimeout _ _ := Nat.le_refl _
  stalls_write h _ := by cases h

/-- All of the bytes are dropped. -/
lemma babble_drain (dropped : Nat) (m : Metered Nat) :
    (babble.metered.drain dropped m).2.reads = m.reads + m.inner := by
  obtain ⟨k, taken, reads⟩ := m
  induction k generalizing dropped reads with
  | zero =>
    rw [drain_eq]
    rfl
  | succ k ih =>
    rw [drain_eq]
    show (babble.metered.drain (dropped + 1) ⟨k, taken, reads + 1⟩).2.reads = reads + (k + 1)
    rw [ih, Nat.add_assoc, Nat.add_comm 1 k]

lemma babble_discard (m : Metered Nat) :
    (babble.metered.discard m).state.reads = m.reads + m.inner := by
  have hset : babble.metered.setTimeout drainTimeoutMs m = (.ok (), m) := rfl
  have hdrain := babble_drain 0 m
  unfold discard
  rw [hset]
  dsimp only
  rcases hd : babble.metered.drain 0 m with ⟨_ | n, m'⟩
  all_goals
    rw [hd] at hdrain
    exact hdrain

/-- Frames are taken whole. -/
lemma babble_send {frame : Bytes} (hframe : frame ≠ []) (m : Metered Nat) :
    (babble.metered.send frame m).result = .ok () ∧
      (babble.metered.send frame m).state = { m with taken := m.taken ++ frame } := by
  have hwrite : babble.metered.write frame m =
      (.ok frame.length, { m with taken := m.taken ++ frame }) := by
    show (_, { m with taken := m.taken ++ frame.take frame.length }) = _
    rw [List.take_length]
  unfold send
  rw [writeAll_of_write hframe hwrite]
  exact ⟨rfl, rfl⟩

/-- A byte of zero is received as a frame of its own. -/
lemma babble_receive {ms : Nat} (hms : ms ≠ 0) (k : Nat) (taken : Bytes) (reads : Nat) :
    (babble.metered.receive ms ⟨k + 1, taken, reads⟩).result = .ok [0] ∧
      (babble.metered.receive ms ⟨k + 1, taken, reads⟩).state = ⟨k, taken, reads + 1⟩ := by
  have hfirst : babble.metered.readFull ms 1 ⟨k + 1, taken, reads⟩ =
      (.ok [0], ⟨k, taken, reads + 1⟩) :=
    readFull_of_read [0] hms (List.cons_ne_nil _ _) rfl rfl
  have hrest : babble.metered.readFull ms (UInt8.toNat 0 - 1) ⟨k, taken, reads + 1⟩ =
      (.ok [], ⟨k, taken, reads + 1⟩) := by
    rw [readFull]
    exact if_pos rfl
  unfold receive
  simp only [hfirst, List.headD_cons, hrest, List.append_nil, and_self]

/-- An attempt takes the first byte for a frame, and drops all others. -/
lemma babble_attempt {frame : Bytes} (hframe : frame ≠ []) (t : Trailer) {c : Settings}
    (hc : c.timeoutMs ≠ 0) (k : Nat) :
    ((babble.metered.engine t c).attempt frame { inner := k + 1 }).state.reads = k + 1 := by
  let e := babble.metered.engine t c
  obtain ⟨hsend, hsent⟩ := babble_send hframe { inner := k + 1 }
  obtain ⟨hreceive, hreceived⟩ := babble_receive hc k ([] ++ frame) 0
  rw [← hsent] at hreceive hreceived
  obtain ⟨hresult, hstate⟩ := Engine.converse_answered (e := e) hsend hreceive
  have hstate' : (e.converse frame { inner := k + 1 }).state = ⟨k, [] ++ frame, 1⟩ :=
    hstate.trans hreceived
  -- The byte announces no byte at all, not even itself.
  have hdecode : Frame.decode t [0] = .error (.frameLength 0 1) :=
    Frame.decode_of_not_sized fun h => absurd h.counted (by decide)
  have htransient : endsTransient (e.converse frame { inner := k + 1 }).result = true := by
    rw [hresult.trans hdecode]
    rfl
  show (e.attempt frame { inner := k + 1 }).state.reads = k + 1
  rw [Engine.state_attempt_transient htransient, hstate']
  exact (babble_discard _).trans (Nat.add_comm 1 k)

/-- The number of reads does not go down. -/
lemma reads_keeps (S : ByteStream σ) (t : Trailer) (c : Settings) (n : Nat) :
    Engine.Corresponds (fun m m' => m = m' ∧ n ≤ m.reads) (S.metered.engine t c)
      (S.metered.engine t c) := by
  refine Engine.keeps (fun frame m hm => ?_) (fun ms m hm => ?_) fun m hm => ?_
  · exact Nat.le_trans hm (Nat.le_of_eq (S.taken_send frame m).2.symm)
  · exact Nat.le_trans hm (S.reads_receive ms m).2.1
  · obtain ⟨-, k, -, hk⟩ := S.discards_discard m
    exact Nat.le_trans hm (Nat.le_trans (Nat.le_add_right _ k) (Nat.le_of_eq hk.symm))

/-- What the first attempt has read, the exchange has read. -/
lemma reads_attempt_le (S : ByteStream σ) (t : Trailer) (c : Settings) {q : Command} {frame : Bytes}
    (hf : Frame.encode t q.body = .ok frame) (bound left : Nat) (m : Metered σ) :
    ((S.metered.engine t c).attempt frame m).state.reads ≤
      ((S.metered.engine t c).attempts q frame bound left m).state.reads := by
  cases ht : endsTransient ((S.metered.engine t c).attempt frame m).result with
  | false =>
    exact Nat.le_of_eq (congrArg Metered.reads (Engine.attempts_settled q bound left ht).2.symm)
  | true =>
    cases left with
    | zero => exact Nat.le_of_eq (congrArg Metered.reads (Engine.attempts_zero q bound).2.symm)
    | succ left =>
      rw [(Engine.attempts_repeated q bound left ht).2]
      exact ((S.reads_keeps t c _).attempts hf q bound left ⟨rfl, Nat.le_refl _⟩).2.2

/-- However many bytes come, an exchange reads all of them, whatever its bound on retries is. -/
theorem babble_reads (bound n : Nat) :
    n ≤ ((babble.metered.engine .standard {}).exchangeWithin bound ⟨0x01, 0x02, []⟩
      { inner := n }).state.reads := by
  have hfits : Frame.Fits .standard (Command.mk 0x01 0x02 []).body := by decide
  have hframe := Frame.encode_of_fits hfits
  cases n with
  | zero => exact Nat.zero_le _
  | succ k =>
    have hfirst := babble_attempt (Frame.declared_of_encode hframe).1 .standard
      (by decide : (Settings.mk defaultTimeoutMs defaultRetries).timeoutMs ≠ 0) k
    have hall := reads_attempt_le babble .standard {} hframe bound bound { inner := k + 1 }
    rw [Engine.exchangeWithin_of_encode hframe]
    exact Nat.le_trans (Nat.le_of_eq hfirst.symm) hall

/-- **There is no bound on the number of reads** of an exchange in terms of its retries. -/
theorem not_exists_bound :
    ¬∃ most : Nat → Nat, ∀ (σ : Type) (S : ByteStream σ) (t : Trailer) (c : Settings) (bound : Nat)
      (q : Command) (s : σ),
      ((S.metered.engine t c).exchangeWithin bound q { inner := s }).state.reads ≤ most bound := by
  rintro ⟨most, hmost⟩
  have hle := hmost Nat babble .standard {} 0 ⟨0x01, 0x02, []⟩ (most 0 + 1)
  exact absurd (Nat.le_trans (babble_reads 0 (most 0 + 1)) hle) (Nat.not_succ_le_self _)

end ByteStream
end TagReader
