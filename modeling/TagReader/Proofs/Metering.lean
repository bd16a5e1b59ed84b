/-
# Meters

What a link returns does not tell how many bytes of a broken frame have left, nor how often the
stream was read.  A meter stands before a stream and keeps both: the bytes that the stream has
taken, and the number of reads that brought some.

* Streams whose calls correspond make corresponding links (`ByteStream.Corresponds.link`), so a
  meter changes nothing (`ByteStream.metered_engine_corresponds`).
* Sending takes a piece from the front of the frame, and all of it unless a write fails
  (`ByteStream.taken_send`).
* Receiving a frame reads at most 255 times (`ByteStream.reads_receive`), as each read brings at
  least one of the bytes that the first of them announces.
* Dropping the input reads until a read brings nothing, whenever that is
  (`ByteStream.discards_discard`).
-/
import TagReader.Proofs.Journal
import TagReader.Proofs.Peer

namespace TagReader

variable {σ τ α : Type}

namespace ByteStream

/-! ## The rounds of the loops -/

section Rounds

variable (S : ByteStream σ)

lemma readFull_eq {ms room : Nat} (hroom : room ≠ 0) (hms : ms ≠ 0) (s : σ) :
    S.readFull ms room s =
      match S.setTimeout ms s with
      | (.error e, s₁) => (.error e.toFault, s₁)
      | (.ok _, s₁) =>
        match S.read room s₁ with
        | (.ok [], s₂) => (.error (.communication "connection closed"), s₂)
        | (.ok (b :: bs), s₂) =>
          match S.readFull ms (room - (b :: bs).length) s₂ with
          | (.ok rest, s₃) => (.ok (b :: bs ++ rest), s₃)
          | (.error f, s₃) => (.error f, s₃)
        | (.error e, s₂) =>
          if e.kind = .interrupted then S.readFull ms room s₂ else (.error e.toFault, s₂) := by
  rw [readFull, if_neg hroom, if_neg hms]
  split
  · rename_i hset
    rw [hset]
  · rename_i hset
    rw [hset]
    dsimp only
    split
    · rename_i hread
      rw [hread]
    · rename_i hread
      exact hread ▸ rfl
    · rename_i hread
      rw [hread]

lemma writeAll_eq {data : Bytes} (hdata : data.length ≠ 0) (s : σ) :
    S.writeAll data s =
      match S.write data s with
      | (.ok 0, s₁) => (.error (.communication "failed to write whole buffer"), s₁)
      | (.ok (n + 1), s₁) => S.writeAll (data.drop (n + 1)) s₁
      | (.error e, s₁) =>
        if e.kind = .interrupted then S.writeAll data s₁ else (.error e.toFault, s₁) := by
  rw [writeAll, if_neg hdata]
  split
  all_goals
    rename_i hwrite
    rw [hwrite]

lemma drain_eq (dropped : Nat) (s : σ) :
    S.drain dropped s =
      match S.read drainRoom s with
      | (.ok [], s₁) => (dropped, s₁)
      | (.ok (b :: bs), s₁) => S.drain (dropped + (b :: bs).length) s₁
      | (.error e, s₁) => if e.kind = .interrupted then S.drain dropped s₁ else (dropped, s₁) := by
  rw [drain]
  split
  all_goals
    rename_i hread
    rw [hread]

variable {S}

/-- A frame that is taken as a whole takes one write. -/
lemma writeAll_of_write {data : Bytes} {s s' : σ} (hdata : data ≠ [])
    (hwrite : S.write data s = (.ok data.length, s')) : S.writeAll data s = (.ok (), s') := by
  have hlen : data.length ≠ 0 := fun h => hdata (List.length_eq_zero_iff.1 h)
  obtain ⟨n, hn⟩ := Nat.exists_eq_succ_of_ne_zero hlen
  rw [S.writeAll_eq hlen, hwrite, hn]
  show S.writeAll (data.drop (n + 1)) s' = (.ok (), s')
  rw [List.drop_of_length_le (Nat.le_of_eq hn), S.writeAll_nil]

/-- Bytes that come all at once take one read. -/
lemma readFull_of_read {ms : Nat} (bs : Bytes) {s s' s'' : σ} (hms : ms ≠ 0) (hbs : bs ≠ [])
    (hset : S.setTimeout ms s = (.ok (), s')) (hread : S.read bs.length s' = (.ok bs, s'')) :
    S.readFull ms bs.length s = (.ok bs, s'') := by
  have hlen : bs.length ≠ 0 := fun h => hbs (List.length_eq_zero_iff.1 h)
  obtain ⟨b, rest, rfl⟩ := List.exists_cons_of_ne_nil hbs
  rw [S.readFull_eq hlen hms, hset]
  simp only [hread, Nat.sub_self]
  rw [readFull, if_pos rfl]
  simp only [List.append_nil]

end Rounds

/-! ## Corresponding streams -/

/-- The results are the same, and the states are related. -/
def Agree (R : σ → τ → Prop) (x : α × σ) (y : α × τ) : Prop := x.1 = y.1 ∧ R x.2 y.2

lemma Agree.exists_eq {R : σ → τ → Prop} {x : α × σ} {y : α × τ} (h : Agree R x y) {a : α} {s : σ}
    (hx : x = (a, s)) : ∃ t, y = (a, t) ∧ R s t := by
  subst hx
  exact ⟨y.2, Prod.ext h.1.symm rfl, h.2⟩

/-- The calls of both streams correspond. -/
structure Corresponds (R : σ → τ → Prop) (S : ByteStream σ) (T : ByteStream τ) : Prop where
  read : ∀ n ⦃s t⦄, R s t → Agree R (S.read n s) (T.read n t)
  write : ∀ bs ⦃s t⦄, R s t → Agree R (S.write bs s) (T.write bs t)
  flush : ∀ ⦃s t⦄, R s t → Agree R (S.flush s) (T.flush t)
  setTimeout : ∀ ms ⦃s t⦄, R s t → Agree R (S.setTimeout ms s) (T.setTimeout ms t)

namespace Corresponds

variable {R : σ → τ → Prop} {S : ByteStream σ} {T : ByteStream τ} (h : S.Corresponds R T)
include h

lemma readFull (ms room : Nat) {s : σ} {t : τ} (hst : R s t) :
    Agree R (S.readFull ms room s) (T.readFull ms room t) := by
  fun_induction S.readFull ms room s generalizing t with
  | case1 s =>
    rw [ByteStream.readFull]
    exact ⟨rfl, hst⟩
  | case2 room s hroom hms =>
    rw [ByteStream.readFull, if_neg hroom, if_pos hms]
    exact ⟨rfl, hst⟩
  | case3 room s hroom hms e s₁ hset =>
    obtain ⟨t₁, hset', h₁⟩ := (h.setTimeout ms hst).exists_eq hset
    rw [T.readFull_eq hroom hms, hset']
    exact ⟨rfl, h₁⟩
  | case4 room s hroom hms _ s₁ hset s₂ hread =>
    obtain ⟨t₁, hset', h₁⟩ := (h.setTimeout ms hst).exists_eq hset
    obtain ⟨t₂, hread', h₂⟩ := (h.read room h₁).exists_eq hread
    rw [T.readFull_eq hroom hms]
    simp only [hset', hread']
    exact ⟨rfl, h₂⟩
  | case5 room s hroom hms _ s₁ hset b bs s₂ hread rest s₃ hrest ih =>
    obtain ⟨t₁, hset', h₁⟩ := (h.setTimeout ms hst).exists_eq hset
    obtain ⟨t₂, hread', h₂⟩ := (h.read room h₁).exists_eq hread
    obtain ⟨t₃, hrest', h₃⟩ := (ih h₂).exists_eq hrest
    rw [T.readFull_eq hroom hms]
    simp only [hset', hread', hrest']
    exact ⟨rfl, h₃⟩
  | case6 room s hroom hms _ s₁ hset b bs s₂ hread f s₃ hrest ih =>
    obtain ⟨t₁, hset', h₁⟩ := (h.setTimeout ms hst).exists_eq hset
    obtain ⟨t₂, hread', h₂⟩ := (h.read room h₁).exists_eq hread
    obtain ⟨t₃, hrest', h₃⟩ := (ih h₂).exists_eq hrest
    rw [T.readFull_eq hroom hms]
    simp only [hset', hread', hrest']
    exact ⟨rfl, h₃⟩
  | case7 room s hroom hms _ s₁ hset e s₂ hread he ih =>
    obtain ⟨t₁, hset', h₁⟩ := (h.setTimeout ms hst).exists_eq hset
    obtain ⟨t₂, hread', h₂⟩ := (h.read room h₁).exists_eq hread
    rw [T.readFull_eq hroom hms]
    simp only [hset', hread', if_pos he]
    exact ih h₂
  | case8 room s hroom hms _ s₁ hset e s₂ hread he =>
    obtain ⟨t₁, hset', h₁⟩ := (h.setTimeout ms hst).exists_eq hset
    obtain ⟨t₂, hread', h₂⟩ := (h.read room h₁).exists_eq hread
    rw [T.readFull_eq hroom hms]
    simp only [hset', hread', if_neg he]
    exact ⟨rfl, h₂⟩

lemma writeAll (data : Bytes) {s : σ} {t : τ} (hst : R s t) :
    Agree R (S.writeAll data s) (T.writeAll data t) := by
  fun_induction S.writeAll data s generalizing t with
  | case1 data s hdata =>
    rw [ByteStream.writeAll, if_pos hdata]
    exact ⟨rfl, hst⟩
  | case2 data s hdata s₁ hwrite =>
    obtain ⟨t₁, hwrite', h₁⟩ := (h.write data hst).exists_eq hwrite
    rw [T.writeAll_eq hdata, hwrite']
    exact ⟨rfl, h₁⟩
  | case3 data s hdata n s₁ hwrite ih =>
    obtain ⟨t₁, hwrite', h₁⟩ := (h.write data hst).exists_eq hwrite
    rw [T.writeAll_eq hdata, hwrite']
    exact ih h₁
  | case4 data s hdata e s₁ hwrite he ih =>
    obtain ⟨t₁, hwrite', h₁⟩ := (h.write data hst).exists_eq hwrite
    rw [T.writeAll_eq hdata, hwrite']
    dsimp only
    rw [if_pos he]
    exact ih h₁
  | case5 data s hdata e s₁ hwrite he =>
    obtain ⟨t₁, hwrite', h₁⟩ := (h.write data hst).exists_eq hwrite
    rw [T.writeAll_eq hdata, hwrite']
    dsimp only
    rw [if_neg he]
    exact ⟨rfl, h₁⟩

lemma drain (dropped : Nat) {s : σ} {t : τ} (hst : R s t) :
    Agree R (S.drain dropped s) (T.drain dropped t) := by
  fun_induction S.drain dropped s generalizing t with
  | case1 dropped s s₁ hread =>
    obtain ⟨t₁, hread', h₁⟩ := (h.read _ hst).exists_eq hread
    rw [T.drain_eq, hread']
    exact ⟨rfl, h₁⟩
  | case2 dropped s b bs s₁ hread ih =>
    obtain ⟨t₁, hread', h₁⟩ := (h.read _ hst).exists_eq hread
    rw [T.drain_eq, hread']
    exact ih h₁
  | case3 dropped s e s₁ hread he ih =>
    obtain ⟨t₁, hread', h₁⟩ := (h.read _ hst).exists_eq hread
    rw [T.drain_eq, hread']
    dsimp only
    rw [if_pos he]
    exact ih h₁
  | case4 dropped s e s₁ hread he =>
    obtain ⟨t₁, hread', h₁⟩ := (h.read _ hst).exists_eq hread
    rw [T.drain_eq, hread']
    dsimp only
    rw [if_neg he]
    exact ⟨rfl, h₁⟩

/-- Corresponding streams make corresponding links. -/
theorem link : Link.Corresponds R S.link T.link := by
  constructor
  · intro frame s t hst
    show _ = (T.send frame t).result ∧ R _ (T.send frame t).state
    show (S.send frame s).result = _ ∧ R (S.send frame s).state _
    unfold send
    dsimp only
    rcases hw : S.writeAll frame s with ⟨f | _, s₁⟩
    · obtain ⟨t₁, hw', h₁⟩ := (h.writeAll frame hst).exists_eq hw
      rw [hw']
      exact ⟨rfl, h₁⟩
    · obtain ⟨t₁, hw', h₁⟩ := (h.writeAll frame hst).exists_eq hw
      rw [hw']
      dsimp only
      rcases hf : S.flush s₁ with ⟨e | _, s₂⟩
      all_goals
        obtain ⟨t₂, hf', h₂⟩ := (h.flush h₁).exists_eq hf
        rw [hf']
        exact ⟨rfl, h₂⟩
  · intro ms s t hst
    show (S.receive ms s).result = (T.receive ms t).result ∧
      R (S.receive ms s).state (T.receive ms t).state
    unfold receive
    rcases hr : S.readFull ms 1 s with ⟨f | first, s₁⟩
    · obtain ⟨t₁, hr', h₁⟩ := (h.readFull ms 1 hst).exists_eq hr
      rw [hr']
      exact ⟨rfl, h₁⟩
    · obtain ⟨t₁, hr', h₁⟩ := (h.readFull ms 1 hst).exists_eq hr
      rw [hr']
      dsimp only
      rcases hr₂ : S.readFull ms ((first.headD 0).toNat - 1) s₁ with ⟨f | rest, s₂⟩
      all_goals
        obtain ⟨t₂, hr₂', h₂⟩ := (h.readFull ms _ h₁).exists_eq hr₂
        rw [hr₂']
        exact ⟨rfl, h₂⟩
  · intro s t hst
    show (S.discard s).result = (T.discard t).result ∧ R (S.discard s).state (T.discard t).state
    unfold discard
    rcases hset : S.setTimeout drainTimeoutMs s with ⟨e | _, s₁⟩
    · obtain ⟨t₁, hset', h₁⟩ := (h.setTimeout _ hst).exists_eq hset
      rw [hset']
      exact ⟨rfl, h₁⟩
    · obtain ⟨t₁, hset', h₁⟩ := (h.setTimeout _ hst).exists_eq hset
      rw [hset']
      dsimp only
      rcases hd : S.drain 0 s₁ with ⟨_ | n, s₂⟩
      all_goals
        obtain ⟨t₂, hd', h₂⟩ := (h.drain 0 h₁).exists_eq hd
        rw [hd']
        exact ⟨rfl, h₂⟩

end Corresponds
end ByteStream

/-! ## Meters -/

/-- The state of a stream with a meter. -/
structure Metered (σ : Type) where
  /-- The state of the stream. -/
  inner : σ
  /-- The bytes that the stream has taken, in their order. -/
  taken : Bytes := []
  /-- How many reads have brought bytes. -/
  reads : Nat := 0
deriving DecidableEq

/-- What a write has taken of its bytes. -/
def IoFault.portion (bs : Bytes) : Except IoFault Nat → Bytes
  | .ok n => bs.take n
  | .error _ => []

/-- The number of reads, none or one, that have brought bytes. -/
def IoFault.brought : Except IoFault Bytes → Nat
  | .ok (_ :: _) => 1
  | .ok [] => 0
  | .error _ => 0

lemma IoFault.brought_le_one (r : Except IoFault Bytes) : brought r ≤ 1 := by
  match r with
  | .ok [] => exact Nat.zero_le 1
  | .ok (_ :: _) => exact Nat.le_refl 1
  | .error _ => exact Nat.zero_le 1

/-- A piece of a frame, as long as a sending that ends in `r` may leave it. -/
structure Piece (frame : Bytes) (r : Except Fault Unit) (piece : Bytes) : Prop where
  front : piece <+: frame
  /-- What is missing is missing because of a fault after which the frame is sent again. -/
  missing : piece ≠ frame → ∃ f, r = .error f ∧ f.isTransient = true

namespace ByteStream

variable (S : ByteStream σ)

/-- A stream with a meter. -/
def metered : ByteStream (Metered σ) where
  read n m :=
    match S.read n m.inner with
    | (r, s) => (r, { m with inner := s, reads := m.reads + IoFault.brought r })
  write bs m :=
    match S.write bs m.inner with
    | (r, s) => (r, { m with inner := s, taken := m.taken ++ IoFault.portion bs r })
  flush m :=
    match S.flush m.inner with
    | (r, s) => (r, { m with inner := s })
  setTimeout ms m :=
    match S.setTimeout ms m.inner with
    | (r, s) => (r, { m with inner := s })
  supply m := S.supply m.inner
  stalls m := S.stalls m.inner
  length_read := S.length_read
  supply_read := S.supply_read
  supply_setTimeout ms m := S.supply_setTimeout ms m.inner
  stalls_write := S.stalls_write

lemma metered_corresponds : S.metered.Corresponds (fun m s => m.inner = s) S := by
  constructor
  · rintro n m _ rfl
    exact ⟨rfl, rfl⟩
  · rintro bs m _ rfl
    exact ⟨rfl, rfl⟩
  · rintro m _ rfl
    exact ⟨rfl, rfl⟩
  · rintro ms m _ rfl
    exact ⟨rfl, rfl⟩

/-- A meter changes nothing for an engine. -/
theorem metered_engine_corresponds (t : Trailer) (c : Settings) :
    Engine.Corresponds (fun m s => m.inner = s) (S.metered.engine t c) (S.engine t c) :=
  Engine.corresponds_of_link S.metered_corresponds.link rfl rfl

section Calls

variable {S} {m m' : Metered σ}

lemma metered_read {n : Nat} {r : Except IoFault Bytes} (h : S.metered.read n m = (r, m')) :
    S.read n m.inner = (r, m'.inner) ∧ m'.taken = m.taken ∧
      m'.reads = m.reads + IoFault.brought r := by
  cases h
  exact ⟨rfl, rfl, rfl⟩

lemma metered_write {bs : Bytes} {r : Except IoFault Nat} (h : S.metered.write bs m = (r, m')) :
    m'.taken = m.taken ++ IoFault.portion bs r ∧ m'.reads = m.reads := by
  cases h
  exact ⟨rfl, rfl⟩

lemma metered_flush {r : Except IoFault Unit} (h : S.metered.flush m = (r, m')) :
    m'.taken = m.taken ∧ m'.reads = m.reads := by
  cases h
  exact ⟨rfl, rfl⟩

lemma metered_setTimeout {ms : Nat} {r : Except IoFault Unit}
    (h : S.metered.setTimeout ms m = (r, m')) :
    S.setTimeout ms m.inner = (r, m'.inner) ∧ m'.taken = m.taken ∧ m'.reads = m.reads := by
  cases h
  exact ⟨rfl, rfl, rfl⟩

end Calls

/-! ## Sending -/

/-- What is taken of some bytes is a piece from the front, and all of them unless a write fails. -/
lemma taken_writeAll (data : Bytes) (m : Metered σ) :
    (∃ piece, (S.metered.writeAll data m).2.taken = m.taken ++ piece ∧ piece <+: data ∧
      match (S.metered.writeAll data m).1 with
      | .ok _ => piece = data
      | .error f => piece ≠ data ∧ f.isTransient = true) ∧
    (S.metered.writeAll data m).2.reads = m.reads := by
  fun_induction S.metered.writeAll data m with
  | case1 data m hdata =>
    obtain rfl := List.length_eq_zero_iff.1 hdata
    exact ⟨⟨[], (List.append_nil _).symm, List.nil_prefix, rfl⟩, rfl⟩
  | case2 data m hdata m₁ hwrite =>
    obtain ⟨htaken, hreads⟩ := metered_write hwrite
    refine ⟨⟨[], htaken, List.nil_prefix, ?_, rfl⟩, hreads⟩
    rintro rfl
    exact hdata rfl
  | case3 data m hdata n m₁ hwrite ih =>
    obtain ⟨htaken, hreads⟩ := metered_write hwrite
    obtain ⟨⟨piece, hpiece, hprefix, hall⟩, hreads'⟩ := ih
    have hsplit := List.take_append_drop (n + 1) data
    refine ⟨⟨data.take (n + 1) ++ piece, ?_, ?_, ?_⟩, hreads'.trans hreads⟩
    · rw [hpiece, htaken, List.append_assoc]
      rfl
    · nth_rewrite 2 [← hsplit]
      exact (List.prefix_append_right_inj _).2 hprefix
    · rcases hr : (S.metered.writeAll (data.drop (n + 1)) m₁).1 with f | _
      · rw [hr] at hall
        refine ⟨fun heq => hall.1 ?_, hall.2⟩
        nth_rewrite 2 [← hsplit] at heq
        exact List.append_cancel_left heq
      · rw [hr] at hall
        rw [hall]
        exact hsplit
  | case4 data m hdata e m₁ hwrite he ih =>
    obtain ⟨htaken, hreads⟩ := metered_write hwrite
    have htaken' : m₁.taken = m.taken := htaken.trans (List.append_nil _)
    rwa [htaken', hreads] at ih
  | case5 data m hdata e m₁ hwrite he =>
    obtain ⟨htaken, hreads⟩ := metered_write hwrite
    refine ⟨⟨[], htaken, List.nil_prefix, ?_, e.isTransient_toFault⟩, hreads⟩
    rintro rfl
    exact hdata rfl

/-- Sending takes a piece from the front of the frame. -/
lemma taken_send (frame : Bytes) (m : Metered σ) :
    (∃ piece, (S.metered.send frame m).state.taken = m.taken ++ piece ∧
      Piece frame (S.metered.send frame m).result piece) ∧
    (S.metered.send frame m).state.reads = m.reads := by
  obtain ⟨⟨piece, htaken, hfront, hall⟩, hreads⟩ := S.taken_writeAll frame m
  unfold send
  dsimp only
  rcases hw : S.metered.writeAll frame m with ⟨f | _, m₁⟩
  · rw [hw] at htaken hall hreads
    exact ⟨⟨piece, htaken, hfront, fun _ => ⟨f, rfl, hall.2⟩⟩, hreads⟩
  · rw [hw] at htaken hall hreads
    -- From here on the frame is whole, also where the flush fails.
    dsimp only
    rcases hf : S.metered.flush m₁ with ⟨e | _, m₂⟩
    all_goals
      obtain ⟨htaken', hreads'⟩ := metered_flush hf
      exact ⟨⟨piece, htaken'.trans htaken, hfront, fun hne => absurd hall hne⟩,
        hreads'.trans hreads⟩

/-! ## Receiving -/

/-- A read that brings something brings some of the bytes that are asked for. -/
lemma reads_read {S : ByteStream σ} {ms room : Nat} {m m₁ m₂ : Metered σ} {b : UInt8} {bs : Bytes}
    (hset : S.metered.setTimeout ms m = (.ok (), m₁))
    (hread : S.metered.read room m₁ = (.ok (b :: bs), m₂)) :
    m₂.taken = m.taken ∧ m.reads ≤ m₂.reads ∧
      m₂.reads + (room - (b :: bs).length) ≤ m.reads + room := by
  obtain ⟨-, htaken, hreads⟩ := metered_setTimeout hset
  obtain ⟨-, htaken', hreads'⟩ := metered_read hread
  have hlen : (b :: bs).length ≤ room := S.metered.length_read (s := m₁) (by rw [hread])
  have hone := IoFault.brought_le_one (.ok (b :: bs))
  rw [List.length_cons] at hlen ⊢
  rw [hreads', hreads]
  exact ⟨htaken'.trans htaken, Nat.le_add_right _ _, by omega⟩

/-- So there are no more such reads than bytes that are asked for. -/
lemma reads_readFull (ms room : Nat) (m : Metered σ) :
    (S.metered.readFull ms room m).2.taken = m.taken ∧
      m.reads ≤ (S.metered.readFull ms room m).2.reads ∧
      (S.metered.readFull ms room m).2.reads ≤ m.reads + room := by
  fun_induction S.metered.readFull ms room m with
  | case1 m => exact ⟨rfl, Nat.le_refl _, Nat.le_refl _⟩
  | case2 room m hroom hms => exact ⟨rfl, Nat.le_refl _, Nat.le_add_right _ _⟩
  | case3 room m hroom hms e m₁ hset =>
    obtain ⟨-, htaken, hreads⟩ := metered_setTimeout hset
    refine ⟨htaken, ?_⟩
    rw [hreads]
    exact ⟨Nat.le_refl _, Nat.le_add_right _ _⟩
  | case4 room m hroom hms _ m₁ hset m₂ hread =>
    obtain ⟨-, htaken, hreads⟩ := metered_setTimeout hset
    obtain ⟨-, htaken', hreads'⟩ := metered_read hread
    refine ⟨htaken'.trans htaken, ?_⟩
    rw [hreads', hreads]
    exact ⟨Nat.le_refl _, Nat.le_add_right _ _⟩
  | case5 room m hroom hms _ m₁ hset b bs m₂ hread rest m₃ hrest ih =>
    obtain ⟨htaken, hle, hroom⟩ := reads_read hset hread
    rw [hrest] at ih
    exact ⟨ih.1.trans htaken, Nat.le_trans hle ih.2.1, Nat.le_trans ih.2.2 hroom⟩
  | case6 room m hroom hms _ m₁ hset b bs m₂ hread f m₃ hrest ih =>
    obtain ⟨htaken, hle, hroom⟩ := reads_read hset hread
    rw [hrest] at ih
    exact ⟨ih.1.trans htaken, Nat.le_trans hle ih.2.1, Nat.le_trans ih.2.2 hroom⟩
  | case7 room m hroom hms _ m₁ hset e m₂ hread he ih =>
    obtain ⟨-, htaken, hreads⟩ := metered_setTimeout hset
    obtain ⟨-, htaken', hreads'⟩ := metered_read hread
    rw [hreads', hreads] at ih
    exact ⟨ih.1.trans (htaken'.trans htaken), ih.2⟩
  | case8 room m hroom hms _ m₁ hset e m₂ hread he =>
    obtain ⟨-, htaken, hreads⟩ := metered_setTimeout hset
    obtain ⟨-, htaken', hreads'⟩ := metered_read hread
    refine ⟨htaken'.trans htaken, ?_⟩
    rw [hreads', hreads]
    exact ⟨Nat.le_refl _, Nat.le_add_right _ _⟩

/-- The most bytes that a frame can announce, and so the most reads that can bring some of it. -/
def frameReads : Nat := 255

/-- Receiving a frame reads no more often than the frame can have bytes. -/
lemma reads_receive (ms : Nat) (m : Metered σ) :
    (S.metered.receive ms m).state.taken = m.taken ∧
      m.reads ≤ (S.metered.receive ms m).state.reads ∧
      (S.metered.receive ms m).state.reads ≤ m.reads + frameReads := by
  obtain ⟨htaken, hle, hreads⟩ := S.reads_readFull ms 1 m
  have hone : 1 ≤ frameReads := by decide
  unfold receive
  rcases hr : S.metered.readFull ms 1 m with ⟨f | first, m₁⟩
  · rw [hr] at htaken hle hreads
    exact ⟨htaken, hle, Nat.le_trans hreads (Nat.add_le_add_left hone _)⟩
  · rw [hr] at htaken hle hreads
    obtain ⟨htaken', hle', hreads'⟩ := S.reads_readFull ms ((first.headD 0).toNat - 1) m₁
    have hbyte : (first.headD 0).toNat < 256 := UInt8.toNat_lt _
    have hreads₁ : m₁.reads ≤ m.reads + 1 := hreads
    have htotal : m₁.reads + ((first.headD 0).toNat - 1) ≤ m.reads + frameReads := by
      unfold frameReads
      omega
    dsimp only
    rcases hr₂ : S.metered.readFull ms ((first.headD 0).toNat - 1) m₁ with ⟨f | rest, m₂⟩
    all_goals
      rw [hr₂] at htaken' hle' hreads'
      exact ⟨htaken'.trans htaken, Nat.le_trans hle hle', Nat.le_trans hreads' htotal⟩

/-! ## Dropping the input -/

/-- Reading on until a read brings nothing; `n` reads have brought something. -/
inductive Drains : σ → Nat → σ → Prop where
  | stops {s : σ} (h : IoFault.goesOn (S.read drainRoom s).1 = false) :
    Drains s 0 (S.read drainRoom s).2
  | goesOn {s s' : σ} {n : Nat} (h : IoFault.goesOn (S.read drainRoom s).1 = true)
    (later : Drains (S.read drainRoom s).2 n s') :
    Drains s (n + IoFault.brought (S.read drainRoom s).1) s'

/-- Each of these reads takes from what the stream can still bring. -/
lemma Drains.le_supply {S : ByteStream σ} {s s' : σ} {n : Nat} (h : S.Drains s n s') :
    n ≤ S.supply s := by
  induction h with
  | stops _ => exact Nat.zero_le _
  | @goesOn s s' n h _ ih =>
    have hless := S.supply_read h
    have hone := IoFault.brought_le_one (S.read drainRoom s).1
    omega

/-- The loop that drops the input. -/
lemma drains_drain (dropped : Nat) (m : Metered σ) :
    (S.metered.drain dropped m).2.taken = m.taken ∧
      ∃ n, S.Drains m.inner n (S.metered.drain dropped m).2.inner ∧
        (S.metered.drain dropped m).2.reads = m.reads + n := by
  fun_induction S.metered.drain dropped m with
  | case1 dropped m m₁ hread =>
    obtain ⟨hinner, htaken, hreads⟩ := metered_read hread
    have hstop : S.Drains m.inner 0 (S.read drainRoom m.inner).2 := .stops (by rw [hinner]; rfl)
    rw [hinner] at hstop
    exact ⟨htaken, 0, hstop, hreads⟩
  | case2 dropped m b bs m₁ hread ih =>
    obtain ⟨hinner, htaken, hreads⟩ := metered_read hread
    obtain ⟨htaken', n, hlater, hreads'⟩ := ih
    have hgo : IoFault.goesOn (S.read drainRoom m.inner).1 = true := by rw [hinner]; rfl
    have hmore := Drains.goesOn hgo (by rwa [hinner] : S.Drains (S.read drainRoom m.inner).2 n _)
    rw [hinner] at hmore
    refine ⟨htaken'.trans htaken, _, hmore, ?_⟩
    rw [hreads', hreads, Nat.add_assoc, Nat.add_comm _ n]
  | case3 dropped m e m₁ hread he ih =>
    obtain ⟨hinner, htaken, hreads⟩ := metered_read hread
    obtain ⟨htaken', n, hlater, hreads'⟩ := ih
    have hgo : IoFault.goesOn (S.read drainRoom m.inner).1 = true := by
      rw [hinner]
      exact beq_iff_eq.2 he
    have hmore := Drains.goesOn hgo (by rwa [hinner] : S.Drains (S.read drainRoom m.inner).2 n _)
    rw [hinner] at hmore
    refine ⟨htaken'.trans htaken, _, hmore, ?_⟩
    rw [hreads', hreads, Nat.add_assoc, Nat.add_comm _ n]
  | case4 dropped m e m₁ hread he =>
    obtain ⟨hinner, htaken, hreads⟩ := metered_read hread
    have hstop : S.Drains m.inner 0 (S.read drainRoom m.inner).2 := .stops (by
      rw [hinner]
      exact beq_eq_false_iff_ne.2 he)
    rw [hinner] at hstop
    exact ⟨htaken, 0, hstop, hreads⟩

/-- Dropping the input: unless the timeout cannot be set, reading goes on until nothing comes. -/
inductive Discards : σ → Nat → σ → Prop where
  | unset {s : σ} {e : IoFault} (h : (S.setTimeout drainTimeoutMs s).1 = .error e) :
    Discards s 0 (S.setTimeout drainTimeoutMs s).2
  | drained {s s' : σ} {n : Nat} (h : (S.setTimeout drainTimeoutMs s).1 = .ok ())
    (later : S.Drains (S.setTimeout drainTimeoutMs s).2 n s') : Discards s n s'

lemma Discards.le_supply {S : ByteStream σ} {s s' : σ} {n : Nat} (h : S.Discards s n s') :
    n ≤ S.supply s := by
  cases h with
  | unset _ => exact Nat.zero_le _
  | drained _ later => exact Nat.le_trans later.le_supply (S.supply_setTimeout _ _)

/-- The call that drops the input. -/
lemma discards_discard (m : Metered σ) :
    (S.metered.discard m).state.taken = m.taken ∧
      ∃ n, S.Discards m.inner n (S.metered.discard m).state.inner ∧
        (S.metered.discard m).state.reads = m.reads + n := by
  unfold discard
  rcases hset : S.metered.setTimeout drainTimeoutMs m with ⟨e | _, m₁⟩
  · obtain ⟨hinner, htaken, hreads⟩ := metered_setTimeout hset
    have hunset : S.Discards m.inner 0 (S.setTimeout drainTimeoutMs m.inner).2 :=
      .unset (e := e) (by rw [hinner])
    rw [hinner] at hunset
    exact ⟨htaken, 0, hunset, hreads⟩
  · obtain ⟨hinner, htaken, hreads⟩ := metered_setTimeout hset
    obtain ⟨htaken', n, hdrains, hreads'⟩ := S.drains_drain 0 m₁
    have hdrained : S.Discards m.inner n (S.metered.drain 0 m₁).2.inner :=
      .drained (by rw [hinner]) (by rwa [hinner])
    dsimp only
    rcases hd : S.metered.drain 0 m₁ with ⟨_ | k, m₂⟩
    all_goals
      rw [hd] at htaken' hdrained hreads'
      exact ⟨htaken'.trans htaken, n, hdrained, by rw [hreads', hreads]⟩

end ByteStream
end TagReader
