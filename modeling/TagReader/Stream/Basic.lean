/-
# Frames over a byte stream

Most readers hang on a serial line or a socket: a stream that takes and gives any number of
bytes at a time.  A `ByteStream` is given by what its four calls do to its state; this file
builds a link over any of them.

* Reading a frame: the first byte says how long the frame is; the rest is read until it is
  complete.  Before every read the stream is told how long to wait.
* Sending a frame: the bytes are written until the stream has taken all of them, and then
  flushed.
* Dropping the input: the stream is read, with a short wait, until it has nothing more.

Interrupted calls are simply made again.  These loops end because of two measures that a
stream carries: `supply` bounds how often a read can still bring something, and `stalls`
bounds how often a write can still be interrupted.

Time is not modelled: a positive time does not run out between two reads, and no time at all
is spent at once.
-/
import TagReader.Hex
import TagReader.Link.Basic

namespace TagReader

/-- Whether a read has brought bytes or was interrupted, so that another one may follow. -/
def IoFault.goesOn : Except IoFault Bytes → Bool
  | .ok bs => !bs.isEmpty
  | .error e => e.kind == .interrupted

/-- A stream of bytes in both directions, with states `σ`. -/
structure ByteStream (σ : Type) where
  /-- Reads at most so many bytes; none means that the stream is closed. -/
  read : Nat → σ → Except IoFault Bytes × σ
  /-- Writes some of the bytes, and says how many it took. -/
  write : Bytes → σ → Except IoFault Nat × σ
  /-- Hands on what has been written. -/
  flush : σ → Except IoFault Unit × σ
  /-- Sets how many milliseconds a read waits. -/
  setTimeout : Nat → σ → Except IoFault Unit × σ
  /-- How often a read can still bring bytes or be interrupted, at most. -/
  supply : σ → Nat
  /-- How often a write can still be interrupted, at most. -/
  stalls : σ → Nat
  /-- A read brings no more than it was asked for. -/
  length_read : ∀ {n s bs}, (read n s).1 = .ok bs → bs.length ≤ n
  /-- What a read brings is gone. -/
  supply_read : ∀ {n s}, IoFault.goesOn (read n s).1 = true → supply (read n s).2 < supply s
  /-- Setting the timeout brings nothing. -/
  supply_setTimeout : ∀ n s, supply (setTimeout n s).2 ≤ supply s
  /-- An interruption of a write is gone afterwards. -/
  stalls_write : ∀ {bs s e}, (write bs s).1 = .error e → e.kind = .interrupted →
    stalls (write bs s).2 < stalls s

namespace ByteStream

variable {σ : Type} (S : ByteStream σ)

/-- How long dropping the input waits for stray bytes, in milliseconds. -/
def drainTimeoutMs : Nat := 20

/-- How many bytes are dropped at once. -/
def drainRoom : Nat := 64

/-- Reads exactly `room` bytes within `ms` milliseconds. -/
def readFull (ms room : Nat) (s : σ) : Except Fault Bytes × σ :=
  if room = 0 then (.ok [], s)
  else if ms = 0 then (.error .timeout, s)
  else
    match _hset : S.setTimeout ms s with
    | (.error e, s₁) => (.error e.toFault, s₁)
    | (.ok _, s₁) =>
      match _hread : S.read room s₁ with
      | (.ok [], s₂) => (.error (.communication "connection closed"), s₂)
      | (.ok (b :: bs), s₂) =>
        match readFull ms (room - (b :: bs).length) s₂ with
        | (.ok rest, s₃) => (.ok (b :: bs ++ rest), s₃)
        | (.error f, s₃) => (.error f, s₃)
      | (.error e, s₂) =>
        if e.kind = .interrupted then readFull ms room s₂ else (.error e.toFault, s₂)
termination_by S.supply s
decreasing_by
  all_goals
    have hs := S.supply_setTimeout ms s
    have hd := @supply_read σ S room s₁
    rw [_hset] at hs
    rw [_hread] at hd
    simp_all [IoFault.goesOn]
    omega

/-- Reads one frame within `ms` milliseconds. -/
def receive (ms : Nat) : Run σ Bytes := fun s =>
  match S.readFull ms 1 s with
  | (.error f, s₁) => ⟨.error f, s₁, []⟩
  | (.ok first, s₁) =>
    match S.readFull ms ((first.headD 0).toNat - 1) s₁ with
    | (.error f, s₂) => ⟨.error f, s₂, []⟩
    | (.ok rest, s₂) =>
      ⟨.ok (first ++ rest), s₂, [⟨.trace, "rx: " ++ Hex.spaced (first ++ rest)⟩]⟩

/-- Writes all of the bytes. -/
def writeAll (data : Bytes) (s : σ) : Except Fault Unit × σ :=
  if data.length = 0 then (.ok (), s)
  else
    match hw : S.write data s with
    | (.ok 0, s₁) => (.error (.communication "failed to write whole buffer"), s₁)
    | (.ok (n + 1), s₁) => writeAll (data.drop (n + 1)) s₁
    | (.error e, s₁) =>
      if e.kind = .interrupted then writeAll data s₁ else (.error e.toFault, s₁)
termination_by (data.length, S.stalls s)
decreasing_by
  · apply Prod.Lex.left
    simp only [List.length_drop]
    omega
  · apply Prod.Lex.right
    have h := @stalls_write σ S data s e
    rw [hw] at h
    exact h rfl ‹_›

/-- Writes one frame and flushes. -/
def send (frame : Bytes) : Run σ Unit := fun s =>
  let notes := [⟨.trace, "tx: " ++ Hex.spaced frame⟩]
  match S.writeAll frame s with
  | (.error f, s₁) => ⟨.error f, s₁, notes⟩
  | (.ok _, s₁) =>
    match S.flush s₁ with
    | (.error e, s₂) => ⟨.error e.toFault, s₂, notes⟩
    | (.ok _, s₂) => ⟨.ok (), s₂, notes⟩

/-- Reads and forgets until the stream has nothing more, is closed or fails; yields the
number of bytes forgotten, added to `dropped`. -/
def drain (dropped : Nat) (s : σ) : Nat × σ :=
  match _hread : S.read drainRoom s with
  | (.ok [], s₁) => (dropped, s₁)
  | (.ok (b :: bs), s₁) => drain (dropped + (b :: bs).length) s₁
  | (.error e, s₁) => if e.kind = .interrupted then drain dropped s₁ else (dropped, s₁)
termination_by S.supply s
decreasing_by
  all_goals
    have hd := @supply_read σ S drainRoom s
    rw [_hread] at hd
    simp_all [IoFault.goesOn]

/-- Drops the input. -/
def discard : Run σ Unit := fun s =>
  match S.setTimeout drainTimeoutMs s with
  | (.error e, s₁) => ⟨.error e.toFault, s₁, []⟩
  | (.ok _, s₁) =>
    match S.drain 0 s₁ with
    | (0, s₂) => ⟨.ok (), s₂, []⟩
    | (n + 1, s₂) => ⟨.ok (), s₂, [⟨.debug, s!"discarded {n + 1} stale bytes"⟩]⟩

/-- The link over a stream. -/
def link : Link σ where
  send := S.send
  receive := S.receive
  discard := S.discard

end ByteStream

end TagReader
