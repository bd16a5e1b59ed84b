/-
# A stream in memory

A `Channel` is a byte stream that lives in memory, for rehearsals.  What can be read from it
is a list of arrivals: bytes, the end of the stream, or a failure.  A read never goes beyond
one arrival, and takes at most `chunk` bytes of it.  A write takes at most `writeChunk`
bytes.  Writes, flushes and settings of the timeout can be told to fail, one after the other.
-/
import TagReader.Stream.Basic

namespace TagReader

/-- What a read can find. -/
inductive Arrival where
  /-- Some bytes. -/
  | bytes (bs : Bytes)
  /-- The end of the stream. -/
  | closed
  /-- A failure. -/
  | fault (e : IoFault)
deriving DecidableEq

/-- The reads that an arrival can serve, at most. -/
def Arrival.size : Arrival → Nat
  | bytes bs => bs.length + 1
  | closed => 1
  | fault _ => 1

/-- The reads that some arrivals can serve, at most. -/
def Arrival.total : List Arrival → Nat
  | [] => 0
  | a :: rest => a.size + Arrival.total rest

@[simp]
theorem Arrival.total_cons (a : Arrival) (rest : List Arrival) :
    Arrival.total (a :: rest) = a.size + Arrival.total rest := rfl

/-- The state of a stream in memory. -/
structure Channel where
  /-- What has arrived and has not been read. -/
  arrivals : List Arrival := []
  /-- The most bytes that one read brings. -/
  chunk : Nat := 1024
  /-- The most bytes that one write takes. -/
  writeChunk : Nat := 1024
  /-- What happens to the next writes: a failure, or nothing special. -/
  writeFaults : List (Option IoFault) := []
  /-- What happens to the next flushes. -/
  flushFaults : List (Option IoFault) := []
  /-- What happens to the next settings of the timeout. -/
  timeoutFaults : List (Option IoFault) := []
  /-- Everything written so far. -/
  output : Bytes := []
  /-- The timeout that was asked for last, in milliseconds. -/
  timeoutMs : Option Nat := none
deriving DecidableEq

namespace Channel

/-- More arrivals at the end of the input. -/
def feed (more : List Arrival) (c : Channel) : Channel :=
  { c with arrivals := c.arrivals ++ more }

/-- What is left of an arrival of bytes, if anything is. -/
def remainder (bs : Bytes) (rest : List Arrival) : List Arrival :=
  if bs.isEmpty then rest else .bytes bs :: rest

/-- Reads at most `n` bytes. -/
def read (n : Nat) (c : Channel) : Except IoFault Bytes × Channel :=
  match c.arrivals with
  | [] => (.error ⟨.wouldBlock, "empty"⟩, c)
  | .bytes bs :: rest =>
    (.ok (bs.take (min n c.chunk)),
      { c with arrivals := remainder (bs.drop (min n c.chunk)) rest })
  | .closed :: rest => (.ok [], { c with arrivals := rest })
  | .fault e :: rest => (.error e, { c with arrivals := rest })

/-- Writes some bytes. -/
def write (bs : Bytes) (c : Channel) : Except IoFault Nat × Channel :=
  let c' := { c with writeFaults := c.writeFaults.tail }
  match c.writeFaults.head?.join with
  | some e => (.error e, c')
  | none =>
    (.ok (min bs.length c.writeChunk), { c' with output := c.output ++ bs.take c.writeChunk })

/-- Hands on what has been written. -/
def flush (c : Channel) : Except IoFault Unit × Channel :=
  let c' := { c with flushFaults := c.flushFaults.tail }
  match c.flushFaults.head?.join with
  | some e => (.error e, c')
  | none => (.ok (), c')

/-- Sets how long a read waits. -/
def setTimeout (ms : Nat) (c : Channel) : Except IoFault Unit × Channel :=
  let c' := { c with timeoutFaults := c.timeoutFaults.tail, timeoutMs := some ms }
  match c.timeoutFaults.head?.join with
  | some e => (.error e, c')
  | none => (.ok (), c')

/-- The reads that the arrivals can serve, at most. -/
def supply (c : Channel) : Nat := Arrival.total c.arrivals

theorem total_remainder_le (bs : Bytes) (rest : List Arrival) :
    Arrival.total (remainder bs rest) ≤ bs.length + 1 + Arrival.total rest := by
  unfold remainder
  split
  · omega
  · simp only [Arrival.total_cons, Arrival.size]
    omega

theorem length_read {n : Nat} {c : Channel} {bs : Bytes} (h : (c.read n).1 = .ok bs) :
    bs.length ≤ n := by
  unfold read at h
  split at h
  · cases h
  · simp only [Except.ok.injEq] at h
    subst h
    simp only [List.length_take]
    omega
  · simp only [Except.ok.injEq] at h
    subst h
    simp
  · cases h

theorem supply_read {n : Nat} {c : Channel} (h : IoFault.goesOn (c.read n).1 = true) :
    (c.read n).2.supply < c.supply := by
  unfold read at h ⊢
  unfold supply
  split at h
  · simp [IoFault.goesOn] at h
  · rename_i bs rest hc
    simp only [hc, Arrival.total_cons, Arrival.size]
    simp only [IoFault.goesOn, Bool.not_eq_true', List.isEmpty_eq_false_iff] at h
    have hlen : 0 < (bs.take (min n c.chunk)).length := List.length_pos_iff.2 h
    simp only [List.length_take] at hlen
    have hle := total_remainder_le (bs.drop (min n c.chunk)) rest
    simp only [List.length_drop] at hle
    omega
  · simp [IoFault.goesOn] at h
  · rename_i e rest hc
    simp [hc, Arrival.size]

theorem supply_setTimeout (n : Nat) (c : Channel) : (c.setTimeout n).2.supply ≤ c.supply := by
  unfold setTimeout supply
  dsimp only
  split <;> exact Nat.le_refl _

theorem stalls_write {bs : Bytes} {c : Channel} {e : IoFault} (h : (c.write bs).1 = .error e) :
    (c.write bs).2.writeFaults.length < c.writeFaults.length := by
  unfold write at h ⊢
  dsimp only at h ⊢
  split at h
  · rename_i hf
    cases hw : c.writeFaults with
    | nil => simp [hw] at hf
    | cons _ _ => simp [hw] at hf ⊢
  · cases h

/-- The stream in memory. -/
def stream : ByteStream Channel where
  read := read
  write := write
  flush := flush
  setTimeout := setTimeout
  supply := supply
  stalls c := c.writeFaults.length
  length_read := length_read
  supply_read := supply_read
  supply_setTimeout := supply_setTimeout
  stalls_write h _ := stalls_write h

end Channel

end TagReader
