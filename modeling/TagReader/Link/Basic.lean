/-
# Links to a reader

A link moves whole frames between host and reader.  It has three calls: `send` a frame,
`receive` one within a time, and `discard` whatever has arrived unasked.  A link is given by
what these calls do to its state, so a computation over a link is a function from a state to
an `Outcome`: a result or a fault, the state afterwards, and the notes written on the way.

`Run` is the type of such computations.  They are sequenced by `do`; the first fault
ends a sequence, unless it is caught by `Run.attempt`.
-/
import TagReader.Note
import TagReader.Fault

namespace TagReader

/-- What a computation over a link leaves behind. -/
structure Outcome (σ α : Type) where
  /-- Its value, or why it has none. -/
  result : Except Fault α
  /-- The state of the link afterwards. -/
  state : σ
  /-- The notes written, oldest first. -/
  notes : List Note := []

/-- A computation over a link whose states are `σ`. -/
def Run (σ α : Type) : Type := σ → Outcome σ α

namespace Run

variable {σ α β : Type}

/-- Yields a value. -/
def value (a : α) : Run σ α := fun s => ⟨.ok a, s, []⟩

/-- Ends with a fault. -/
def fail (e : Fault) : Run σ α := fun s => ⟨.error e, s, []⟩

/-- Goes on after a value; a fault ends the sequence. -/
def andThen (x : Run σ α) (f : α → Run σ β) : Run σ β := fun s =>
  match x s with
  | ⟨.ok a, s', ns⟩ =>
    match f a s' with
    | ⟨r, s'', ns'⟩ => ⟨r, s'', ns ++ ns'⟩
  | ⟨.error e, s', ns⟩ => ⟨.error e, s', ns⟩

instance : Monad (Run σ) where
  pure := value
  bind := andThen

/-- Yields a value or ends with a fault. -/
def ofExcept (r : Except Fault α) : Run σ α := fun s => ⟨r, s, []⟩

/-- Writes a note. -/
def note (level : Level) (text : String) : Run σ Unit := fun s => ⟨.ok (), s, [⟨level, text⟩]⟩

/-- Runs a computation and hands on its fault as a value. -/
def attempt (x : Run σ α) : Run σ (Except Fault α) := fun s =>
  match x s with
  | ⟨r, s', ns⟩ => ⟨.ok r, s', ns⟩

theorem bind_apply (x : Run σ α) (f : α → Run σ β) (s : σ) : (x >>= f) s = x.andThen f s := rfl

end Run

/-- A link: what its three calls do to its state. -/
structure Link (σ : Type) where
  /-- Sends one complete frame. -/
  send : Bytes → Run σ Unit
  /-- Receives one frame, waiting at most so many milliseconds. -/
  receive : Nat → Run σ Bytes
  /-- Drops what has already arrived, so that a late reply is not taken for the next one. -/
  discard : Run σ Unit

/-- A link to nothing: it accepts every frame and never answers. -/
def Link.silent : Link Unit where
  send _ := Run.value ()
  receive _ := Run.fail .timeout
  discard := Run.value ()

end TagReader
