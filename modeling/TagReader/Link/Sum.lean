/-
# One of two links

Where the kind of link is known only when a program starts, its state tells which one it is.
-/
import TagReader.Link.Basic

namespace TagReader

variable {σ τ α : Type}

/-- A computation over one part of a larger state. -/
def Run.within (wrap : σ → τ) (call : Run σ α) (s : σ) : Outcome τ α :=
  match call s with
  | ⟨r, s', notes⟩ => ⟨r, wrap s', notes⟩

/-- A computation over the first or the second of two states. -/
def Run.either (first : Run σ α) (second : Run τ α) : Run (σ ⊕ τ) α
  | .inl s => first.within .inl s
  | .inr t => second.within .inr t

/-- The link that is the first or the second of two, as its state says. -/
def Link.sum (first : Link σ) (second : Link τ) : Link (σ ⊕ τ) where
  send frame := (first.send frame).either (second.send frame)
  receive ms := (first.receive ms).either (second.receive ms)
  discard := first.discard.either second.discard

end TagReader
