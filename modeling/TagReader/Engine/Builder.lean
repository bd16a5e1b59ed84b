/-
# Building an engine

An engine needs a link; trailer and settings have defaults.  `Engine.Builder` collects what a
caller gives.  `build` yields the engine, `connect` also probes the reader behind it.
-/
import TagReader.Reader

namespace TagReader

/-- What is known so far of an engine to be. -/
structure Engine.Builder (σ : Type) where
  /-- The link, once there is one. -/
  link : Option (Link σ) := none
  /-- The trailer of every frame. -/
  trailer : Trailer := Trailer.standard
  /-- Timeout and retries. -/
  settings : Settings := {}

namespace Engine.Builder

variable {σ : Type}

/-- The engine, if there is a link for it. -/
def build (b : Builder σ) : Except Fault (Engine σ) :=
  match b.link with
  | some link => .ok ⟨link, b.trailer, b.settings⟩
  | none => .error (.validation "no transport configured")

/-- The engine, once the reader behind it has answered a probe. -/
def connect (b : Builder σ) : Run σ (Engine σ) := do
  let e ← Run.ofExcept b.build
  let _ ← e.conduct Reader.probe
  pure e

end Engine.Builder

end TagReader
