/-
# Dialogues

An operation on a tag asks the reader one or more questions and decides from each answer how
to go on.  A `Dialogue` is such an operation written down without saying who answers: it is
done with a value, it fails, it writes a note and goes on, or it asks a question and goes on
in a way that depends on the answer, a fault or some bytes.

* `Dialogue.run` conducts a dialogue over a link: whoever serves the questions is a parameter.
* `Dialogue.expand` turns a dialogue into one with questions of another kind, by a dialogue
  for each question.
-/
import TagReader.Link.Basic

namespace TagReader

/-- An operation that asks questions of type `ι` and yields a value of type `α`. -/
inductive Dialogue (ι α : Type) where
  /-- The operation is done. -/
  | done (a : α)
  /-- The operation has failed. -/
  | fail (e : Fault)
  /-- A note is written before the operation goes on. -/
  | note (n : Note) (next : Dialogue ι α)
  /-- A question is asked, and the answer decides how the operation goes on. -/
  | ask (q : ι) (next : Except Fault Bytes → Dialogue ι α)

namespace Dialogue

variable {ι κ α β σ : Type}

/-- Goes on after the value of a dialogue; a failed one stays failed. -/
def andThen : Dialogue ι α → (α → Dialogue ι β) → Dialogue ι β
  | done a, f => f a
  | fail e, _ => fail e
  | note n d, f => note n (d.andThen f)
  | ask q k, f => ask q fun r => (k r).andThen f

instance : Monad (Dialogue ι) where
  pure := done
  bind := andThen

/-- A value that is there or not. -/
def ofExcept : Except Fault α → Dialogue ι α
  | .ok a => done a
  | .error e => fail e

/-- Writes a note. -/
def say (level : Level) (text : String) : Dialogue ι Unit := note ⟨level, text⟩ (done ())

/-- Asks a question and yields the answer, fault or not. -/
def question (q : ι) : Dialogue ι (Except Fault Bytes) := ask q done

/-- Asks a question and fails with the fault of its answer, if that is one. -/
def require (q : ι) : Dialogue ι Bytes := ask q ofExcept

/-- Conducts a dialogue over a link; `serve` answers the questions. -/
def run (serve : ι → Run σ Bytes) : Dialogue ι α → Run σ α
  | done a => Run.value a
  | fail e => Run.fail e
  | note n d => (Run.note n.level n.text).andThen fun _ => run serve d
  | ask q k => (Run.attempt (serve q)).andThen fun r => run serve (k r)

/-- Runs a dialogue up to its end and hands on its fault as a value. -/
def outcome : Dialogue ι α → Dialogue ι (Except Fault α)
  | done a => done (.ok a)
  | fail e => done (.error e)
  | note n d => note n d.outcome
  | ask q k => ask q fun r => (k r).outcome

/-- Replaces each question by a dialogue of another kind. -/
def expand (f : ι → Dialogue κ Bytes) : Dialogue ι α → Dialogue κ α
  | done a => done a
  | fail e => fail e
  | note n d => note n (d.expand f)
  | ask q k => (f q).outcome.andThen fun r => (k r).expand f

end Dialogue

end TagReader
