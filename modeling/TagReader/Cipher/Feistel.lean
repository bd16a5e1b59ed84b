/-
# Feistel networks

A round takes two halves to the right half and the left half changed by a function of the
right one and a round key.  Whatever that function is, the rounds can be undone: run over
the halves in swapped order with the keys in reverse order, they lead back to where they
started (`rounds_reverse_swap`).
-/
namespace TagReader
namespace Feistel

variable {κ : Type} {w : Nat}

/-- Two halves of a block, left one first. -/
abbrev Halves (w : Nat) : Type := BitVec w × BitVec w

/-- One round with the round function `f`. -/
def round (f : κ → BitVec w → BitVec w) (h : Halves w) (k : κ) : Halves w := (h.2, h.1 ^^^ f k h.2)

/-- All rounds, one for each key. -/
def rounds (f : κ → BitVec w → BitVec w) (ks : List κ) (h : Halves w) : Halves w :=
  ks.foldl (round f) h

/-- The halves in the other order. -/
def swap (h : Halves w) : Halves w := (h.2, h.1)

@[simp] theorem swap_swap (h : Halves w) : swap (swap h) = h := rfl

/-- A round over the swapped result of a round yields the swapped start. -/
theorem round_swap_round (f : κ → BitVec w → BitVec w) (h : Halves w) (k : κ) :
    round f (swap (round f h k)) k = swap h := by
  simp only [round, swap, BitVec.xor_assoc, BitVec.xor_self, BitVec.xor_zero]

theorem rounds_append (f : κ → BitVec w → BitVec w) (ks ls : List κ) (h : Halves w) :
    rounds f (ks ++ ls) h = rounds f ls (rounds f ks h) := by
  simp [rounds, List.foldl_append]

/-- The rounds with the keys in reverse order undo the rounds, up to the order of the halves. -/
theorem rounds_reverse_swap (f : κ → BitVec w → BitVec w) (ks : List κ) (h : Halves w) :
    rounds f ks.reverse (swap (rounds f ks h)) = swap h := by
  induction ks generalizing h with
  | nil => rfl
  | cons k ks ih =>
    rw [List.reverse_cons, rounds_append]
    have hs : rounds f (k :: ks) h = rounds f ks (round f h k) := rfl
    rw [hs, ih]
    exact round_swap_round f h k

end Feistel
end TagReader
