/-
# What is made of one reply

Many operations ask one question and decode the payload of the reply.  This file holds what their
decoders have in common, and says what becomes of the payload.

* `OnlyShort`: the decoder fails only where the payload is too short.  Sequences of readings inherit
  this from their parts.
* `Payload.prefixed_eq_ok_iff`: bytes behind their length are read as what stands there.
* `settle`: an operation that looks for tags by one question yields what its decoder makes of the
  payload, and "nothing there" if the reader reports a status (`Search.result_eq_settle`).
-/
import TagReader.Proofs.Absence

namespace TagReader

variable {σ α β : Type}

/-- What comes of a sequence of readings comes of its parts. -/
lemma bind_eq_ok_iff {x : Except Fault α} {f : α → Except Fault β} {b : β} :
    x >>= f = .ok b ↔ ∃ a, x = .ok a ∧ f a = .ok b := by
  cases x with
  | error e => exact iff_of_false nofun (by rintro ⟨a, ⟨⟩, -⟩)
  | ok a => exact ⟨fun h => ⟨a, rfl, h⟩, by rintro ⟨_, ⟨⟩, h⟩; exact h⟩

/-- A sequence of readings fails where one of its parts does. -/
lemma bind_eq_error_iff {x : Except Fault α} {f : α → Except Fault β} {e : Fault} :
    x >>= f = .error e ↔ x = .error e ∨ ∃ a, x = .ok a ∧ f a = .error e := by
  cases x with
  | error e' =>
    constructor
    · intro h
      exact .inl (congrArg Except.error (Except.error.inj h))
    · rintro (h | ⟨_, ⟨⟩, -⟩)
      exact congrArg Except.error (Except.error.inj h)
  | ok a =>
    constructor
    · intro h
      exact .inr ⟨a, rfl, h⟩
    · rintro (h | ⟨_, ⟨⟩, h⟩)
      · cases h
      · exact h

/-! ## Payloads that are too short -/

/-- If the reading fails, then the payload is too short, and the fault gives the length that it has
and a greater one that it would have to have. -/
def OnlyShort (p : Bytes) (r : Except Fault α) : Prop :=
  ∀ f, r = .error f → ∃ need, p.length < need ∧ f = .invalidLength need p.length

namespace OnlyShort

variable {p : Bytes}

lemma ok (a : α) : OnlyShort p (.ok a) := by
  rintro f ⟨⟩

lemma error {need : Nat} (h : p.length < need) :
    OnlyShort p (.error (.invalidLength need p.length) : Except Fault α) := by
  rintro _ ⟨⟩
  exact ⟨need, h, rfl⟩

lemma bind {x : Except Fault α} {f : α → Except Fault β} (hx : OnlyShort p x)
    (hf : ∀ a, OnlyShort p (f a)) : OnlyShort p (x >>= f) := by
  rcases x with e | a
  · obtain ⟨need, hneed, rfl⟩ := hx e rfl
    exact error hneed
  · exact hf a

lemma mapM {f : α → Except Fault β} (hf : ∀ a, OnlyShort p (f a)) (as : List α) :
    OnlyShort p (as.mapM f) := by
  induction as with
  | nil => exact ok []
  | cons a as ih =>
    rw [List.mapM_cons]
    exact (hf a).bind fun b => ih.bind fun bs => ok (b :: bs)

/-- A reading that cannot succeed complains that the payload is too short. -/
lemma exists_error {r : Except Fault α} (h : OnlyShort p r) (hnot : ∀ a, r ≠ .ok a) :
    ∃ need, p.length < need ∧ r = .error (.invalidLength need p.length) := by
  cases r with
  | ok a => exact absurd rfl (hnot a)
  | error f =>
    obtain ⟨need, hneed, rfl⟩ := h f rfl
    exact ⟨need, hneed, rfl⟩

end OnlyShort

namespace Payload

variable (p : Bytes) (i : Nat)

lemma onlyShort_byte : OnlyShort p (byte p i) := by
  unfold byte
  cases hb : p[i]? with
  | some b => exact .ok b
  | none => exact .error (Nat.lt_succ_of_le (List.getElem?_eq_none_iff.1 hb))

lemma onlyShort_slice (len : Nat) : OnlyShort p (slice p i len) := by
  unfold slice ensure
  by_cases h : p.length < i + len
  · rw [if_pos h]
    exact .error h
  · rw [if_neg h]
    exact .ok _

lemma onlyShort_prefixed : OnlyShort p (prefixed p i) :=
  (onlyShort_byte p i).bind fun _ => onlyShort_slice p _ _

variable {p i}

/-- Bytes behind their length are read as what stands there. -/
lemma prefixed_eq_ok_iff {bs : Bytes} :
    prefixed p i = .ok bs ↔ ∃ n rest, p.drop i = n :: (bs ++ rest) ∧ n.toNat = bs.length := by
  unfold prefixed
  rw [bind_eq_ok_iff]
  constructor
  · rintro ⟨n, hbyte, hslice⟩
    obtain ⟨hlen, rfl⟩ := slice_eq_ok_iff.1 hslice
    obtain ⟨hi, rfl⟩ := List.getElem?_eq_some_iff.1 (byte_eq_ok_iff.1 hbyte)
    refine ⟨p[i], (p.drop (i + 1)).drop p[i].toNat, ?_, ?_⟩
    · rw [List.take_append_drop]
      exact List.drop_eq_getElem_cons hi
    · rw [List.length_take, List.length_drop]
      omega
  · rintro ⟨n, rest, hdrop, hn⟩
    have hnext : p.drop (i + 1) = bs ++ rest := by
      rw [← List.drop_drop, hdrop]
      rfl
    have hlen := congrArg List.length hdrop
    simp only [List.length_drop, List.length_cons, List.length_append] at hlen
    refine ⟨n, byte_eq_ok_iff.2 ?_, slice_eq_ok_iff.2 ⟨by omega, ?_⟩⟩
    · rw [← List.head?_drop, hdrop]
      rfl
    · rw [hnext, List.take_left' hn.symm]

end Payload

/-! ## Operations that ask one question -/

/-- What an operation that looks for tags makes of the answer to its question: a payload is read, a
status means that there is nothing there, and any other fault is one of the operation. -/
def settle (absent : Finding) (read : Bytes → Except Fault Finding) :
    Except Fault Bytes → Except Fault Finding
  | .ok p => read p
  | .error (.readerStatus _) => .ok absent
  | .error f => .error f

namespace Search

/-- Performing an operation that looks for tags is asking its questions. -/
lemma result_perform (x : Search) (e : Engine σ) (b : Iso14443b.Session) (s : σ) :
    (x.operation.perform e b s).1.result =
      (e.conduct (Talk.seek x.absent x.inquiries) s).result := by
  rw [(x.operation.perform_spec e b s).1, ← (e.conduct_map (x.operation.talk b) Prod.fst s).1,
    ← x.silent_talk b, (e.conduct_silent _ s).1]
  rfl

/-- If there is one question, its answer decides. -/
lemma result_eq_settle {x : Search} {q : Inquiry} (hq : x.inquiries = [q]) (e : Engine σ)
    (b : Iso14443b.Session) (s : σ) :
    (x.operation.perform e b s).1.result =
      settle x.absent q.read (e.serve ⟨q.command, none⟩ s).result := by
  rw [x.result_perform, hq, Talk.seek, Engine.result_conduct_ask]
  cases (e.serve ⟨q.command, none⟩ s).result with
  | ok p => exact e.result_conduct_ofExcept (q.read p) _
  | error f => cases f <;> rfl

end Search

end TagReader
