/-
# What decoders complain about

Whatever a reader sends, the decoders of the library fail in two ways only: the bytes are too
few, or a field has a value that it must not have.  `OnlyMalformed` says this of one reading,
and the lemmas below say it of every decoder; sequences of readings inherit it from their parts.
-/
import Mathlib.Tactic.Common
import TagReader.Iso14443a
import TagReader.Iso14443b
import TagReader.Iso15693
import TagReader.Mifare.Macros
import TagReader.Reader

namespace TagReader

variable {α β : Type}

/-- The fault is about the form of some bytes: their number, or the value of a field. -/
def Fault.isMalformed : Fault → Bool
  | invalidLength _ _ => true
  | format _ => true
  | _ => false

/-- If the reading fails, then for the form of the bytes. -/
def OnlyMalformed (r : Except Fault α) : Prop := ∀ f, r = .error f → f.isMalformed = true

namespace OnlyMalformed

lemma ok (a : α) : OnlyMalformed (.ok a) := by
  rintro f ⟨⟩

lemma error {f : Fault} (h : f.isMalformed = true) : OnlyMalformed (.error f : Except Fault α) := by
  rintro _ ⟨⟩
  exact h

lemma bind {x : Except Fault α} {f : α → Except Fault β} (hx : OnlyMalformed x)
    (hf : ∀ a, OnlyMalformed (f a)) : OnlyMalformed (x >>= f) := by
  rcases x with e | a
  · exact error (hx e rfl)
  · exact hf a

lemma map {x : Except Fault α} (hx : OnlyMalformed x) (g : α → β) : OnlyMalformed (x.map g) := by
  rcases x with e | a
  · exact error (hx e rfl)
  · exact ok (g a)

lemma ite {c : Prop} [Decidable c] {x y : Except Fault α} (hx : OnlyMalformed x)
    (hy : OnlyMalformed y) : OnlyMalformed (if c then x else y) := by
  by_cases h : c
  · rwa [if_pos h]
  · rwa [if_neg h]

lemma mapM {f : α → Except Fault β} (hf : ∀ a, OnlyMalformed (f a)) (as : List α) :
    OnlyMalformed (as.mapM f) := by
  induction as with
  | nil => exact ok []
  | cons a as ih =>
    rw [List.mapM_cons]
    exact (hf a).bind fun b => ih.bind fun bs => ok (b :: bs)

end OnlyMalformed

/-! ## Reading by position -/

namespace Payload

lemma onlyMalformed_ensure (p : Bytes) (need : Nat) : OnlyMalformed (ensure p need) :=
  .ite (.error rfl) (.ok _)

lemma onlyMalformed_slice (p : Bytes) (i len : Nat) : OnlyMalformed (slice p i len) :=
  (onlyMalformed_ensure p _).bind fun _ => .ok _

lemma onlyMalformed_byte (p : Bytes) (i : Nat) : OnlyMalformed (byte p i) := by
  unfold byte
  rcases p[i]? with _ | b
  · exact .error rfl
  · exact .ok b

lemma onlyMalformed_octets (n : Nat) (p : Bytes) (i : Nat) : OnlyMalformed (octets n p i) := by
  unfold octets
  by_cases h : i + n ≤ p.length
  · rw [dif_pos h]
    exact .ok _
  · rw [dif_neg h]
    exact .error rfl

lemma onlyMalformed_prefixed (p : Bytes) (i : Nat) : OnlyMalformed (prefixed p i) :=
  (onlyMalformed_byte p i).bind fun _ => onlyMalformed_slice p _ _

end Payload

/-! ## Activations and lists of tags -/

lemma Atqa.onlyMalformed_ofBytes (bs : Bytes) : OnlyMalformed (Atqa.ofBytes bs) := by
  unfold ofBytes
  split
  · exact .ok _
  · exact .error rfl

lemma Atqa.onlyMalformed_uidLength (a : Atqa) : OnlyMalformed a.uidLength := by
  unfold uidLength
  split
  · exact .ok 4
  · exact .ok 7
  · exact .ok 10
  · exact .error rfl

lemma Target.onlyMalformed_ofReport (p : Bytes) : OnlyMalformed (Target.ofReport p) := by
  refine (Payload.onlyMalformed_ensure p 7).bind fun _ => ?_
  refine (Atqa.onlyMalformed_ofBytes _).bind fun atqa => ?_
  refine (Atqa.onlyMalformed_uidLength atqa).bind fun announced => ?_
  exact .ite (.error rfl) (.ok _)

namespace TagList

lemma onlyMalformed_entries (p : Bytes) (n i : Nat) : OnlyMalformed (entries p n i) := by
  induction n generalizing i with
  | zero => exact .ok []
  | succ n ih =>
    exact (Payload.onlyMalformed_prefixed p i).bind fun bs => (ih _).bind fun _ => .ok _

lemma onlyMalformed_decode (p : Bytes) : OnlyMalformed (decode p) :=
  (Payload.onlyMalformed_byte p 0).bind fun _ => onlyMalformed_entries p _ 1

lemma onlyMalformed_decodeFixed (p : Bytes) : OnlyMalformed (decodeFixed p) :=
  (Payload.onlyMalformed_byte p 0).bind fun _ =>
    .mapM (fun _ => (Payload.onlyMalformed_slice p _ _).bind fun _ => .ok _) _

end TagList

/-! ## Replies of tags -/

namespace Iso14443a

lemma onlyMalformed_decodeAnticollision (p : Bytes) : OnlyMalformed (decodeAnticollision p) := by
  refine (Payload.onlyMalformed_octets 4 p 0).bind fun uid => ?_
  rcases p[4]? with _ | bcc
  · exact .ok uid
  · exact .ite (.error rfl) (.ok uid)

lemma onlyMalformed_decodeAts (p : Bytes) : OnlyMalformed (decodeAts p) :=
  (Payload.onlyMalformed_byte p 0).bind fun _ => Payload.onlyMalformed_slice p _ _

end Iso14443a

lemma Atqb.onlyMalformed_ofBytes (p : Bytes) : OnlyMalformed (Atqb.ofBytes p) := by
  refine (Payload.onlyMalformed_ensure p 12).bind fun _ => ?_
  refine (Payload.onlyMalformed_byte p 0).bind fun first => ?_
  refine .ite (.error rfl) ?_
  refine (Payload.onlyMalformed_octets 4 p 1).bind fun _ => ?_
  refine (Payload.onlyMalformed_octets 4 p 5).bind fun _ => ?_
  exact (Payload.onlyMalformed_octets 3 p 9).bind fun _ => .ok _

lemma Iso14443b.onlyMalformed_decodeBlocks (n : UInt8) (p : Bytes) :
    OnlyMalformed (decodeBlocks n p) :=
  (Payload.onlyMalformed_byte p 0).bind fun _ => Payload.onlyMalformed_slice p _ _

namespace SystemInformation

lemma onlyMalformed_field (p : Bytes) (present : Bool) (i : Nat) :
    OnlyMalformed (field p present i) :=
  .ite ((Payload.onlyMalformed_byte p i).bind fun _ => .ok _) (.ok _)

lemma onlyMalformed_decode (p : Bytes) : OnlyMalformed (decode p) := by
  refine (Payload.onlyMalformed_byte p 0).bind fun flags => ?_
  refine (Payload.onlyMalformed_slice p 1 uidLength).bind fun uid => ?_
  refine (onlyMalformed_field p _ _).bind fun x => ?_
  refine (onlyMalformed_field p _ _).bind fun y => ?_
  refine (onlyMalformed_field p _ _).bind fun z => ?_
  refine (onlyMalformed_field p _ _).bind fun v => ?_
  exact (onlyMalformed_field p _ _).bind fun w => .ok _

end SystemInformation

lemma Mifare.onlyMalformed_writtenUid (p : Bytes) : OnlyMalformed (writtenUid p) :=
  (Payload.onlyMalformed_prefixed p 0).bind fun _ => .ok _

end TagReader
