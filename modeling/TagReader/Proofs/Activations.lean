/-
# Activated tags, decoded

The report of an activation holds an identifier, the answer to the request and the select
acknowledge, and its parts are found from its end: the length that the answer announces is looked up
at a place that depends on the length of the payload.  This file says when the two agree, and that
nothing is lost then.

* `Atqa.Announces`: the two top bits of the first byte announce a length, or they are reserved
  (`Atqa.uidLength_cases`).
* `Target.ofReport_report_cases`: what is made of a payload that is cut before its last three bytes.
* `Target.ofReport_eq_ok_iff`: a tag is decoded from its report, and from nothing else.

The main result is `Target.decodes_losslessly`.
-/
import TagReader.Proofs.Replies

namespace TagReader

variable {σ : Type}

namespace Atqa

/-- The length of an identifier that the two top bits of a byte announce. -/
inductive Announces (first : UInt8) : Nat → Prop where
  | single (h : first.toNat / 64 = 0) : Announces first 4
  | double (h : first.toNat / 64 = 1) : Announces first 7
  | triple (h : first.toNat / 64 = 2) : Announces first 10

lemma Announces.unique {first : UInt8} {n m : Nat} (hn : Announces first n)
    (hm : Announces first m) : n = m := by
  cases hn with
  | single h =>
    cases hm with
    | single => rfl
    | double h' => cases h.symm.trans h'
    | triple h' => cases h.symm.trans h'
  | double h =>
    cases hm with
    | single h' => cases h.symm.trans h'
    | double => rfl
    | triple h' => cases h.symm.trans h'
  | triple h =>
    cases hm with
    | single h' => cases h.symm.trans h'
    | double h' => cases h.symm.trans h'
    | triple => rfl

lemma Announces.four_le {first : UInt8} {n : Nat} (h : Announces first n) : 4 ≤ n := by
  cases h <;> decide

/-- The two top bits of a byte are what remains of it by 64. -/
lemma shiftRight_six (b : UInt8) : (b >>> 6).toNat = b.toNat / 64 := by
  rw [UInt8.toNat_shiftRight]
  exact Nat.shiftRight_eq_div_pow _ 6

/-- The fault that the two top bits announce nothing. -/
def reserved (a : Atqa) : Fault :=
  .format ("atqa " ++ Hex.compact a.bytes.bytes ++ " declares a reserved uid size")

/-- An answer announces a length, or its size is reserved. -/
lemma uidLength_cases (a : Atqa) :
    (∃ n, Announces (a.bytes.bytes.headD 0) n ∧ a.uidLength = .ok n) ∨
      (∀ n, ¬Announces (a.bytes.bytes.headD 0) n) ∧ a.uidLength = .error a.reserved := by
  have htop := shiftRight_six (a.bytes.bytes.headD 0)
  unfold uidLength
  split
  · rename_i h
    rw [h] at htop
    exact .inl ⟨4, .single htop.symm, rfl⟩
  · rename_i h
    rw [h] at htop
    exact .inl ⟨7, .double htop.symm, rfl⟩
  · rename_i h
    rw [h] at htop
    exact .inl ⟨10, .triple htop.symm, rfl⟩
  · rename_i hzero hone htwo
    refine .inr ⟨fun n hn => ?_, rfl⟩
    cases hn with
    | single h => exact hzero (UInt8.toNat_inj.1 (htop.trans h))
    | double h => exact hone (UInt8.toNat_inj.1 (htop.trans h))
    | triple h => exact htwo (UInt8.toNat_inj.1 (htop.trans h))

end Atqa

namespace Target

open Atqa (Announces)

/-- The length of the identifier is the one that is announced. -/
def Fits (t : Target) : Prop := Announces (t.atqa.bytes.bytes.headD 0) t.uid.bytes.length

/-- The fault that the announced length is not the one that is there. -/
def mismatch (announced carried : Nat) : Fault :=
  .format s!"atqa announces a {announced} byte uid, reply carries {carried}"

/-! ## Reports from their end -/

/-- A payload that is not too short is cut before its last three bytes. -/
lemma exists_report {p : Bytes} (h : 3 ≤ p.length) :
    ∃ t : Target, p = t.report ∧ t.uid.bytes.length = p.length - 3 := by
  have hlast : (p.drop (p.length - 3)).length = 3 := by
    rw [List.length_drop]
    omega
  obtain ⟨first, second, sak, hdrop⟩ := List.length_eq_three.1 hlast
  refine ⟨⟨⟨p.take (p.length - 3)⟩, ⟨⟨[first, second], rfl⟩⟩, sak⟩, ?_, ?_⟩
  · show p = p.take (p.length - 3) ++ [first, second] ++ [sak]
    rw [List.append_assoc]
    exact (List.take_append_drop (p.length - 3) p).symm.trans (congrArg _ hdrop)
  · show (p.take (p.length - 3)).length = _
    rw [List.length_take]
    omega

variable (t : Target)

lemma length_report : t.report.length = t.uid.bytes.length + 3 := by
  rw [report, List.length_append, List.length_append, t.atqa.bytes.length_eq]
  rfl

lemma ofReport_of_short {p : Bytes} (h : p.length < 7) :
    ofReport p = .error (.invalidLength 7 p.length) := by
  unfold ofReport Payload.ensure
  rw [if_pos h]
  rfl

/-- What the report of a tag is read as: the tag, if its answer announces the right length. -/
lemma ofReport_report (h : 4 ≤ t.uid.bytes.length) :
    ofReport t.report = t.atqa.uidLength.bind fun announced =>
      if announced ≠ t.uid.bytes.length then .error (mismatch announced t.uid.bytes.length)
      else .ok t := by
  have hcarried : t.report.length - 3 = t.uid.bytes.length := by
    rw [length_report, Nat.add_sub_cancel]
  have hlong : Payload.ensure t.report 7 = .ok () := by
    rw [Payload.ensure_eq_ok_iff, length_report]
    omega
  have hbehind : t.report.drop t.uid.bytes.length = t.atqa.bytes.bytes ++ [t.sak] := by
    rw [report, List.append_assoc, List.drop_left]
  have hatqa : Atqa.ofBytes (t.atqa.bytes.bytes) = .ok t.atqa := by
    rw [Atqa.ofBytes, Octets.ofBytes?_bytes]
  have hsak : t.report.getD (t.uid.bytes.length + 2) 0 = t.sak := by
    have hfront : (t.uid.bytes ++ t.atqa.bytes.bytes).length = t.uid.bytes.length + 2 := by
      rw [List.length_append, t.atqa.bytes.length_eq]
    rw [report, ← hfront, List.getD_append_right _ _ _ _ le_rfl, Nat.sub_self]
    rfl
  have huid : t.report.take t.uid.bytes.length = t.uid.bytes := by
    rw [report, List.append_assoc, List.take_left]
  unfold ofReport
  rw [hlong]
  simp only [hcarried, hbehind, List.take_left' t.atqa.bytes.length_eq, hatqa, hsak, huid]
  show (t.atqa.uidLength >>= fun announced => _) = _
  refine bind_congr fun announced => ?_
  split
  · rfl
  · rfl

/-- The report of a tag is read as the tag if its answer announces the right length.  If the answer
announces another length, or none at all, then this is the fault. -/
lemma ofReport_report_cases (h : 4 ≤ t.uid.bytes.length) :
    (t.Fits ∧ ofReport t.report = .ok t) ∨
      (∃ n, Announces (t.atqa.bytes.bytes.headD 0) n ∧ n ≠ t.uid.bytes.length ∧
        ofReport t.report = .error (mismatch n t.uid.bytes.length)) ∨
      (∀ n, ¬Announces (t.atqa.bytes.bytes.headD 0) n) ∧
        ofReport t.report = .error t.atqa.reserved := by
  rw [ofReport_report t h]
  rcases t.atqa.uidLength_cases with ⟨n, hn, hlen⟩ | ⟨hnone, hlen⟩
  · rw [hlen]
    by_cases heq : n = t.uid.bytes.length
    · exact .inl ⟨show Announces _ t.uid.bytes.length from heq ▸ hn, if_neg (not_not.2 heq)⟩
    · exact .inr (.inl ⟨n, hn, heq, if_pos heq⟩)
  · rw [hlen]
    exact .inr (.inr ⟨hnone, rfl⟩)

/-- A tag is decoded from its report, and from nothing else, if its answer announces the length of
its identifier. -/
lemma ofReport_eq_ok_iff {p : Bytes} {t : Target} : ofReport p = .ok t ↔ p = t.report ∧ t.Fits := by
  constructor
  · intro h
    have hlong : 7 ≤ p.length := by
      by_contra hshort
      rw [ofReport_of_short (Nat.lt_of_not_le hshort)] at h
      cases h
    obtain ⟨t', rfl, hlen⟩ := exists_report (p := p) (by omega)
    rcases ofReport_report_cases t' (by omega) with ⟨hfits, hok⟩ | ⟨n, -, -, herr⟩ | ⟨-, herr⟩
    · cases hok.symm.trans h
      exact ⟨rfl, hfits⟩
    · cases herr.symm.trans h
    · cases herr.symm.trans h
  · rintro ⟨rfl, hfits⟩
    rcases ofReport_report_cases t hfits.four_le with ⟨-, hok⟩ | ⟨n, hn, hne, -⟩ | ⟨hnone, -⟩
    · exact hok
    · exact absurd (hn.unique hfits) hne
    · exact absurd hfits (hnone _)

/-- The answer begins three bytes before the end of the report. -/
lemma getElem?_report : t.report[t.report.length - 3]? = some (t.atqa.bytes.bytes.headD 0) := by
  obtain ⟨⟨uid⟩, ⟨⟨atqa, hatqa⟩⟩, sak⟩ := t
  obtain ⟨first, second, rfl⟩ := List.length_eq_two.1 hatqa
  simp [report]

/-! ## Payloads -/

/-- Where a tag is decoded, is decided by the number of bytes and by the byte three places before
the end. -/
lemma exists_ofReport_iff {p : Bytes} : (∃ t, ofReport p = .ok t) ↔
    ∃ first, p[p.length - 3]? = some first ∧ Announces first (p.length - 3) := by
  constructor
  · rintro ⟨t, h⟩
    obtain ⟨rfl, hfits⟩ := ofReport_eq_ok_iff.1 h
    refine ⟨_, t.getElem?_report, ?_⟩
    rw [length_report, Nat.add_sub_cancel]
    exact hfits
  · rintro ⟨first, hfirst, hann⟩
    obtain ⟨t, rfl, hlen⟩ := exists_report (p := p) (by have := hann.four_le; omega)
    cases t.getElem?_report.symm.trans hfirst
    exact ⟨t, ofReport_eq_ok_iff.2 ⟨rfl, show Announces _ _ from hlen ▸ hann⟩⟩

/-- A payload that is long enough but from which no tag is decoded announces the wrong length, or
none. -/
lemma ofReport_of_long {p : Bytes} (hlong : 7 ≤ p.length) (hnot : ∀ t, ofReport p ≠ .ok t) :
    ∃ (uid : Bytes) (a : Atqa) (sak : UInt8), p = uid ++ a.bytes.bytes ++ [sak] ∧
      ((∃ n, Announces (a.bytes.bytes.headD 0) n ∧ n ≠ uid.length ∧
        ofReport p = .error (mismatch n uid.length)) ∨
      (∀ n, ¬Announces (a.bytes.bytes.headD 0) n) ∧ ofReport p = .error a.reserved) := by
  obtain ⟨t, rfl, hlen⟩ := exists_report (p := p) (by omega)
  refine ⟨t.uid.bytes, t.atqa, t.sak, rfl, ?_⟩
  rcases ofReport_report_cases t (by omega) with ⟨-, hok⟩ | hmismatch | hreserved
  · exact absurd hok (hnot t)
  · exact .inl hmismatch
  · exact .inr hreserved

/-- **Reports of activations are decoded without loss.**  A tag is decoded exactly if there are as
many bytes before the last three as the two top bits of the first of these announce.  Then the
identifier, the answer and the acknowledge follow each other in the payload and fill it, so that
the identifier has nothing of the other two and different payloads give different tags.  Each tag
whose answer announces the length of its identifier is decoded from its three parts.  Of the other
payloads, those of fewer than seven bytes are too short; in the rest the announced size is reserved,
or it is not the one that is there.  The operations that activate tags yield what is decoded, and no
tag if the reader reports a status. -/
theorem decodes_losslessly (e : Engine σ) (b : Iso14443b.Session) (s : σ) :
    (∀ p, (∃ t, ofReport p = .ok t) ↔
        ∃ first, p[p.length - 3]? = some first ∧ Announces first (p.length - 3)) ∧
      (∀ p t, ofReport p = .ok t → t.uid.bytes ++ t.atqa.bytes.bytes ++ [t.sak] = p ∧
        t.uid.bytes = p.take (p.length - 3)) ∧
      (∀ p q t, ofReport p = .ok t → ofReport q = .ok t → p = q) ∧
      (∀ t : Target, Announces (t.atqa.bytes.bytes.headD 0) t.uid.bytes.length →
        ofReport (t.uid.bytes ++ t.atqa.bytes.bytes ++ [t.sak]) = .ok t) ∧
      (∀ p, p.length < 7 → ofReport p = .error (.invalidLength 7 p.length)) ∧
      (∀ p, 7 ≤ p.length → (∀ t, ofReport p ≠ .ok t) →
        ∃ (uid : Bytes) (a : Atqa) (sak : UInt8), p = uid ++ a.bytes.bytes ++ [sak] ∧
          ((∃ n, Announces (a.bytes.bytes.headD 0) n ∧ n ≠ uid.length ∧
            ofReport p = .error (mismatch n uid.length)) ∨
          (∀ n, ¬Announces (a.bytes.bytes.headD 0) n) ∧ ofReport p = .error a.reserved)) ∧
      ((Operation.iso14443a .activateIdle).perform e b s).1.result =
        settle .nothing (fun p => (ofReport p).map .target)
          (e.serve ⟨Iso14443a.Request.activateIdle.command, none⟩ s).result ∧
      ∀ uid, ((Operation.iso14443a (.activateWakeup uid)).perform e b s).1.result =
        settle .nothing (fun p => (ofReport p).map .target)
          (e.serve ⟨(Iso14443a.Request.activateWakeup uid).command, none⟩ s).result := by
  refine ⟨fun p => exists_ofReport_iff, fun p t h => ?_, fun p q t hp hq => ?_,
    fun t hfits => ofReport_eq_ok_iff.2 ⟨rfl, hfits⟩, fun p => ofReport_of_short,
    fun p => ofReport_of_long, ?_, fun uid => ?_⟩
  · obtain ⟨rfl, -⟩ := ofReport_eq_ok_iff.1 h
    refine ⟨rfl, ?_⟩
    rw [length_report, Nat.add_sub_cancel, report, List.append_assoc, List.take_left]
  · exact (ofReport_eq_ok_iff.1 hp).1.trans (ofReport_eq_ok_iff.1 hq).1.symm
  · exact Search.result_eq_settle (x := .activateIdle) rfl e b s
  · exact Search.result_eq_settle (x := .activateWakeup uid) rfl e b s

end Target

end TagReader
