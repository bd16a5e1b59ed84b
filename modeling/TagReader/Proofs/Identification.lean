/-
# Finding the variant of the check

A host that does not know which variant of the check its reader uses listens to some frames and
takes the first known variant under which all of them are valid.  This works because no frame is
valid under two of the known variants.

* The registers of two variants differ by what their initial values differ by, shifted once for
  every bit of the data, whatever the data are (`Crc16.register_xor_register`).
* If a frame is valid under both variants, then that is also what their final values differ by
  (`Crc16.offset_of_checks`).  The known variants are so far apart that this does not happen within
  the length of a frame (`Crc16.presets_apart`).

The main result is `Crc16.identify_captures`.
-/
import Mathlib.Data.List.Pairwise
import TagReader.Proofs.Detection

namespace TagReader
namespace Crc16

variable {c d : Crc16} {f : Bytes} {captures : List Bytes}

/-! ## Captured frames -/

/-- A capture has more bytes than a trailer, and its last bytes are the trailer over the others. -/
structure Checks (c : Crc16) (f : Bytes) : Prop where
  longer : 2 < f.length
  verified : c.trailer.verify (Frame.content c.trailer f) (Frame.check c.trailer f) = .ok ()

/-- There are captures, and all of them are valid under a variant. -/
structure Explains (c : Crc16) (captures : List Bytes) : Prop where
  ne_nil : captures ≠ []
  checks : ∀ f ∈ captures, c.Checks f

/-- A capture is a frame that was made under a variant, by a host or by a reader. -/
def Makes (c : Crc16) (f : Bytes) : Prop :=
  (∃ body, Frame.encode c.trailer body = .ok f) ∨
    ∃ status payload, Frame.encodeReply c.trailer status payload = .ok f

lemma validates_iff : c.validates f = true ↔ c.Checks f := by
  have hlen : c.trailer.len = 2 := rfl
  simp only [validates, Bool.and_eq_true, decide_eq_true_eq, beq_iff_eq]
  constructor
  · rintro ⟨hlong, hsame⟩
    refine ⟨hlong, Trailer.verify_eq_ok_iff.2 ?_⟩
    rwa [Frame.content, Frame.check, hlen]
  · rintro ⟨hlong, hverified⟩
    have hsame := Trailer.verify_eq_ok_iff.1 hverified
    rw [Frame.content, Frame.check, hlen] at hsame
    exact ⟨hlong, hsame⟩

lemma checks_of_encode {body : Bytes} (h : Frame.encode c.trailer body = .ok f) :
    c.Checks f ∧ f.length ≤ 255 := by
  obtain ⟨hfits, rfl⟩ := Frame.encode_eq_ok_iff.1 h
  have hlen : c.trailer.len = 2 := rfl
  simp only [Frame.Fits, Frame.maxLength, hlen] at hfits
  refine ⟨⟨?_, ?_⟩, ?_⟩
  · rw [Frame.length_closed, List.length_cons, hlen]
    omega
  · rw [Frame.content_closed, Frame.check_closed]
    exact Trailer.verify_eq_ok_iff.2 rfl
  · rw [Frame.length_closed, List.length_cons, hlen]
    omega

lemma Makes.checks (h : c.Makes f) : c.Checks f ∧ f.length ≤ 255 := by
  rcases h with ⟨body, hbody⟩ | ⟨status, payload, hreply⟩
  · exact checks_of_encode hbody
  · exact checks_of_encode (Frame.encodeReply_eq_ok_iff.1 hreply)

/-! ## Two variants over the same capture -/

/-- The data do not matter for the difference of two registers. -/
lemma register_xor_register (r s : BitVec 16) (data : Bytes) :
    register r data ^^^ register s data = shift^[8 * data.length] (r ^^^ s) := by
  have hnone : (List.zipWith Bool.xor data.wire data.wire).count true = 0 := by
    rw [List.zipWith_self, List.count_eq_zero]
    simp
  have hlen : (List.zipWith Bool.xor data.wire data.wire).length = 8 * data.length := by
    rw [List.length_zipWith, Nat.min_self, Bytes.length_wire]
  rw [register_eq_absorb, register_eq_absorb, ← absorb_xor rfl, absorb_of_count_zero hnone, hlen]

lemma checksum_eq_of_compute_eq {data : Bytes}
    (h : c.trailer.compute data = d.trailer.compute data) : c.checksum data = d.checksum data := by
  have hwire := congrArg Bytes.wire h
  simp only [trailer, Bytes.wire_ofWord16] at hwire
  exact lowBits_injective 16 hwire

lemma offset_of_checks (hc : c.Checks f) (hd : d.Checks f) :
    shift^[8 * (f.length - 2)] (c.init ^^^ d.init) = c.final ^^^ d.final := by
  -- All trailers are two bytes long, so both variants check the same data.
  have hdata : Frame.content d.trailer f = Frame.content c.trailer f := rfl
  have htrailer : Frame.check d.trailer f = Frame.check c.trailer f := rfl
  have hlen : (Frame.content c.trailer f).length = f.length - 2 := by
    have htwo : c.trailer.len = 2 := rfl
    rw [Frame.content, List.length_take, htwo]
    omega
  have hsum : c.checksum (Frame.content c.trailer f) = d.checksum (Frame.content c.trailer f) := by
    have hcheck := Trailer.verify_eq_ok_iff.1 hc.verified
    have hcheck' := Trailer.verify_eq_ok_iff.1 hd.verified
    rw [hdata, htrailer] at hcheck'
    exact checksum_eq_of_compute_eq (hcheck.trans hcheck'.symm)
  have hzero := BitVec.xor_eq_zero_iff.2 hsum
  rw [← hlen, ← register_xor_register, ← BitVec.xor_eq_zero_iff, ← hzero, checksum, checksum]
  ac_rfl

/-- What the initial values differ by does not become what the final values differ by, however many
bytes a frame has room for. -/
def Apart (c d : Crc16) : Prop :=
  c.final ^^^ d.final ∉ List.iterate shift^[8] (c.init ^^^ d.init) 254

instance : DecidableRel Apart := fun _ _ => inferInstanceAs (Decidable (¬_))

instance : Std.Symm Apart where
  symm c d h := by rwa [Apart, BitVec.xor_comm d.final, BitVec.xor_comm d.init]

lemma presets_apart : presets.Pairwise Apart := by decide +kernel

lemma eq_of_checks (hc : c ∈ presets) (hd : d ∈ presets) (hmax : f.length ≤ 255)
    (h : c.Checks f) (h' : d.Checks f) : c = d := by
  by_contra hne
  have hapart := presets_apart.forall hc hd hne
  refine hapart (List.mem_iterate.2 ⟨f.length - 2, by omega, ?_⟩)
  rw [← Function.iterate_mul, offset_of_checks h h']

/-! ## The variant found -/

/-- The first of some candidates under which every capture is valid, if there are any captures. -/
def identifyAmong (candidates : List Crc16) (captures : List Bytes) : Option Crc16 :=
  candidates.find? fun c => !captures.isEmpty && captures.all c.validates

lemma identify_eq (captures : List Bytes) : identify captures = identifyAmong presets captures :=
  rfl

lemma explains_iff :
    (!captures.isEmpty && captures.all c.validates) = true ↔ c.Explains captures := by
  simp only [Bool.and_eq_true, Bool.not_eq_true', List.isEmpty_eq_false_iff, List.all_eq_true,
    validates_iff]
  exact ⟨fun h => ⟨h.1, h.2⟩, fun h => ⟨h.ne_nil, h.checks⟩⟩

/-- One capture decides. -/
lemma eq_of_explains (hmax : ∀ f ∈ captures, f.length ≤ 255) (hc : c ∈ presets) (hd : d ∈ presets)
    (h : c.Explains captures) (h' : d.Explains captures) : c = d := by
  obtain ⟨f, hf⟩ := List.exists_mem_of_ne_nil captures h.ne_nil
  exact eq_of_checks hc hd (hmax f hf) (h.checks f hf) (h'.checks f hf)

lemma explains_of_identifyAmong {candidates : List Crc16}
    (h : identifyAmong candidates captures = some c) : c ∈ candidates ∧ c.Explains captures := by
  have hvalid := List.find?_some h
  exact ⟨List.mem_of_find?_eq_some h, explains_iff.1 hvalid⟩

lemma identifyAmong_eq_some_iff {candidates : List Crc16}
    (hsub : ∀ c ∈ candidates, c ∈ presets) (hmax : ∀ f ∈ captures, f.length ≤ 255) :
    identifyAmong candidates captures = some c ↔ c ∈ candidates ∧ c.Explains captures := by
  refine ⟨explains_of_identifyAmong, ?_⟩
  rintro ⟨hmem, hexp⟩
  have hsome : (identifyAmong candidates captures).isSome = true :=
    List.find?_isSome.2 ⟨c, hmem, explains_iff.2 hexp⟩
  obtain ⟨d, hd⟩ := Option.isSome_iff_exists.1 hsome
  obtain ⟨hmem', hexp'⟩ := explains_of_identifyAmong hd
  rw [hd, eq_of_explains hmax (hsub d hmem') (hsub c hmem) hexp' hexp]

/-- **The variant of the check is recovered from traffic.**  From some frames that hosts or readers
have made under a known variant, that variant is found.  From any captures of at most 255 bytes each
a variant is found exactly if there are captures and it is a known one under which they are all
valid; there is never a second known one of that kind, so the order in which the known variants are
tried plays no part. -/
theorem identify_captures :
    (∀ c ∈ presets, ∀ frames : List Bytes, frames ≠ [] → (∀ f ∈ frames, c.Makes f) →
      identify frames = some c) ∧
    ∀ captures : List Bytes, (∀ f ∈ captures, f.length ≤ 255) →
      (∀ c, identify captures = some c ↔ c ∈ presets ∧ c.Explains captures) ∧
      (∀ c ∈ presets, ∀ d ∈ presets, c.Explains captures → d.Explains captures → c = d) ∧
      ∀ order : List Crc16, order.Perm presets →
        identifyAmong order captures = identify captures := by
  refine ⟨fun c hc frames hne hmade => ?_, fun captures hmax => ⟨fun c => ?_, ?_, ?_⟩⟩
  · rw [identify_eq, identifyAmong_eq_some_iff (fun _ h => h) fun f hf => (hmade f hf).checks.2]
    exact ⟨hc, hne, fun f hf => (hmade f hf).checks.1⟩
  · rw [identify_eq, identifyAmong_eq_some_iff (fun _ h => h) hmax]
  · intro c hc d hd hexp hexp'
    exact eq_of_explains hmax hc hd hexp hexp'
  · intro order hperm
    have hsub : ∀ c ∈ order, c ∈ presets := fun c hc => hperm.mem_iff.1 hc
    ext c
    rw [identify_eq, identifyAmong_eq_some_iff hsub hmax,
      identifyAmong_eq_some_iff (fun _ h => h) hmax, hperm.mem_iff]

end Crc16
end TagReader
