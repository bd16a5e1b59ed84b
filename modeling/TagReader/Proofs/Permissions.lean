/-
# Permissions as access bits

There are many more combinations of permissions than patterns of access bits: those on a data block
and those on a trailer are each listed in a table of eight.  This file says which permissions on a
sector can be encoded, and that encoding loses nothing.

* `SectorAccess.Encodable`: each of the three blocks and the trailer have their entries.  If they do
  not, the complaint is about the first one without an entry (`SectorAccess.Lacks`).
* `SectorAccess.patterns_cases`: permissions have patterns that give them, or are complained about.
* `SectorAccess.ofBits_image`: patterns that are written as bits are found in these bits again.

The main result is `SectorAccess.survives_encoding`.
-/
import TagReader.Proofs.Redundancy

namespace TagReader
namespace Classic

/-! ## The tables -/

/-- The permissions on a data block that can be encoded, in the order of their patterns. -/
def BlockAccess.table : List BlockAccess := Pattern.all.map BlockAccess.ofPattern

/-- The permissions on a trailer that can be encoded, in the order of their patterns. -/
def TrailerAccess.table : List TrailerAccess := Pattern.all.map TrailerAccess.ofPattern

/-- The search for the first pattern of an entry fails only if there is no such entry. -/
lemma Pattern.find?_cases {α : Type} [DecidableEq α] (f : Pattern → α) (a : α) :
    (all.find? (fun p => f p == a) = none ∧ a ∉ all.map f) ∨
      ∃ p, all.find? (fun p => f p == a) = some p ∧ f p = a ∧ a ∈ all.map f := by
  cases hfind : all.find? (fun p => f p == a) with
  | none =>
    refine .inl ⟨rfl, ?_⟩
    intro hentry
    obtain ⟨p, hmem, hp⟩ := List.mem_map.1 hentry
    have hnone := List.find?_eq_none.1 hfind p hmem
    simp [hp] at hnone
  | some p =>
    have hp : f p = a := by simpa using List.find?_some hfind
    have hmem : p ∈ all := List.mem_of_find?_eq_some hfind
    exact .inr ⟨p, rfl, hp, List.mem_map.2 ⟨p, hmem, hp⟩⟩

namespace SectorAccess

/-! ## Permissions and their patterns -/

/-- The permissions on data block `n`. -/
def block (a : SectorAccess) : Nat → BlockAccess
  | 0 => a.block0
  | 1 => a.block1
  | _ => a.block2

/-- All parts of the sector have an entry in their table. -/
structure Encodable (a : SectorAccess) : Prop where
  blocks : ∀ n < 3, a.block n ∈ BlockAccess.table
  trailer : a.trailer ∈ TrailerAccess.table

/-- The complaint about permissions that cannot be encoded.  It shows the first part of the sector
that has no entry. -/
inductive Lacks (a : SectorAccess) : Fault → Prop where
  | block (n : Nat) (lt : n < 3) (missing : a.block n ∉ BlockAccess.table)
    (earlier : ∀ m < n, a.block m ∈ BlockAccess.table) :
    Lacks a (.format (s!"block {n} access " ++ (a.block n).inspect ++ " has no encoding"))
  | trailer (missing : a.trailer ∉ TrailerAccess.table)
    (earlier : ∀ m < 3, a.block m ∈ BlockAccess.table) :
    Lacks a (.format ("trailer access " ++ a.trailer.inspect ++ " has no encoding"))

lemma Lacks.not_encodable {a : SectorAccess} {f : Fault} (h : a.Lacks f) : ¬a.Encodable := by
  intro hall
  cases h with
  | block n lt missing _ => exact missing (hall.blocks n lt)
  | trailer missing _ => exact missing hall.trailer

lemma blockPattern_cases (n : Nat) (b : BlockAccess) :
    (blockPattern n b =
        .error (.format (s!"block {n} access " ++ b.inspect ++ " has no encoding")) ∧
      b ∉ BlockAccess.table) ∨
      ∃ p, blockPattern n b = .ok p ∧ BlockAccess.ofPattern p = b ∧ b ∈ BlockAccess.table := by
  rcases Pattern.find?_cases BlockAccess.ofPattern b with ⟨hfind, hmissing⟩ | ⟨p, hfind, hentry⟩
  · have hpattern : b.pattern? = none := hfind
    exact .inl ⟨by rw [blockPattern, hpattern], hmissing⟩
  · have hpattern : b.pattern? = some p := hfind
    exact .inr ⟨p, by rw [blockPattern, hpattern], hentry⟩

lemma trailerPattern_cases (b : TrailerAccess) :
    (trailerPattern b =
        .error (.format ("trailer access " ++ b.inspect ++ " has no encoding")) ∧
      b ∉ TrailerAccess.table) ∨
      ∃ p, trailerPattern b = .ok p ∧ TrailerAccess.ofPattern p = b ∧
        b ∈ TrailerAccess.table := by
  rcases Pattern.find?_cases TrailerAccess.ofPattern b with ⟨hfind, hmissing⟩ | ⟨p, hfind, hentry⟩
  · have hpattern : b.pattern? = none := hfind
    exact .inl ⟨by rw [trailerPattern, hpattern], hmissing⟩
  · have hpattern : b.pattern? = some p := hfind
    exact .inr ⟨p, by rw [trailerPattern, hpattern], hentry⟩

/-- Permissions have patterns that give them, or they are complained about. -/
lemma patterns_cases (a : SectorAccess) :
    (∃ f, a.Lacks f ∧ a.patterns = .error f) ∨
      a.Encodable ∧ ∃ p, a.patterns = .ok p ∧ p.access = a := by
  -- The parts are looked up one after the other, and the first one that is not found decides.
  rcases blockPattern_cases 0 a.block0 with ⟨h0, hmissing⟩ | ⟨p0, h0, hp0, hentry0⟩
  · refine .inl ⟨_, .block 0 (by omega) hmissing (fun m hm => by omega), ?_⟩
    simp only [patterns, h0]
    rfl
  rcases blockPattern_cases 1 a.block1 with ⟨h1, hmissing⟩ | ⟨p1, h1, hp1, hentry1⟩
  · refine .inl ⟨_, .block 1 (by omega) hmissing (fun m hm => ?_), ?_⟩
    · obtain rfl : m = 0 := by omega
      exact hentry0
    · simp only [patterns, h0, h1]
      rfl
  rcases blockPattern_cases 2 a.block2 with ⟨h2, hmissing⟩ | ⟨p2, h2, hp2, hentry2⟩
  · refine .inl ⟨_, .block 2 (by omega) hmissing (fun m hm => ?_), ?_⟩
    · obtain rfl | rfl : m = 0 ∨ m = 1 := by omega
      · exact hentry0
      · exact hentry1
    · simp only [patterns, h0, h1, h2]
      rfl
  have hblocks : ∀ n < 3, a.block n ∈ BlockAccess.table := by
    intro n hn
    obtain rfl | rfl | rfl : n = 0 ∨ n = 1 ∨ n = 2 := by omega
    · exact hentry0
    · exact hentry1
    · exact hentry2
  rcases trailerPattern_cases a.trailer with ⟨ht, hmissing⟩ | ⟨pt, ht, hpt, hentryt⟩
  · refine .inl ⟨_, .trailer hmissing hblocks, ?_⟩
    simp only [patterns, h0, h1, h2, ht]
    rfl
  · refine .inr ⟨⟨hblocks, hentryt⟩, ⟨p0, p1, p2, pt⟩, ?_, ?_⟩
    · simp only [patterns, h0, h1, h2, ht]
      rfl
    · simp only [SectorPatterns.access, hp0, hp1, hp2, hpt]

/-! ## Patterns and their bits -/

/-- Patterns are found in the three bytes that store them, and what follows these is ignored. -/
lemma ofBits_image (p : SectorPatterns) (rest : Bytes) :
    ofBits (p.image ++ rest) = .ok p.access := by
  -- The places of the bits are counted in a whole block, so something is put in front of the bytes.
  let bs : Bytes := List.replicate 6 0 ++ p.image
  have himage : (bs.drop 6).take 3 = p.image := rfl
  have hcheck := (SectorPatterns.redundant_iff bs).1 (SectorPatterns.redundant_of_image himage)
  have hpatterns := SectorPatterns.ofNibbles_eq bs
  rw [SectorPatterns.patternsIn_of_image himage] at hpatterns
  show (SectorPatterns.ofImage (bs.getD 6 0) (bs.getD 7 0) (bs.getD 8 0)).map _ = _
  rw [SectorPatterns.ofImage, if_pos hcheck, hpatterns]
  rfl

lemma bits_of_patterns {a : SectorAccess} {p : SectorPatterns} (h : a.patterns = .ok p) :
    a.bits = .ok (p.image ++ [0x00]) := by
  rw [bits, h]
  rfl

lemma bits_of_error {a : SectorAccess} {f : Fault} (h : a.patterns = .error f) :
    a.bits = .error f := by
  rw [bits, h]
  rfl

/-- Whatever has been encoded is read from the first three bytes. -/
lemma ofBits_of_bits {a : SectorAccess} {bs : Bytes} (h : a.bits = .ok bs) :
    ofBits (bs.take 3) = .ok a := by
  rcases a.patterns_cases with ⟨f, -, hf⟩ | ⟨-, p, hp, haccess⟩
  · rw [bits_of_error hf] at h
    cases h
  · rw [bits_of_patterns hp] at h
    cases h
    have hread := ofBits_image p []
    rw [List.append_nil, haccess] at hread
    exact hread

end SectorAccess

/-- **Permissions survive being encoded.**  The permissions on a sector can be encoded exactly if
those on its three data blocks and those on its trailer all have an entry in their table; the
complaint is otherwise about the first one that has none, and a trailer with them cannot be written
either.  The encoding has four bytes, of which the last one is zero, and the permissions are read
from the first three; so different permissions differ in these.  A trailer with the permissions, any
two keys and any byte for general use is written with all of them in their places, and read as what
it was. -/
theorem SectorAccess.survives_encoding (a : SectorAccess) (keyA : SectorKey) (general : UInt8)
    (keyB : SectorKey) :
    ((∃ bs, a.bits = .ok bs) ↔ a.Encodable) ∧
      (¬a.Encodable → ∃ f, a.Lacks f ∧ a.bits = .error f ∧
        SectorTrailer.encode ⟨keyA, a, general, keyB⟩ = .error f) ∧
      ∀ bs, a.bits = .ok bs →
        bs.length = 4 ∧ bs[3]? = some 0x00 ∧ ofBits (bs.take 3) = .ok a ∧
        (∀ a' bs', bits a' = .ok bs' → bs'.take 3 = bs.take 3 → a' = a) ∧
        ∃ b, SectorTrailer.encode ⟨keyA, a, general, keyB⟩ = .ok b ∧
          b.bytes = keyA.bytes ++ bs.take 3 ++ [general] ++ keyB.bytes ∧
          SectorTrailer.decode b = .ok ⟨keyA, a, general, keyB⟩ := by
  rcases a.patterns_cases with ⟨f, hlacks, hf⟩ | ⟨hall, p, hp, haccess⟩
  · have hbits := bits_of_error hf
    have hnot : ¬a.Encodable := hlacks.not_encodable
    refine ⟨⟨?_, fun h => absurd h hnot⟩, fun _ => ⟨f, hlacks, hbits, ?_⟩, ?_⟩
    · rintro ⟨bs, hbs⟩
      rw [hbits] at hbs
      cases hbs
    · rw [SectorTrailer.encode, hf]
      rfl
    · intro bs hbs
      rw [hbits] at hbs
      cases hbs
  · have hbits := bits_of_patterns hp
    refine ⟨⟨fun _ => hall, fun _ => ⟨_, hbits⟩⟩, fun h => absurd hall h, ?_⟩
    intro bs hbs
    obtain rfl : p.image ++ [0x00] = bs := Except.ok.inj (hbits.symm.trans hbs)
    refine ⟨rfl, rfl, ofBits_of_bits hbs, ?_, ?_⟩
    · intro a' bs' hbits' hsame
      have hread := ofBits_of_bits hbits'
      rw [hsame, ofBits_of_bits hbs] at hread
      exact (Except.ok.inj hread).symm
    · have hencode : SectorTrailer.encode ⟨keyA, a, general, keyB⟩ =
          .ok (SectorTrailer.assemble keyA p general keyB) := by
        rw [SectorTrailer.encode, hp]
        rfl
      refine ⟨_, hencode, rfl, ?_⟩
      rw [SectorTrailer.decode_assemble, haccess]

/-- The permissions with which tags leave the factory. -/
example : SectorAccess.transport.bits = .ok [0xFF, 0x07, 0x80, 0x00] := rfl

end Classic
end TagReader
