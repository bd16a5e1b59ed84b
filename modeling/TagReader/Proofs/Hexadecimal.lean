/-
# Hexadecimal text, read

Bytes are read from text in which digits stand in pairs and colons and blanks may stand anywhere.
The reader works on the UTF-8 bytes of the text: it drops the separators first and pairs what is
left.  This file says on characters which texts are read, and as what.

* A separator is a whole character, so dropping bytes is dropping characters
  (`Hex.filter_flatMap_utf8EncodeChar`), and the pairing does not depend on where they stand.
* A byte of ASCII is a whole character, too, so no pair that cuts a character has a value
  (`Hex.exists_of_flatMap_eq_cons`).
* `Hex.Reads` is the grammar of what is left: pairs of digits, or of a plus sign and a digit.  It is
  exact (`Hex.parse_eq_ok_iff`).
* `Hex.Spelling` is a way to write one byte, and what is spelled is read (`Hex.reads_spelled`).

The main results are `Hex.parse_reads` and `Hex.parse_spelled`.
-/
import Mathlib.Tactic.Common
import TagReader.Hex.Parser
import TagReader.Proofs.Replies
import TagReader.Uid

namespace TagReader
namespace Hex

/-! ## Characters and their bytes -/

/-- The characters that may stand anywhere: a colon and the blanks. -/
def gaps : List Char := [':', ' ', '\t', '\n', '\x0C', '\r']

/-- The characters of a text that are no gaps. -/
def core (text : String) : List Char := text.toList.filter (· ∉ gaps)

/-- What holds of the first 128 characters holds of every character of ASCII. -/
lemma of_ascii {P : Char → Prop} (h : ∀ n < 128, P (Char.ofNat n)) {c : Char}
    (hc : c.toNat < 128) : P c := by
  have hP := h c.toNat hc
  rwa [Char.ofNat_toNat] at hP

/-- A character of ASCII is one byte, which is its number. -/
lemma utf8EncodeChar_of_ascii {c : Char} (hc : c.toNat < 128) :
    String.utf8EncodeChar c = [UInt8.ofNat c.toNat] :=
  of_ascii (P := fun c => String.utf8EncodeChar c = [UInt8.ofNat c.toNat]) (by decide) hc

/-- The bytes that the reader drops are the gaps. -/
lemma isSeparator_of_ascii {c : Char} (hc : c.toNat < 128) :
    isSeparator (UInt8.ofNat c.toNat) = decide (c ∈ gaps) :=
  of_ascii (P := fun c => isSeparator (UInt8.ofNat c.toNat) = decide (c ∈ gaps)) (by decide) hc

/-- Outside of ASCII all bytes of a character have their top bit. -/
lemma high_of_mem_utf8EncodeChar {c : Char} (hc : 128 ≤ c.toNat) {b : UInt8}
    (hb : b ∈ String.utf8EncodeChar c) : 128 ≤ b.toNat := by
  have hval : c.val.toNat = c.toNat := rfl
  simp only [String.utf8EncodeChar, hval] at hb
  split at hb
  · omega
  · split at hb
    · simp only [List.mem_cons, List.not_mem_nil, or_false] at hb
      rcases hb with rfl | rfl <;> rw [UInt8.toNat_ofNat'] <;> omega
    · split at hb
      · simp only [List.mem_cons, List.not_mem_nil, or_false] at hb
        rcases hb with rfl | rfl | rfl <;> rw [UInt8.toNat_ofNat'] <;> omega
      · simp only [List.mem_cons, List.not_mem_nil, or_false] at hb
        rcases hb with rfl | rfl | rfl | rfl <;> rw [UInt8.toNat_ofNat'] <;> omega

lemma ascii_of_mem_gaps {c : Char} (h : c ∈ gaps) : c.toNat < 128 := by
  have hall : gaps.all (fun g => g.toNat < 128) = true := by decide
  exact of_decide_eq_true (List.all_eq_true.1 hall c h)

/-- A separator is a whole character: its byte is part of no other one. -/
lemma filter_utf8EncodeChar (c : Char) :
    (String.utf8EncodeChar c).filter (fun b => !isSeparator b) =
      if c ∈ gaps then [] else String.utf8EncodeChar c := by
  rcases Nat.lt_or_ge c.toNat 128 with hc | hc
  · rw [utf8EncodeChar_of_ascii hc, List.filter_singleton, isSeparator_of_ascii hc]
    by_cases hgap : c ∈ gaps <;> simp [hgap]
  · rw [if_neg fun hgap => absurd (ascii_of_mem_gaps hgap) (Nat.not_lt.2 hc), List.filter_eq_self]
    intro b hb
    have hhigh := high_of_mem_utf8EncodeChar hc hb
    simp only [isSeparator, Bool.not_eq_true', Bool.or_eq_false_iff, beq_eq_false_iff_ne]
    refine ⟨⟨⟨⟨⟨?_, ?_⟩, ?_⟩, ?_⟩, ?_⟩, ?_⟩ <;> rintro rfl <;> revert hhigh <;> decide

/-- Dropping the separators among the bytes is dropping the gaps among the characters. -/
lemma filter_flatMap_utf8EncodeChar (cs : List Char) :
    (cs.flatMap String.utf8EncodeChar).filter (fun b => !isSeparator b) =
      (cs.filter (· ∉ gaps)).flatMap String.utf8EncodeChar := by
  induction cs with
  | nil => rfl
  | cons c cs ih =>
    rw [List.flatMap_cons, List.filter_append, filter_utf8EncodeChar, ih, List.filter_cons]
    by_cases hgap : c ∈ gaps <;> simp [hgap]

lemma toNat_byte {c : Char} (hc : c.toNat < 128) : (UInt8.ofNat c.toNat).toNat = c.toNat :=
  UInt8.toNat_ofNat_of_lt (Nat.lt_trans hc (by decide))

/-- The byte of a character of ASCII gives the character back. -/
lemma ofNat_byte {c : Char} (hc : c.toNat < 128) : Char.ofNat (UInt8.ofNat c.toNat).toNat = c := by
  rw [toNat_byte hc, Char.ofNat_toNat]

lemma flatMap_utf8EncodeChar_of_ascii {c : Char} (hc : c.toNat < 128) (cs : List Char) :
    (c :: cs).flatMap String.utf8EncodeChar =
      UInt8.ofNat c.toNat :: cs.flatMap String.utf8EncodeChar := by
  rw [List.flatMap_cons, utf8EncodeChar_of_ascii hc]
  rfl

/-- A byte of ASCII in front of some text is its first character. -/
lemma exists_of_flatMap_eq_cons {cs : List Char} {a : UInt8} {rest : Bytes}
    (h : cs.flatMap String.utf8EncodeChar = a :: rest) (ha : a.toNat < 128) :
    ∃ cs', cs = Char.ofNat a.toNat :: cs' ∧ cs'.flatMap String.utf8EncodeChar = rest := by
  cases cs with
  | nil => cases h
  | cons c cs =>
    rcases Nat.lt_or_ge c.toNat 128 with hc | hc
    · rw [flatMap_utf8EncodeChar_of_ascii hc] at h
      obtain ⟨rfl, hrest⟩ := List.cons.inj h
      exact ⟨cs, by rw [ofNat_byte hc], hrest⟩
    · have hne : String.utf8EncodeChar c ≠ [] := String.utf8EncodeChar_ne_nil
      obtain ⟨b, bs, hbs⟩ := List.exists_cons_of_ne_nil hne
      rw [List.flatMap_cons, hbs] at h
      obtain rfl := (List.cons.inj h).1
      have hhigh := high_of_mem_utf8EncodeChar hc (hbs ▸ List.mem_cons_self)
      omega

/-! ## Pairs -/

/-- Outside of ASCII a character has no case. -/
lemma toLower_of_high {c : Char} (hc : 128 ≤ c.toNat) : c.toLower = c := by
  rw [Char.toLower, dif_neg]
  rintro ⟨-, h⟩
  have hle : c.toNat ≤ 90 := UInt32.le_iff_toNat_le.1 h
  omega

lemma digit_lt : ∀ n < 16, (digit .lower n).toNat < 128 := by decide

/-- A character that is a digit in lower case is one of ASCII. -/
lemma ascii_of_toLower {c : Char} {n : Nat} (hn : n < 16) (h : c.toLower = digit .lower n) :
    c.toNat < 128 := by
  by_contra hc
  rw [toLower_of_high (Nat.not_lt.1 hc)] at h
  exact hc (h ▸ digit_lt n hn)

/-- The reader and the rendering agree on what a digit is worth. -/
lemma digitValue?_ofNat : ∀ n < 128, ∀ v < 16,
    digitValue? (UInt8.ofNat n) = some (UInt8.ofNat v) ↔
      (Char.ofNat n).toLower = digit .lower v := by
  decide +kernel

lemma lt_of_digitValue? {b v : UInt8} (h : digitValue? b = some v) :
    b.toNat < 128 ∧ v.toNat < 16 := by
  -- In each of the three ranges of digits the first one of the range is subtracted.
  have hrange {low high first : UInt8} (hb : low ≤ b ∧ b ≤ high) (hfirst : first ≤ low)
      (hhigh : high.toNat < 128) (hsmall : high.toNat < first.toNat + 16) :
      b.toNat < 128 ∧ (b - first).toNat < 16 := by
    have hle := UInt8.le_iff_toNat_le.1 hb.2
    rw [UInt8.toNat_sub_of_le b first (UInt8.le_trans hfirst hb.1)]
    omega
  simp only [digitValue?] at h
  split at h
  · rename_i hb
    obtain rfl := Option.some.inj h
    exact hrange hb (by decide) (by decide) (by decide)
  · split at h
    · rename_i hb
      obtain rfl := Option.some.inj h
      exact hrange hb (by decide) (by decide) (by decide)
    · split at h
      · rename_i hb
        obtain rfl := Option.some.inj h
        exact hrange hb (by decide) (by decide) (by decide)
      · cases h

lemma digitValue?_eq_some_iff {b v : UInt8} : digitValue? b = some v ↔
    b.toNat < 128 ∧ v.toNat < 16 ∧ (Char.ofNat b.toNat).toLower = digit .lower v.toNat := by
  constructor
  · intro h
    obtain ⟨hb, hv⟩ := lt_of_digitValue? h
    refine ⟨hb, hv, (digitValue?_ofNat _ hb _ hv).1 ?_⟩
    rwa [UInt8.ofNat_toNat, UInt8.ofNat_toNat]
  · rintro ⟨hb, hv, hlower⟩
    have h := (digitValue?_ofNat _ hb _ hv).2 hlower
    rwa [UInt8.ofNat_toNat, UInt8.ofNat_toNat] at h

/-- A pair of characters and the byte that it is read as: two digits, or a plus sign and one. -/
inductive Pair : Char → Char → UInt8 → Prop where
  | digits {c d : Char} {b : UInt8} (high : c.toLower = digit .lower (b.toNat / 16))
      (low : d.toLower = digit .lower (b.toNat % 16)) : Pair c d b
  | signed {d : Char} {b : UInt8} (small : b.toNat < 16)
      (low : d.toLower = digit .lower b.toNat) : Pair '+' d b

/-- Two digits are a pair for the number that they make up. -/
lemma Pair.of_value {c d : Char} {b : UInt8} {hi lo : Nat} (hlo : lo < 16)
    (hvalue : b.toNat = 16 * hi + lo) (high : c.toLower = digit .lower hi)
    (low : d.toLower = digit .lower lo) : Pair c d b := by
  have hdiv : b.toNat / 16 = hi := by omega
  have hmod : b.toNat % 16 = lo := by omega
  exact .digits (hdiv ▸ high) (hmod ▸ low)

/-- A pair that has a value is two digits, or a plus sign and one. -/
lemma pairValue?_cases {a b v : UInt8} : pairValue? a b = some v ↔
    (∃ hi lo, digitValue? a = some hi ∧ digitValue? b = some lo ∧ 16 * hi + lo = v) ∨
      a = 0x2B ∧ digitValue? b = some v := by
  simp only [pairValue?]
  cases ha : digitValue? a with
  | none =>
    cases hb : digitValue? b with
    | none => simp
    | some lo => simp
  | some hi =>
    have hne : a ≠ 0x2B := by
      rintro rfl
      cases ha
    cases hb : digitValue? b with
    | none => simp
    | some lo => simp [hne]

lemma eq_plus_of_ofNat : ∀ n < 128, Char.ofNat n = '+' → n = 0x2B := by decide

/-- A pair of bytes has a value if and only if the bytes are two characters that have it. -/
lemma pairValue?_eq_some_iff {a b v : UInt8} : pairValue? a b = some v ↔
    a.toNat < 128 ∧ b.toNat < 128 ∧ Pair (Char.ofNat a.toNat) (Char.ofNat b.toNat) v := by
  rw [pairValue?_cases]
  constructor
  · rintro (⟨hi, lo, hhi, hlo, rfl⟩ | ⟨rfl, hlo⟩)
    · obtain ⟨ha, hhi, hhigh⟩ := digitValue?_eq_some_iff.1 hhi
      obtain ⟨hb, hlo, hlow⟩ := digitValue?_eq_some_iff.1 hlo
      have hvalue : (16 * hi + lo).toNat = 16 * hi.toNat + lo.toNat := by
        rw [UInt8.toNat_add, UInt8.toNat_mul]
        show (16 * hi.toNat % 256 + lo.toNat) % 256 = _
        omega
      exact ⟨ha, hb, .of_value hlo hvalue hhigh hlow⟩
    · obtain ⟨hb, hlo, hlow⟩ := digitValue?_eq_some_iff.1 hlo
      exact ⟨by decide, hb, .signed hlo hlow⟩
  · rintro ⟨ha, hb, hpair⟩
    generalize hc : Char.ofNat a.toNat = c at hpair
    cases hpair with
    | digits high low =>
      have hv := v.toNat_lt
      have hhi : (UInt8.ofNat (v.toNat / 16)).toNat = v.toNat / 16 :=
        UInt8.toNat_ofNat_of_lt (by show _ < 256; omega)
      have hlo : (UInt8.ofNat (v.toNat % 16)).toNat = v.toNat % 16 :=
        UInt8.toNat_ofNat_of_lt (by show _ < 256; omega)
      refine .inl ⟨UInt8.ofNat (v.toNat / 16), UInt8.ofNat (v.toNat % 16),
        digitValue?_eq_some_iff.2 ⟨ha, by omega, by rw [hhi, hc, high]⟩,
        digitValue?_eq_some_iff.2 ⟨hb, by omega, by rw [hlo, low]⟩, ?_⟩
      apply UInt8.toNat_inj.1
      rw [UInt8.toNat_add, UInt8.toNat_mul, hhi, hlo]
      show (16 * (v.toNat / 16) % 256 + v.toNat % 16) % 256 = _
      omega
    | signed small low =>
      refine .inr ⟨UInt8.toNat_inj.1 (eq_plus_of_ofNat _ ha hc), ?_⟩
      exact digitValue?_eq_some_iff.2 ⟨hb, small, low⟩

lemma parsePair_eq_ok_iff {a b v : UInt8} : parsePair a b = .ok v ↔
    a.toNat < 128 ∧ b.toNat < 128 ∧ Pair (Char.ofNat a.toNat) (Char.ofNat b.toNat) v := by
  rw [← pairValue?_eq_some_iff]
  simp only [parsePair]
  constructor
  · intro h
    split at h
    · cases h
    · split at h
      · rename_i hvalue
        rw [hvalue, Except.ok.inj h]
      · cases h
  · intro h
    obtain ⟨ha, hb, -⟩ := pairValue?_eq_some_iff.1 h
    have htext : pairText? a b = some [Char.ofNat a.toNat, Char.ofNat b.toNat] :=
      if_pos ⟨UInt8.lt_iff_toNat_lt.2 ha, UInt8.lt_iff_toNat_lt.2 hb⟩
    rw [htext, h]

/-! ## Texts -/

/-- Characters that are pairs, one for each byte. -/
inductive Reads : List Char → Bytes → Prop where
  | nil : Reads [] []
  | cons {c d : Char} {b : UInt8} {cs : List Char} {bs : Bytes} (pair : Pair c d b)
      (later : Reads cs bs) : Reads (c :: d :: cs) (b :: bs)

lemma Pair.ascii {c d : Char} {b : UInt8} (h : Pair c d b) : c.toNat < 128 ∧ d.toNat < 128 := by
  cases h with
  | digits high low =>
    have hb := b.toNat_lt
    exact ⟨ascii_of_toLower (by omega) high, ascii_of_toLower (by omega) low⟩
  | signed small low => exact ⟨by decide, ascii_of_toLower small low⟩

/-- If bytes are read by pairs, then each pair is two whole characters. -/
lemma reads_of_parsePairs {ds bs : Bytes} (heven : ds.length % 2 = 0)
    (h : parsePairs ds = .ok bs) {cs : List Char} (hcs : cs.flatMap String.utf8EncodeChar = ds) :
    Reads cs bs := by
  induction ds using parsePairs.induct generalizing bs cs with
  | case1 a b rest ih =>
    rw [parsePairs] at h
    obtain ⟨v, hv, h⟩ := bind_eq_ok_iff.1 h
    obtain ⟨vs, hvs, h⟩ := bind_eq_ok_iff.1 h
    obtain rfl := Except.ok.inj h
    obtain ⟨ha, hb, hpair⟩ := parsePair_eq_ok_iff.1 hv
    obtain ⟨cs', rfl, hcs'⟩ := exists_of_flatMap_eq_cons hcs ha
    obtain ⟨cs'', rfl, hcs''⟩ := exists_of_flatMap_eq_cons hcs' hb
    refine .cons hpair (ih ?_ hvs hcs'')
    simp only [List.length_cons] at heven
    omega
  | case2 ds hds =>
    rw [parsePairs] at h
    · obtain rfl := Except.ok.inj h
      match ds, heven with
      | [], _ =>
        cases cs with
        | nil => exact .nil
        | cons c cs =>
          rw [List.flatMap_cons, List.append_eq_nil_iff] at hcs
          exact absurd hcs.1 String.utf8EncodeChar_ne_nil
      | [_], heven => cases heven
      | a :: b :: rest, _ => exact (hds a b rest rfl).elim
    · exact hds

/-- Pairs of characters are read, and they have an even number of bytes. -/
lemma Reads.parsePairs {cs : List Char} {bs : Bytes} (h : Reads cs bs) :
    (cs.flatMap String.utf8EncodeChar).length % 2 = 0 ∧
      Hex.parsePairs (cs.flatMap String.utf8EncodeChar) = .ok bs := by
  induction h with
  | nil => exact ⟨rfl, rfl⟩
  | @cons c d b cs bs pair later ih =>
    obtain ⟨hc, hd⟩ := pair.ascii
    rw [flatMap_utf8EncodeChar_of_ascii hc, flatMap_utf8EncodeChar_of_ascii hd]
    refine ⟨?_, bind_eq_ok_iff.2 ⟨b, parsePair_eq_ok_iff.2 ?_, bind_eq_ok_iff.2 ⟨bs, ih.2, rfl⟩⟩⟩
    · have heven := ih.1
      simp only [List.length_cons]
      omega
    · rw [ofNat_byte hc, ofNat_byte hd, toNat_byte hc, toNat_byte hd]
      exact ⟨hc, hd, pair⟩

/-- A text is read as some bytes if and only if its core is pairs for them. -/
lemma parse_eq_ok_iff {text : String} {bs : Bytes} :
    parse text = .ok bs ↔ Reads (core text) bs := by
  simp only [parse, parseUtf8, filter_flatMap_utf8EncodeChar]
  constructor
  · intro h
    split at h
    · cases h
    · rename_i heven
      exact reads_of_parsePairs (not_not.1 heven) h rfl
  · intro h
    obtain ⟨heven, hpairs⟩ := h.parsePairs
    exact (if_neg (not_not.2 heven)).trans hpairs

/-! ## Refusals -/

/-- Whatever is wrong with a pair, it is a fault of validation. -/
lemma exists_of_parsePair {a b : UInt8} {f : Fault} (h : parsePair a b = .error f) :
    ∃ why, f = .validation why := by
  simp only [parsePair] at h
  split at h
  · exact ⟨_, (Except.error.inj h).symm⟩
  · split at h
    · cases h
    · exact ⟨_, (Except.error.inj h).symm⟩

lemma exists_of_parsePairs {ds : Bytes} {f : Fault} (h : parsePairs ds = .error f) :
    ∃ why, f = .validation why := by
  induction ds using parsePairs.induct with
  | case1 a b rest ih =>
    rw [parsePairs] at h
    obtain hv | ⟨v, -, h⟩ := bind_eq_error_iff.1 h
    · exact exists_of_parsePair hv
    · obtain hvs | ⟨vs, -, ⟨⟩⟩ := bind_eq_error_iff.1 h
      exact ih hvs
  | case2 ds hds =>
    rw [parsePairs] at h
    · cases h
    · exact hds

/-- A text that is not read is refused as invalid. -/
lemma exists_of_parse {text : String} {f : Fault} (h : parse text = .error f) :
    ∃ why, f = .validation why := by
  simp only [parse, parseUtf8] at h
  split at h
  · exact ⟨_, (Except.error.inj h).symm⟩
  · exact exists_of_parsePairs h

/-! ## Digits -/

/-- A digit of either case. -/
def IsDigit (c : Char) : Prop :=
  '0' ≤ c ∧ c ≤ '9' ∨ 'a' ≤ c ∧ c ≤ 'f' ∨ 'A' ≤ c ∧ c ≤ 'F'

instance (c : Char) : Decidable (IsDigit c) := inferInstanceAs (Decidable (_ ∨ _ ∨ _))

lemma isDigit_of_ascii {c : Char} (hc : c.toNat < 128) :
    IsDigit c ↔ ∃ v < 16, c.toLower = digit .lower v :=
  of_ascii (P := fun c => IsDigit c ↔ ∃ v < 16, c.toLower = digit .lower v) (by decide +kernel) hc

/-- The digits are what is a digit of the rendering in lower case. -/
lemma isDigit_iff {c : Char} : IsDigit c ↔ ∃ v < 16, c.toLower = digit .lower v := by
  constructor
  · intro h
    have hle {x : Char} (hx : x.toNat < 128) (h : c ≤ x) : c.toNat < 128 :=
      Nat.lt_of_le_of_lt (UInt32.le_iff_toNat_le.1 h) hx
    have hc : c.toNat < 128 := by
      rcases h with h | h | h <;> exact hle (by decide) h.2
    exact (isDigit_of_ascii hc).1 h
  · rintro ⟨v, hv, h⟩
    exact (isDigit_of_ascii (ascii_of_toLower hv h)).2 ⟨v, hv, h⟩

lemma not_isDigit_plus : ¬IsDigit '+' := by decide

/-- Without a separator the digits of all bytes follow each other. -/
lemma joined_nil (c : Case) (bs : Bytes) : joined c [] bs = bs.flatMap (byte c) := by
  induction bs with
  | nil => rfl
  | cons b bs ih =>
    cases bs with
    | nil => rfl
    | cons b' bs => rw [joined, ih, List.append_nil, List.flatMap_cons] <;> simp

section Digits

variable {cs : List Char} {bs : Bytes}

/-- Where there is no plus sign, what is read is, in lower case, the digits of the bytes. -/
lemma reads_unsigned_iff :
    Reads cs bs ∧ '+' ∉ cs ↔ cs.map Char.toLower = bs.flatMap (byte .lower) := by
  constructor
  · rintro ⟨h, hplus⟩
    induction h with
    | nil => rfl
    | cons pair later ih =>
      rw [List.mem_cons, List.mem_cons, not_or, not_or] at hplus
      cases pair with
      | digits high low =>
        rw [List.map_cons, List.map_cons, ih hplus.2.2, high, low]
        rfl
      | signed => exact absurd rfl hplus.1
  · intro h
    induction bs generalizing cs with
    | nil =>
      obtain rfl := List.map_eq_nil_iff.1 h
      exact ⟨.nil, List.not_mem_nil⟩
    | cons b bs ih =>
      obtain ⟨c, cs', rfl, high, h'⟩ := List.map_eq_cons_iff.1 h
      obtain ⟨d, cs'', rfl, low, h''⟩ := List.map_eq_cons_iff.1 h'
      obtain ⟨hreads, hplus⟩ := ih h''
      have hb := b.toNat_lt
      have hsign {x : Char} {n : Nat} (hn : n < 16) (hx : x.toLower = digit .lower n) : '+' ≠ x :=
        fun h => not_isDigit_plus (isDigit_iff.2 ⟨n, hn, h ▸ hx⟩)
      refine ⟨.cons (.digits high low) hreads, ?_⟩
      rw [List.mem_cons, List.mem_cons, not_or, not_or]
      exact ⟨hsign (by omega) high, hsign (by omega) low, hplus⟩

/-- Digits in even number are read. -/
lemma exists_reads : ∀ {cs : List Char}, cs.length % 2 = 0 → (∀ c ∈ cs, IsDigit c) →
    ∃ bs, Reads cs bs
  | [], _, _ => ⟨[], .nil⟩
  | [_], heven, _ => by cases heven
  | c :: d :: cs, heven, hdigits => by
    rw [List.forall_mem_cons, List.forall_mem_cons] at hdigits
    simp only [List.length_cons] at heven
    obtain ⟨bs, hbs⟩ := exists_reads (by omega) hdigits.2.2
    obtain ⟨hi, hhi, high⟩ := isDigit_iff.1 hdigits.1
    obtain ⟨lo, hlo, low⟩ := isDigit_iff.1 hdigits.2.1
    have hvalue : (UInt8.ofNat (16 * hi + lo)).toNat = 16 * hi + lo :=
      UInt8.toNat_ofNat_of_lt (by show _ < 256; omega)
    exact ⟨UInt8.ofNat (16 * hi + lo) :: bs, .cons (.of_value hlo hvalue high low) hbs⟩

/-- Where there is no plus sign, digits in even number are read and nothing else is. -/
lemma exists_reads_unsigned_iff :
    (∃ bs, Reads cs bs) ∧ '+' ∉ cs ↔ cs.length % 2 = 0 ∧ ∀ c ∈ cs, IsDigit c := by
  constructor
  · rintro ⟨⟨bs, hbs⟩, hplus⟩
    induction hbs with
    | nil => exact ⟨rfl, by simp⟩
    | @cons c d b cs bs pair later ih =>
      rw [List.mem_cons, List.mem_cons, not_or, not_or] at hplus
      obtain ⟨heven, hdigits⟩ := ih hplus.2.2
      have hb := b.toNat_lt
      cases pair with
      | digits high low =>
        have hc := isDigit_iff.2 ⟨_, by omega, high⟩
        have hd := isDigit_iff.2 ⟨_, by omega, low⟩
        refine ⟨?_, List.forall_mem_cons.2 ⟨hc, List.forall_mem_cons.2 ⟨hd, hdigits⟩⟩⟩
        simp only [List.length_cons]
        omega
      | signed => exact absurd rfl hplus.1
  · rintro ⟨heven, hdigits⟩
    exact ⟨exists_reads heven hdigits, fun hplus => not_isDigit_plus (hdigits _ hplus)⟩

end Digits

/-! ## Spellings -/

/-- A character that may stand anywhere. -/
abbrev Gap : Type := { c : Char // c ∈ gaps }

/-- One way to write a byte: the case of each digit, and the separators in front of them. -/
structure Spelling where
  /-- The byte. -/
  byte : UInt8
  /-- The case of the first digit. -/
  high : Case
  /-- The case of the second digit. -/
  low : Case
  /-- What stands in front of the first digit. -/
  before : List Gap := []
  /-- What stands between the digits. -/
  within : List Gap := []

namespace Spelling

/-- The digits with their separators. -/
def text (s : Spelling) : List Char :=
  s.before.map Subtype.val ++ digit s.high (s.byte.toNat / 16) ::
    (s.within.map Subtype.val ++ [digit s.low (s.byte.toNat % 16)])

/-- Both digits in one case and next to each other. -/
def plain (c : Case) (before : List Gap) (b : UInt8) : Spelling :=
  { byte := b, high := c, low := c, before }

end Spelling

/-- The text in which bytes are spelled one after the other, with separators at its end. -/
def spelled (ss : List Spelling) (after : List Gap) : String :=
  String.ofList (ss.flatMap Spelling.text ++ after.map Subtype.val)

lemma filter_gaps (gs : List Gap) : (gs.map Subtype.val).filter (· ∉ gaps) = [] := by
  rw [List.filter_eq_nil_iff]
  intro c hc
  obtain ⟨g, -, rfl⟩ := List.mem_map.1 hc
  simp [g.2]

lemma toLower_digit : ∀ c n, n < 16 → (digit c n).toLower = digit .lower n := by
  rintro (_ | _) <;> decide

lemma digit_not_mem_gaps : ∀ c n, n < 16 → digit c n ∉ gaps := by
  rintro (_ | _) <;> decide

/-- Of a spelling the two digits are left. -/
lemma Spelling.filter_text (s : Spelling) : s.text.filter (· ∉ gaps) =
    [digit s.high (s.byte.toNat / 16), digit s.low (s.byte.toNat % 16)] := by
  have hb := s.byte.toNat_lt
  have hhigh := digit_not_mem_gaps s.high (s.byte.toNat / 16) (by omega)
  have hlow := digit_not_mem_gaps s.low (s.byte.toNat % 16) (by omega)
  rw [text, List.filter_append, filter_gaps, List.nil_append,
    List.filter_cons_of_pos (by simpa using hhigh), List.filter_append, filter_gaps,
    List.nil_append, List.filter_cons_of_pos (by simpa using hlow), List.filter_nil]

/-- What is spelled is read, wherever the separators stand. -/
lemma reads_spelled (ss : List Spelling) (after : List Gap) :
    Reads (core (spelled ss after)) (ss.map Spelling.byte) := by
  rw [core, spelled, String.toList_ofList, List.filter_append, filter_gaps, List.append_nil]
  induction ss with
  | nil => exact .nil
  | cons s ss ih =>
    have hb := s.byte.toNat_lt
    rw [List.flatMap_cons, List.filter_append, s.filter_text]
    exact .cons (.digits (toLower_digit _ _ (by omega)) (toLower_digit _ _ (by omega))) ih

/-- What is rendered is spelled: from the second byte on, the separator stands in front. -/
lemma joined_cons (c : Case) (sep : List Gap) (b : UInt8) (bs : Bytes) :
    joined c (sep.map Subtype.val) (b :: bs) =
      (Spelling.plain c [] b :: bs.map (Spelling.plain c sep)).flatMap Spelling.text := by
  induction bs generalizing b with
  | nil => rfl
  | cons b' bs ih =>
    have hstep : joined c (sep.map Subtype.val) (b :: b' :: bs) =
        byte c b ++ sep.map Subtype.val ++ joined c (sep.map Subtype.val) (b' :: bs) := by
      rw [joined]
      exact List.cons_ne_nil b' bs
    rw [hstep, ih, List.map_cons, List.flatMap_cons, List.flatMap_cons, List.flatMap_cons,
      List.append_assoc, ← List.append_assoc (sep.map Subtype.val)]
    rfl

/-- What is rendered with separators in between is read. -/
lemma parse_joined (c : Case) (sep : List Gap) (bs : Bytes) :
    parse (String.ofList (joined c (sep.map Subtype.val) bs)) = .ok bs := by
  rw [parse_eq_ok_iff]
  cases bs with
  | nil => exact .nil
  | cons b bs =>
    have h := reads_spelled (Spelling.plain c [] b :: bs.map (Spelling.plain c sep)) []
    rw [spelled, List.map_nil, List.append_nil, ← joined_cons, List.map_cons, List.map_map] at h
    simpa [Function.comp_def, Spelling.plain] using h

/-! ## What is read -/

/-- **The reader accepts pairs of digits, and a plus sign in front of one digit.**  For every text,
of whatever characters: it is read as some bytes if and only if pairs for these bytes are left when
colons and blanks have been removed.  Where no plus sign is left, this says that an even number of
digits of either case is left, and that these digits in lower case are the rendering of the bytes.
Every other text is refused as invalid. -/
theorem parse_reads (text : String) :
    (∀ bs, parse text = .ok bs ↔ Reads (core text) bs) ∧
      ((∃ bs, parse text = .ok bs) ∧ '+' ∉ core text ↔
        (core text).length % 2 = 0 ∧ ∀ c ∈ core text, IsDigit c) ∧
      (∀ bs, parse text = .ok bs ∧ '+' ∉ core text ↔
        (core text).map Char.toLower = (compact bs).toList) ∧
      ∀ f, parse text = .error f → ∃ why, f = .validation why := by
  refine ⟨fun bs => parse_eq_ok_iff, ?_, fun bs => ?_, fun f => exists_of_parse⟩
  · simp only [← exists_reads_unsigned_iff, parse_eq_ok_iff]
  · rw [parse_eq_ok_iff, reads_unsigned_iff, compact, String.toList_ofList, joined_nil]

/-- A plus sign and a digit are read, though the sign is no digit. -/
theorem parse_signed : parse "+f" = .ok [0x0F] ∧
    ¬((core "+f").length % 2 = 0 ∧ ∀ c ∈ core "+f", IsDigit c) := by
  refine ⟨by decide, ?_⟩
  rintro ⟨-, hdigits⟩
  exact not_isDigit_plus (hdigits '+' (by decide))

/-- **What is rendered is read back.**  For all bytes, in whatever case each digit is written and
wherever colons and blanks are put in, the reader yields these bytes.  All four renderings are among
these texts: digits only, with spaces, with colons, and an identifier as it is shown. -/
theorem parse_spelled :
    (∀ (ss : List Spelling) (after : List Gap),
      parse (spelled ss after) = .ok (ss.map Spelling.byte)) ∧
    ∀ bs : Bytes, parse (compact bs) = .ok bs ∧ parse (spaced bs) = .ok bs ∧
      parse (separated ':' bs) = .ok bs ∧ parse (Uid.display ⟨bs⟩) = .ok bs := by
  have hcolon (bs : Bytes) : parse (separated ':' bs) = .ok bs :=
    parse_joined .upper [⟨':', by decide⟩] bs
  constructor
  · intro ss after
    exact parse_eq_ok_iff.2 (reads_spelled ss after)
  · intro bs
    have hspace := parse_joined .lower [⟨' ', by decide⟩] bs
    exact ⟨parse_joined .lower [] bs, hspace, hcolon bs, hcolon bs⟩

/-- Case and separators may be mixed. -/
example : parse "De:aD b e\tEF" = .ok [0xDE, 0xAD, 0xBE, 0xEF] := by decide

end Hex
end TagReader
