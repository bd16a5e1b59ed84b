/-
# DES and triple DES

The data encryption standard: a permutation of the 64 bits, sixteen Feistel rounds under
keys drawn from a 56 bit key, and the inverse permutation.  Triple DES with two keys
encrypts under the first, decrypts under the second and encrypts under the first again.

All tables count bits from one, the most significant bit first, as the standard does.  That
decryption undoes encryption needs nothing of the tables except that the two outer
permutations undo each other.
-/
import TagReader.Cipher.Block
import TagReader.Cipher.Feistel

namespace TagReader
namespace Des

/-- The bits of `x` at the places that a table lists. -/
def pick {n : Nat} : (m : Nat) → List Nat → BitVec n → BitVec m
  | 0, _, _ => BitVec.nil
  | m + 1, table, x => BitVec.cons (x.getMsbD (table.headD 1 - 1)) (pick m table.tail x)

theorem getMsbD_pick {n : Nat} (m : Nat) (table : List Nat) (x : BitVec n) (i : Nat) (h : i < m) :
    (pick m table x).getMsbD i = x.getMsbD (table.getD i 1 - 1) := by
  induction m generalizing table i with
  | zero => omega
  | succ m ih =>
    cases i with
    | zero => cases table <;> simp [pick]
    | succ i =>
      have hi : i < m := by omega
      have ht : table.getD (i + 1) 1 = table.tail.getD i 1 := by cases table <;> simp
      rw [pick, ht, ← ih table.tail i hi, BitVec.getMsbD_cons_succ]

/-! ## The tables -/

/-- The first permutation. -/
def initialTable : List Nat :=
  [58, 50, 42, 34, 26, 18, 10, 2, 60, 52, 44, 36, 28, 20, 12, 4,
   62, 54, 46, 38, 30, 22, 14, 6, 64, 56, 48, 40, 32, 24, 16, 8,
   57, 49, 41, 33, 25, 17, 9, 1, 59, 51, 43, 35, 27, 19, 11, 3,
   61, 53, 45, 37, 29, 21, 13, 5, 63, 55, 47, 39, 31, 23, 15, 7]

/-- The last permutation, which undoes the first one. -/
def finalTable : List Nat :=
  [40, 8, 48, 16, 56, 24, 64, 32, 39, 7, 47, 15, 55, 23, 63, 31,
   38, 6, 46, 14, 54, 22, 62, 30, 37, 5, 45, 13, 53, 21, 61, 29,
   36, 4, 44, 12, 52, 20, 60, 28, 35, 3, 43, 11, 51, 19, 59, 27,
   34, 2, 42, 10, 50, 18, 58, 26, 33, 1, 41, 9, 49, 17, 57, 25]

/-- A half widened to 48 bits. -/
def expansionTable : List Nat :=
  [32, 1, 2, 3, 4, 5, 4, 5, 6, 7, 8, 9, 8, 9, 10, 11, 12, 13,
   12, 13, 14, 15, 16, 17, 16, 17, 18, 19, 20, 21, 20, 21, 22, 23, 24, 25,
   24, 25, 26, 27, 28, 29, 28, 29, 30, 31, 32, 1]

/-- The permutation at the end of the round function. -/
def roundTable : List Nat :=
  [16, 7, 20, 21, 29, 12, 28, 17, 1, 15, 23, 26, 5, 18, 31, 10,
   2, 8, 24, 14, 32, 27, 3, 9, 19, 13, 30, 6, 22, 11, 4, 25]

/-- The 56 bits of a key that matter. -/
def keyTable : List Nat :=
  [57, 49, 41, 33, 25, 17, 9, 1, 58, 50, 42, 34, 26, 18,
   10, 2, 59, 51, 43, 35, 27, 19, 11, 3, 60, 52, 44, 36,
   63, 55, 47, 39, 31, 23, 15, 7, 62, 54, 46, 38, 30, 22,
   14, 6, 61, 53, 45, 37, 29, 21, 13, 5, 28, 20, 12, 4]

/-- The 48 bits of a round key. -/
def roundKeyTable : List Nat :=
  [14, 17, 11, 24, 1, 5, 3, 28, 15, 6, 21, 10, 23, 19, 12, 4,
   26, 8, 16, 7, 27, 20, 13, 2, 41, 52, 31, 37, 47, 55, 30, 40,
   51, 45, 33, 48, 44, 49, 39, 56, 34, 53, 46, 42, 50, 36, 29, 32]

/-- How far the key halves turn before each round. -/
def turns : List Nat := [1, 1, 2, 2, 2, 2, 2, 2, 1, 2, 2, 2, 2, 2, 2, 1]

/-- The eight substitutions of six bits by four, row by row. -/
def substitutions : List (List Nat) :=
  [[14, 4, 13, 1, 2, 15, 11, 8, 3, 10, 6, 12, 5, 9, 0, 7,
    0, 15, 7, 4, 14, 2, 13, 1, 10, 6, 12, 11, 9, 5, 3, 8,
    4, 1, 14, 8, 13, 6, 2, 11, 15, 12, 9, 7, 3, 10, 5, 0,
    15, 12, 8, 2, 4, 9, 1, 7, 5, 11, 3, 14, 10, 0, 6, 13],
   [15, 1, 8, 14, 6, 11, 3, 4, 9, 7, 2, 13, 12, 0, 5, 10,
    3, 13, 4, 7, 15, 2, 8, 14, 12, 0, 1, 10, 6, 9, 11, 5,
    0, 14, 7, 11, 10, 4, 13, 1, 5, 8, 12, 6, 9, 3, 2, 15,
    13, 8, 10, 1, 3, 15, 4, 2, 11, 6, 7, 12, 0, 5, 14, 9],
   [10, 0, 9, 14, 6, 3, 15, 5, 1, 13, 12, 7, 11, 4, 2, 8,
    13, 7, 0, 9, 3, 4, 6, 10, 2, 8, 5, 14, 12, 11, 15, 1,
    13, 6, 4, 9, 8, 15, 3, 0, 11, 1, 2, 12, 5, 10, 14, 7,
    1, 10, 13, 0, 6, 9, 8, 7, 4, 15, 14, 3, 11, 5, 2, 12],
   [7, 13, 14, 3, 0, 6, 9, 10, 1, 2, 8, 5, 11, 12, 4, 15,
    13, 8, 11, 5, 6, 15, 0, 3, 4, 7, 2, 12, 1, 10, 14, 9,
    10, 6, 9, 0, 12, 11, 7, 13, 15, 1, 3, 14, 5, 2, 8, 4,
    3, 15, 0, 6, 10, 1, 13, 8, 9, 4, 5, 11, 12, 7, 2, 14],
   [2, 12, 4, 1, 7, 10, 11, 6, 8, 5, 3, 15, 13, 0, 14, 9,
    14, 11, 2, 12, 4, 7, 13, 1, 5, 0, 15, 10, 3, 9, 8, 6,
    4, 2, 1, 11, 10, 13, 7, 8, 15, 9, 12, 5, 6, 3, 0, 14,
    11, 8, 12, 7, 1, 14, 2, 13, 6, 15, 0, 9, 10, 4, 5, 3],
   [12, 1, 10, 15, 9, 2, 6, 8, 0, 13, 3, 4, 14, 7, 5, 11,
    10, 15, 4, 2, 7, 12, 9, 5, 6, 1, 13, 14, 0, 11, 3, 8,
    9, 14, 15, 5, 2, 8, 12, 3, 7, 0, 4, 10, 1, 13, 11, 6,
    4, 3, 2, 12, 9, 5, 15, 10, 11, 14, 1, 7, 6, 0, 8, 13],
   [4, 11, 2, 14, 15, 0, 8, 13, 3, 12, 9, 7, 5, 10, 6, 1,
    13, 0, 11, 7, 4, 9, 1, 10, 14, 3, 5, 12, 2, 15, 8, 6,
    1, 4, 11, 13, 12, 3, 7, 14, 10, 15, 6, 8, 0, 5, 9, 2,
    6, 11, 13, 8, 1, 4, 10, 7, 9, 5, 0, 15, 14, 2, 3, 12],
   [13, 2, 8, 4, 6, 15, 11, 1, 10, 9, 3, 14, 5, 0, 12, 7,
    1, 15, 13, 8, 10, 3, 7, 4, 12, 5, 6, 11, 0, 14, 9, 2,
    7, 11, 4, 1, 9, 12, 14, 2, 0, 6, 10, 13, 15, 3, 5, 8,
    2, 1, 14, 7, 4, 10, 8, 13, 15, 12, 9, 0, 3, 5, 6, 11]]

/-! ## The cipher -/

/-- The entry of a substitution for six bits: the outer two choose the row. -/
def substitute (table : List Nat) (x : BitVec 6) : BitVec 4 :=
  let row := (x >>> 5 <<< 1 ||| x &&& 1).toNat
  let column := (x >>> 1 &&& 15).toNat
  BitVec.ofNat 4 (table.getD (16 * row + column) 0)

/-- All eight substitutions side by side. -/
def substituteAll (x : BitVec 48) : BitVec 32 :=
  (substitutions.zip [42, 36, 30, 24, 18, 12, 6, 0]).foldl
    (fun acc p => acc <<< 4 ||| (substitute p.1 (x.extractLsb' p.2 6)).setWidth 32) 0#32

/-- The round function. -/
def roundFunction (k : BitVec 48) (r : BitVec 32) : BitVec 32 :=
  pick 32 roundTable (substituteAll (pick 48 expansionTable r ^^^ k))

/-- The round keys from the halves of a key. -/
def roundKeysFrom : List Nat → BitVec 28 → BitVec 28 → List (BitVec 48)
  | [], _, _ => []
  | n :: ns, c, d =>
    let c' := c.rotateLeft n
    let d' := d.rotateLeft n
    pick 48 roundKeyTable (c' ++ d') :: roundKeysFrom ns c' d'

/-- The sixteen round keys of a key. -/
def roundKeys (key : BitVec 64) : List (BitVec 48) :=
  let k : BitVec 56 := pick 56 keyTable key
  roundKeysFrom turns (k.extractLsb' 28 28) (k.extractLsb' 0 28)

/-- The two halves of a block. -/
def split (x : Block) : Feistel.Halves 32 := (x.extractLsb' 32 32, x.extractLsb' 0 32)

/-- The block of two halves. -/
def join (h : Feistel.Halves 32) : Block := h.1 ++ h.2

/-- All rounds between the outer permutations. -/
def crypt (ks : List (BitVec 48)) (x : Block) : Block :=
  pick 64 finalTable
    (join (Feistel.swap (Feistel.rounds roundFunction ks (split (pick 64 initialTable x)))))

theorem split_join (h : Feistel.Halves 32) : split (join h) = h := by
  obtain ⟨l, r⟩ := h
  have hl : (l ++ r).extractLsb' 32 32 = l := by
    rw [BitVec.extractLsb'_append_eq_of_le (Nat.le_refl 32)]
    simp
  have hr : (l ++ r).extractLsb' 0 32 = r := by
    rw [BitVec.extractLsb'_append_eq_of_add_le (Nat.le_refl 32)]
    simp
  simp only [split, join, hl, hr]

theorem join_split (x : Block) : join (split x) = x := by
  simp only [join, split]
  ext i hi
  simp only [BitVec.getElem_append, BitVec.getElem_extractLsb']
  split
  · simp [BitVec.getLsbD_eq_getElem, hi]
  · rename_i h
    have : 32 + (i - 32) = i := by omega
    simp [this, BitVec.getLsbD_eq_getElem, hi]

/-- Two tables that undo each other give permutations that undo each other. -/
theorem pick_pick {s t : List Nat} (h : ∀ i < 64, s.getD i 1 - 1 < 64 ∧
    t.getD (s.getD i 1 - 1) 1 - 1 = i) (x : Block) : pick 64 s (pick 64 t x) = x := by
  apply BitVec.eq_of_getMsbD_eq
  intro i hi
  obtain ⟨hlt, heq⟩ := h i hi
  rw [getMsbD_pick _ _ _ _ hi, getMsbD_pick _ _ _ _ hlt, heq]

theorem pick_initial_final (x : Block) : pick 64 initialTable (pick 64 finalTable x) = x :=
  pick_pick (by decide) x

theorem pick_final_initial (x : Block) : pick 64 finalTable (pick 64 initialTable x) = x :=
  pick_pick (by decide) x

/-- The rounds under the keys in reverse order undo the rounds. -/
theorem crypt_reverse_crypt (ks : List (BitVec 48)) (x : Block) :
    crypt ks.reverse (crypt ks x) = x := by
  simp only [crypt, pick_initial_final, split_join, Feistel.rounds_reverse_swap,
    Feistel.swap_swap, join_split, pick_final_initial]

/-- DES under a key of eight bytes. -/
def cipher (key : BitVec 64) : BlockCipher where
  encrypt := crypt (roundKeys key)
  decrypt := crypt (roundKeys key).reverse
  decrypt_encrypt := crypt_reverse_crypt (roundKeys key)
  encrypt_decrypt x := by
    have h := crypt_reverse_crypt (roundKeys key).reverse x
    rwa [List.reverse_reverse] at h

/-- Triple DES under two keys: encrypt, decrypt, encrypt. -/
def triple (first second : BitVec 64) : BlockCipher where
  encrypt x := (cipher first).encrypt ((cipher second).decrypt ((cipher first).encrypt x))
  decrypt x := (cipher first).decrypt ((cipher second).encrypt ((cipher first).decrypt x))
  decrypt_encrypt x := by
    simp only [BlockCipher.decrypt_encrypt, BlockCipher.encrypt_decrypt]
  encrypt_decrypt x := by
    simp only [BlockCipher.decrypt_encrypt, BlockCipher.encrypt_decrypt]

/-- Triple DES under a key of sixteen bytes, the two keys one after the other. -/
def twoKey (key : Octets 16) : BlockCipher :=
  triple (Block.ofBytes key.bytes) (Block.ofBytes (key.bytes.drop 8))

end Des
end TagReader
