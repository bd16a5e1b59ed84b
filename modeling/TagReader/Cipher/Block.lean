/-
# Block ciphers and chaining

Tags compute on blocks of 64 bits.  A `BlockCipher` is a cipher with its key already chosen:
two functions on blocks, each of which undoes the other.

In chained mode each plain block is added to the cipher block before it and then encrypted;
the first one is added to an initial block.
-/
import TagReader.Bytes

namespace TagReader

/-- Eight bytes as a tag computes on them; the first byte is the most significant one. -/
abbrev Block : Type := BitVec 64

namespace Block

/-- The block of the first eight bytes. -/
def ofBytes (bs : Bytes) : Block :=
  (bs.take 8).foldl (fun acc b => (acc <<< 8) ||| b.toBitVec.setWidth 64) 0#64

/-- The eight bytes of a block. -/
def toBytes (x : Block) : Bytes :=
  [56, 48, 40, 32, 24, 16, 8, 0].map fun k => UInt8.ofBitVec ((x >>> k).setWidth 8)

/-- The first byte moved to the end. -/
def rotate (x : Block) : Block := x.rotateLeft 8

@[simp] theorem length_toBytes (x : Block) : x.toBytes.length = 8 := rfl

end Block

/-- A cipher on blocks under some key. -/
structure BlockCipher where
  /-- Encrypts one block. -/
  encrypt : Block → Block
  /-- Decrypts one block. -/
  decrypt : Block → Block
  /-- Decryption undoes encryption. -/
  decrypt_encrypt : ∀ x, decrypt (encrypt x) = x
  /-- Encryption undoes decryption. -/
  encrypt_decrypt : ∀ x, encrypt (decrypt x) = x

namespace BlockCipher

/-- Encrypts blocks in chained mode, from the initial block `iv`. -/
def encryptChain (c : BlockCipher) (iv : Block) : List Block → List Block
  | [] => []
  | p :: ps =>
    let x := c.encrypt (p ^^^ iv)
    x :: c.encryptChain x ps

/-- Decrypts blocks in chained mode, from the initial block `iv`. -/
def decryptChain (c : BlockCipher) (iv : Block) : List Block → List Block
  | [] => []
  | x :: xs => (c.decrypt x ^^^ iv) :: c.decryptChain x xs

/-- Chained decryption undoes chained encryption. -/
theorem decryptChain_encryptChain (c : BlockCipher) (iv : Block) (ps : List Block) :
    c.decryptChain iv (c.encryptChain iv ps) = ps := by
  induction ps generalizing iv with
  | nil => rfl
  | cons p ps ih =>
    simp only [encryptChain, decryptChain, c.decrypt_encrypt, ih, BitVec.xor_assoc,
      BitVec.xor_self, BitVec.xor_zero]

end BlockCipher
end TagReader
