/-
# Operations by place

Operations, too, find the parts of a reply by their places, and do so with the numbers and keys that
they send.  A `Probing` dialogue does this without a check of its own, as an `Access` does within
one reply: instead of a value or a fault it may turn out to have touched a place outside.

`Operation.probing` follows the operations in this way.  `Sound` says of such a dialogue that it
never touches such a place and asks, notes and yields what the dialogue of the library does,
whatever is answered.
-/
import TagReader.Proofs.Accesses
import TagReader.Proofs.Conveyance
import TagReader.Proofs.Questions

namespace TagReader

variable {ι κ α β : Type}

/-- A dialogue that touches places without a check of its own. -/
abbrev Probing (ι α : Type) : Type := OptionT (Dialogue ι) α

namespace Probing

/-- What comes of a reading. -/
def reading (x : Access α) : Probing ι α :=
  OptionT.mk <| match x.run with
    | some (.ok a) => .done (some a)
    | some (.error f) => .fail f
    | none => .done none

/-- Asks a question, and the answer decides how the dialogue goes on. -/
def ask (q : ι) (next : Except Fault Bytes → Probing ι α) : Probing ι α :=
  OptionT.mk (.ask q fun r => (next r).run)

/-- A dialogue that has failed. -/
def fail (f : Fault) : Probing ι α := OptionT.lift (.fail f)

/-- Replaces each question by a dialogue of another kind. -/
def expand (f : ι → Probing κ Bytes) : Dialogue ι (Option α) → Dialogue κ (Option α)
  | .done a => .done a
  | .fail e => .fail e
  | .note n d => .note n (expand f d)
  | .ask q k => (f q).run.outcome.andThen fun
    | .ok (some bs) => expand f (k (.ok bs))
    | .ok none => .done none
    | .error e => expand f (k (.error e))

/-! ## Sound dialogues -/

/-- The dialogue touches no place outside, and is `d`. -/
def Sound (x : Probing ι α) (d : Dialogue ι α) : Prop := x = OptionT.lift d

namespace Sound

variable {x : Probing ι α} {d : Dialogue ι α} {f : α → Probing ι β} {g : α → Dialogue ι β}

lemma lift (d : Dialogue ι α) : Sound (OptionT.lift d) d := rfl

lemma pure (a : α) : Sound (Pure.pure a : Probing ι α) (Pure.pure a) := rfl

lemma bind (hx : Sound x d) (hf : ∀ a, Sound (f a) (g a)) : Sound (x >>= f) (d >>= g) := by
  obtain rfl : x = OptionT.lift d := hx
  obtain rfl : f = fun a => OptionT.lift (g a) := funext hf
  induction d with
  | done a => rfl
  | fail e => rfl
  | note n d ih => exact congrArg (Dialogue.note n) ih
  | ask q k ih => exact congrArg (Dialogue.ask q) (funext ih)

lemma map (hx : Sound x d) (g : α → β) : Sound (g <$> x) (g <$> d) :=
  hx.bind fun a => .pure (g a)

lemma ask {k : Except Fault Bytes → Probing ι α} {k' : Except Fault Bytes → Dialogue ι α} (q : ι)
    (h : ∀ r, Sound (k r) (k' r)) : Sound (Probing.ask q k) (.ask q k') :=
  congrArg (Dialogue.ask q) (funext h)

/-- A safe reading is a value or a fault. -/
lemma reading {y : Access α} {r : Except Fault α} (h : Access.Safe y r) :
    Sound (Probing.reading y : Probing ι α) (Dialogue.ofExcept r) := by
  obtain rfl : y = Access.within r := h
  rcases r with e | a <;> rfl

/-- A reading that needs no check is no step of the dialogue. -/
lemma step {y : Access α} {a : α} {d : Dialogue ι β} (h : Access.Safe y (.ok a))
    (hf : Sound (f a) d) : Sound (Probing.reading y >>= f) d := by
  obtain rfl : y = Access.within (.ok a) := h
  exact hf

/-- A check that ends a dialogue, and may be written in another way. -/
lemma check_iff {c c' : Prop} [Decidable c] [Decidable c'] {e : Fault} {k : β → Probing ι α}
    {k' : β → Dialogue ι α} (hc : c ↔ c') (h : ¬c → Sound x d) :
    Sound (if c then (Probing.fail e : Probing ι β) >>= k else x)
      (if c' then (Dialogue.fail e : Dialogue ι β) >>= k' else d) := by
  by_cases hcase : c
  · rw [if_pos hcase, if_pos (hc.1 hcase)]
    rfl
  · rw [if_neg hcase, if_neg (mt hc.2 hcase)]
    exact h hcase

/-- A check that ends a dialogue. -/
lemma check {c : Prop} [Decidable c] {e : Fault} {k : β → Probing ι α} {k' : β → Dialogue ι α}
    (h : ¬c → Sound x d) :
    Sound (if c then (Probing.fail e : Probing ι β) >>= k else x)
      (if c then (Dialogue.fail e : Dialogue ι β) >>= k' else d) :=
  check_iff Iff.rfl h

/-- Questions replaced by sound dialogues. -/
lemma expand {f : ι → Probing κ Bytes} {g : ι → Dialogue κ Bytes} (hx : Sound x d)
    (h : ∀ q, Sound (f q) (g q)) :
    Sound (OptionT.mk (Probing.expand f x.run)) (d.expand g) := by
  obtain rfl : x = OptionT.lift d := hx
  obtain rfl : f = fun q => OptionT.lift (g q) := funext h
  induction d with
  | done a => rfl
  | fail e => rfl
  | note n d ih => exact congrArg (Dialogue.note n) ih
  | ask q k ih =>
    show OptionT.mk (Probing.expand _ (.ask q fun r => (OptionT.lift (k r)).run)) =
      OptionT.lift ((g q).outcome.andThen fun r => (k r).expand g)
    rw [Probing.expand]
    induction g q with
    | done bs => exact ih (.ok bs)
    | fail e => exact ih (.error e)
    | note n e ih' => exact congrArg (Dialogue.note n) ih'
    | ask q e ih' => exact congrArg (Dialogue.ask q) (funext ih')

end Sound

/-! ## The ways of asking -/

/-- The reply to a command, taken apart. -/
def reply (c : Command) (decode : Bytes → Access α) : Probing Call α := do
  let p ← OptionT.lift (Talk.exchange c)
  reading (decode p)

/-- The same with a bound on retries of its own. -/
def replyWithin (bound : Nat) (c : Command) (decode : Bytes → Access α) : Probing Call α := do
  let p ← OptionT.lift (Talk.exchangeWithin bound c)
  reading (decode p)

/-- An optional payload, taken apart if it is there. -/
def decoded (decode : Bytes → Access α) : Option Bytes → Probing Call (Option α)
  | some p => do
    let a ← reading (decode p)
    pure (some a)
  | none => pure none

/-- The reply to a command, if there is one. -/
def optional (c : Command) (decode : Bytes → Access α) : Probing Call (Option α) := do
  let p ← OptionT.lift (Talk.exchangeOptional c)
  decoded decode p

section

variable {c : Command} {decode : Bytes → Access α} {decode' : Bytes → Except Fault α}
  (h : ∀ p, Access.Safe (decode p) (decode' p))
include h

lemma sound_reply : Sound (reply c decode)
    (do let p ← Talk.exchange c; Dialogue.ofExcept (decode' p)) :=
  (Sound.lift _).bind fun p => .reading (h p)

lemma sound_replyWithin {bound : Nat} : Sound (replyWithin bound c decode)
    (do let p ← Talk.exchangeWithin bound c; Dialogue.ofExcept (decode' p)) :=
  (Sound.lift _).bind fun p => .reading (h p)

lemma sound_decoded (p : Option Bytes) : Sound (decoded decode p) (Talk.decoded decode' p) := by
  rcases p with _ | p
  · rfl
  · exact (Sound.reading (h p)).bind fun a => .pure _

lemma sound_optional : Sound (optional c decode)
    (do let p ← Talk.exchangeOptional c; Talk.decoded decode' p) := by
  exact (Sound.lift _).bind (sound_decoded h)

end

end Probing

/-! ## Numbers, keys and blocks -/

/-- The eight bytes of a block. -/
def Block.octets (x : Block) : Octets 8 := ⟨x.toBytes, x.length_toBytes⟩

namespace Access

/-- A number of so many bits, shifted to the left by less than that. -/
def shl (width a k : Nat) : Access Nat :=
  if k < width then pure ((a <<< k) % (1 <<< width)) else outside

/-- A number of so many bits, shifted to the right by less than that. -/
def shr (width a k : Nat) : Access Nat := if k < width then pure (a >>> k) else outside

/-- The mask of the pages that padded user data take. -/
def userMask (data : Bytes) : Access UInt16 := do
  let m ← shl 32 1 ((Mifare.padded data).length / Mifare.pageSize)
  let m ← minus m 1
  let m ← shl 32 m Mifare.userPage
  pure (UInt16.ofNat m)

/-- A mask of forty sectors, of the eight bytes of the mask. -/
def sectorMask (mask : UInt64) : Access Bytes :=
  range (([0, 8, 16, 24, 32, 40, 48, 56] : List UInt64).map fun k => (mask >>> k).toUInt8) 0 5

/-- A password added to a random number, byte by byte. -/
def masked (password : Octets 4) (number : Octets 2) : Access (Octets 4) := do
  copy 4
    [(← get password.bytes 0) ^^^ (← get number.bytes 0),
      (← get password.bytes 1) ^^^ (← get number.bytes 1),
      (← get password.bytes 2) ^^^ (← get number.bytes 0),
      (← get password.bytes 3) ^^^ (← get number.bytes 1)]

/-- So many blocks, one after the other. -/
def cut : (n : Nat) → Bytes → Access (List Block)
  | 0, _ => pure []
  | n + 1, bs => do
    let (front, rest) ← split bs 8
    let o ← copy 8 front
    let blocks ← cut n rest
    pure (Block.ofBytes o.bytes :: blocks)

/-- The blocks that bytes consist of. -/
def aligned (bs : Bytes) : Access (List Block) := do
  if bs.length % 8 ≠ 0 then
    throw (.authentication s!"cipher input of {bs.length} bytes is not block aligned")
  cut (bs.length / 8) bs

/-- The cipher under two keys, which are drawn out to three. -/
def cipher (key : Octets 16) : Access BlockCipher := do
  let long ← copy 24 (key.bytes ++ (← range key.bytes 0 8))
  pure (Des.triple (Block.ofBytes long.bytes) (Block.ofBytes (long.bytes.drop 8)))

/-- Chained encryption of bytes. -/
def encrypt (key : Octets 16) (iv : Octets 8) (bs : Bytes) : Access Bytes := do
  let blocks ← aligned bs
  let c ← cipher key
  pure ((c.encryptChain (Block.ofBytes iv.bytes) blocks).flatMap Block.toBytes)

/-- Chained decryption of bytes. -/
def decrypt (key : Octets 16) (iv : Octets 8) (bs : Bytes) : Access Bytes := do
  let blocks ← aligned bs
  let c ← cipher key
  pure ((c.decryptChain (Block.ofBytes iv.bytes) blocks).flatMap Block.toBytes)

/-- The bytes of an answer that carry a block, behind the first byte. -/
def carried (answer : Bytes) : Access (Octets 8) := do copy 8 (← range answer 1 9)

variable {data : Bytes}

lemma safe_shl {width a k : Nat} (h : k < width) :
    Safe (shl width a k) (.ok ((a <<< k) % (1 <<< width))) :=
  if_pos h

lemma safe_shr {width a k : Nat} (h : k < width) : Safe (shr width a k) (.ok (a >>> k)) := if_pos h

/-- User data take at most as many pages as there are. -/
lemma safe_userMask (h : data.length ≤ Mifare.ultralightUserSize) :
    Safe (userMask data) (.ok (Mifare.userMask (Mifare.pagesFor data.length))) := by
  have hpages : (Mifare.padded data).length / Mifare.pageSize = Mifare.pagesFor data.length := by
    rw [Mifare.padded, Bytes.length_fit]
    exact Nat.mul_div_cancel _ (by decide)
  have hfew : Mifare.pagesFor data.length ≤ 12 := by
    unfold Mifare.pagesFor Mifare.pageSize
    unfold Mifare.ultralightUserSize at h
    omega
  have hsmall : 1 <<< Mifare.pagesFor data.length < 1 <<< 32 := by
    rw [Nat.one_shiftLeft, Nat.one_shiftLeft]
    exact Nat.pow_lt_pow_right (by decide) (by omega)
  have hpos : 1 ≤ 1 <<< Mifare.pagesFor data.length := by
    rw [Nat.one_shiftLeft]
    exact Nat.one_le_two_pow
  unfold userMask
  rw [hpages]
  refine Safe.step (safe_shl (by omega)) ?_
  rw [Nat.mod_eq_of_lt hsmall]
  refine Safe.step (safe_minus hpos) (Safe.step (safe_shl (by decide)) ?_)
  -- What is lost of a number of 32 bits would be lost of one of 16 bits anyway.
  have hlost (m : Nat) : UInt16.ofNat (m % (1 <<< 32)) = UInt16.ofNat m := by
    apply UInt16.toNat_inj.1
    rw [UInt16.toNat_ofNat', UInt16.toNat_ofNat', Nat.mod_mod_of_dvd m (by decide)]
  rw [hlost]
  rfl

lemma safe_sectorMask (mask : UInt64) :
    Safe (sectorMask mask) (.ok (Mifare.sectorMask mask)) :=
  safe_range (Nat.zero_le _) (by rw [List.length_map]; decide)

lemma safe_masked (password : Octets 4) (number : Octets 2) :
    Safe (masked password number) (.ok (Icode.masked password number)) := by
  obtain ⟨bs, hbs⟩ := password
  obtain ⟨ns, hns⟩ := number
  match bs, ns, hbs, hns with
  | [_, _, _, _], [_, _], _, _ => rfl

/-- Bytes that are blocks are cut into these. -/
lemma safe_cut (blocks : List Block) :
    Safe (cut blocks.length (blocks.flatMap Block.toBytes)) (.ok blocks) := by
  induction blocks with
  | nil => rfl
  | cons x xs ih =>
    have hx := Block.length_toBytes x
    rw [List.flatMap_cons]
    refine Safe.step (safe_split (by rw [List.length_append]; omega)) ?_
    rw [List.take_left' hx, List.drop_left' hx]
    refine Safe.step (safe_copy x.octets) (Safe.step ih ?_)
    rw [Block.octets, Block.ofBytes_toBytes]
    rfl

lemma safe_aligned (blocks : List Block) :
    Safe (aligned (blocks.flatMap Block.toBytes)) (.ok blocks) := by
  unfold aligned
  rw [Bytes.length_flatMap Block.length_toBytes, Nat.mul_mod_right,
    Nat.mul_div_cancel_left _ (by decide)]
  exact safe_cut blocks

lemma ofBytes_append_of_le {bs : Bytes} (h : 8 ≤ bs.length) (more : Bytes) :
    Block.ofBytes (bs ++ more) = Block.ofBytes bs := by
  rw [Block.ofBytes, Block.ofBytes, List.take_append_of_le_length h]

lemma safe_cipher (key : Octets 16) : Safe (cipher key) (.ok (Des.twoKey key)) := by
  have hlen := key.length_eq
  have hlong : (key.bytes ++ (key.bytes.drop 0).take (8 - 0)).length = 24 := by
    rw [List.length_append, List.length_take, List.drop_zero]
    omega
  refine Safe.step (safe_range (by omega) (by omega)) (Safe.step (safe_copy ⟨_, hlong⟩) ?_)
  have hsecond : 8 ≤ (key.bytes.drop 8).length := by
    rw [List.length_drop]
    omega
  rw [List.drop_append_of_le_length (by omega), ofBytes_append_of_le (by omega),
    ofBytes_append_of_le hsecond]
  rfl

variable (key : Octets 16) (iv : Block)

lemma safe_encrypt (blocks : List Block) :
    Safe (encrypt key iv.octets (blocks.flatMap Block.toBytes))
      (.ok (((Des.twoKey key).encryptChain iv blocks).flatMap Block.toBytes)) := by
  refine Safe.step (safe_aligned blocks) (Safe.step (safe_cipher key) ?_)
  rw [Block.octets, Block.ofBytes_toBytes]
  rfl

lemma safe_decrypt (blocks : List Block) :
    Safe (decrypt key iv.octets (blocks.flatMap Block.toBytes))
      (.ok (((Des.twoKey key).decryptChain iv blocks).flatMap Block.toBytes)) := by
  refine Safe.step (safe_aligned blocks) (Safe.step (safe_cipher key) ?_)
  rw [Block.octets, Block.ofBytes_toBytes]
  rfl

end Access

/-! ## The handshake -/

namespace UltralightC

open Probing

variable (key : Octets 16) (nonce : Block)

/-- Whether the first answer does not challenge the host; its first byte is looked at only if the
answer is long enough. -/
def unchallenging (answer : Bytes) : Access Bool := do
  if answer.length < 9 then
    pure true
  else do
    pure ((← Access.get answer 0) != continues)

/-- What the host makes of the second answer to what it has sent. -/
def probingJudge (sent answer : Bytes) : Probing Bytes Bool := do
  if answer.length = 1 then
    let b ← reading (Access.get answer 0)
    OptionT.mk (.note ⟨.debug, "ultralight c rejected the key (" ++ Hex.code b ++ ")"⟩
      (.done (some false)))
  else if answer.length < 9 then
    fail (.authentication ("unexpected step 2 reply: " ++ Hex.compact answer))
  else do
    let iv ← reading (do Access.copy 8 (← Access.range sent 8 sent.length))
    let echo ← reading (do Access.decrypt key iv (← Access.range answer 1 9))
    pure (echo == Bytes.rotate nonce.toBytes)

/-- The host's side of the handshake, on bytes. -/
def probingHandshake : Probing Bytes Bool :=
  ask opening fun
    | .error f => fail (.authentication ("step 1 failed: " ++ f.message))
    | .ok answer => do
      if ← reading (unchallenging answer) then
        fail (.authentication ("unexpected step 1 reply: " ++ Hex.compact answer))
      else do
        let challenge ← reading (Access.carried answer)
        let theirs ← reading (Access.decrypt key (Octets.fill 8 0) challenge.bytes)
        let sent ← reading
          (Access.encrypt key challenge (nonce.toBytes ++ Bytes.rotate theirs))
        ask (continues :: sent) fun
          | .error f => fail (.authentication ("step 2 failed: " ++ f.message))
          | .ok answer' => probingJudge key nonce sent answer'

lemma safe_unchallenging (answer : Bytes) :
    Access.Safe (unchallenging answer)
      (.ok (decide (answer.length < 9 ∨ answer.headD 0 ≠ continues))) := by
  unfold unchallenging
  by_cases h : answer.length < 9
  · rw [if_pos h, decide_eq_true (Or.inl h)]
    rfl
  · rw [if_neg h]
    match answer with
    | b :: rest =>
      have hsame : decide ((b :: rest).length < 9 ∨ (b :: rest).headD 0 ≠ continues) =
          (b != continues) := by
        rw [decide_eq_decide.2 (or_iff_right h)]
        exact decide_not
      rw [hsame]
      rfl
    | [] => exact absurd (by decide) h

lemma length_carried {answer : Bytes} (h : 9 ≤ answer.length) :
    ((answer.drop 1).take 8).length = 8 := by
  rw [List.length_take, List.length_drop]
  omega

/-- A long answer carries a block. -/
lemma safe_carried {answer : Bytes} (h : 9 ≤ answer.length) :
    Access.Safe (Access.carried answer) (.ok (carried answer).octets) := by
  refine Access.Safe.step (Access.safe_range (by omega) h) ?_
  exact Access.safe_copy_of_eq (Block.toBytes_ofBytes (length_carried h)).symm

lemma flatMap_single (x : Block) : [x].flatMap Block.toBytes = x.toBytes := by
  rw [List.flatMap_cons, List.flatMap_nil, List.append_nil]

/-- Single blocks are compared as blocks or as bytes. -/
lemma beq_toBytes (x y : Block) :
    (([x].flatMap Block.toBytes) == y.toBytes) = ([x] == [y]) := by
  rw [flatMap_single, beq_eq_decide, beq_eq_decide, decide_eq_decide,
    Block.toBytes_injective.eq_iff, List.singleton_inj]

/-- The last block of what was sent. -/
lemma safe_last (first last : Block) :
    Access.Safe (do Access.copy 8 (← Access.range ([first, last].flatMap Block.toBytes) 8
      ([first, last].flatMap Block.toBytes).length)) (.ok last.octets) := by
  have hlen : 8 ≤ ([first, last].flatMap Block.toBytes).length := by
    rw [Bytes.length_flatMap Block.length_toBytes]
    exact Nat.le_add_left _ _
  exact .step (Access.safe_range_end hlen) (Access.safe_copy last.octets)

/-- The block that a long answer carries, decrypted. -/
lemma safe_echo (last : Block) {answer : Bytes} (h : 9 ≤ answer.length) :
    Access.Safe (do Access.decrypt key last.octets (← Access.range answer 1 9))
      (.ok (((Des.twoKey key).decryptChain last [carried answer]).flatMap Block.toBytes)) := by
  have hplace : (answer.drop 1).take (9 - 1) = [carried answer].flatMap Block.toBytes := by
    rw [flatMap_single, carried, Block.toBytes_ofBytes (length_carried h)]
  refine .step (Access.safe_range (by omega) h) ?_
  rw [hplace]
  exact Access.safe_decrypt key last [carried answer]

lemma sound_judge (challenge : Block) (answer : Bytes) :
    Sound (probingJudge key nonce
        ((proof (Des.twoKey key) nonce challenge).flatMap Block.toBytes) answer)
      (judge (Des.twoKey key) nonce ((proof (Des.twoKey key) nonce challenge).getLastD 0#64)
        answer) := by
  unfold probingJudge judge
  by_cases hone : answer.length = 1
  · obtain ⟨b, rfl⟩ := List.length_eq_one_iff.1 hone
    rw [if_pos hone, if_pos hone]
    rfl
  · by_cases hnine : answer.length < 9
    · rw [if_neg hone, if_neg hone, if_pos hnine, if_pos hnine]
      rfl
    · rw [if_neg hone, if_neg hone, if_neg hnine, if_neg hnine, getLastD_proof, proof_eq]
      generalize firstBlock (Des.twoKey key) nonce challenge = first
      generalize lastBlock (Des.twoKey key) nonce challenge = last
      refine .step (safe_last first last) (.step (safe_echo key last (Nat.not_lt.1 hnine)) ?_)
      rw [← Block.toBytes_rotate]
      have hsame := beq_toBytes ((Des.twoKey key).decrypt (carried answer) ^^^ last) nonce.rotate
      exact (congrArg (fun b => (pure b : Probing Bytes Bool)) hsame).trans rfl

lemma sound_handshake :
    Sound (probingHandshake key nonce) (handshake (Des.twoKey key) nonce) := by
  refine .ask opening ?_
  rintro (f | answer)
  · exact .lift _
  · refine .step (safe_unchallenging answer) ?_
    by_cases h : answer.length < 9 ∨ answer.headD 0 ≠ continues
    · rw [decide_eq_true h]
      show Sound _ (if _ then _ else _)
      rw [if_pos h]
      rfl
    · rw [decide_eq_false h]
      show Sound _ (if _ then _ else _)
      rw [if_neg h]
      refine .step (safe_carried (Nat.not_lt.1 (not_or.1 h).1)) ?_
      have hzero : Octets.fill 8 0 = Block.octets 0#64 := by decide
      have htheirs := Access.safe_decrypt key 0#64 [carried answer]
      rw [flatMap_single, BlockCipher.decryptChain, BlockCipher.decryptChain, flatMap_single,
        BitVec.xor_zero] at htheirs
      have hsent := Access.safe_encrypt key (carried answer)
        [nonce, ((Des.twoKey key).decrypt (carried answer)).rotate]
      rw [List.flatMap_cons, flatMap_single, Block.toBytes_rotate] at hsent
      rw [hzero]
      refine .step htheirs (.step hsent (.ask _ ?_))
      rintro (f | answer')
      · exact .lift _
      · exact sound_judge key nonce (carried answer) answer'

end UltralightC

/-! ## Every operation -/

open Probing

/-- The firmware version; that it is too short is no fault of its own. -/
def Reader.probingVersion : Probing Call FirmwareVersion := do
  let raw ← OptionT.lift Reader.versionBytes
  reading ((Access.firmwareVersion raw).adapt fun f => .deviceNotPresent f.message)

/-- The operations on the reader itself. -/
def ReaderOperation.probing : ReaderOperation → Probing Call Finding
  | version => Finding.version <$> Reader.probingVersion
  | probe => Finding.version <$> do
    let v ← Reader.probingVersion
    OptionT.lift (Dialogue.say .info ("reader firmware " ++ v.display))
    pure v
  | op => OptionT.lift op.talk

/-- A raw message that is passed through. -/
def Iso14443a.probingPassThrough (layer : Layer) (message : Bytes) : Probing Call Bytes :=
  if h : message.length < 256 then
    reply (Request.passThrough layer message h).command (Access.prefixed · 0)
  else fail (Command.uncountable message)

/-- One try of the Ultralight C authentication. -/
def Iso14443a.probingAuthenticate (key : Octets 16) (nonce : Block) : Probing Call Bool :=
  OptionT.mk (Probing.expand (probingPassThrough .three)
    (UltralightC.probingHandshake key nonce).run)

/-- The operations on ISO14443A tags. -/
def Iso14443aOperation.probing : Iso14443aOperation → Probing Call Finding
  | activateIdle =>
    .ofOption .target <$> optional Iso14443a.Request.activateIdle.command Access.target
  | activateWakeup uid =>
    .ofOption .target <$> optional (Iso14443a.Request.activateWakeup uid).command Access.target
  | showCards => Finding.uids <$> do
    match ← OptionT.lift (Talk.exchangeOptional Iso14443a.Request.listCards.command) with
    | some p => reading (Access.tagList p)
    | none => pure []
  | readBlock block => (fun o => .bytes o.bytes) <$>
    reply (Iso14443a.Request.readBlock block).command (Access.octets · 16 0)
  | wupA => .ofOption .atqa <$> optional Iso14443a.Request.wupA.command fun p => do
    Access.within (Atqa.ofBytes (← Access.slice p 0 2))
  | anticollision => (fun o => .bytes o.bytes) <$>
    reply Iso14443a.Request.anticollision.command Access.anticollision
  | select uid => (fun sak => .number sak.toNat) <$>
    reply (Iso14443a.Request.select uid).command (Access.byte · 0)
  | rats => Finding.bytes <$> reply Iso14443a.Request.rats.command Access.ats
  | passThrough layer message => Finding.bytes <$> Iso14443a.probingPassThrough layer message
  | authenticateUltralightC session nonce =>
    Finding.flag <$> Iso14443a.probingAuthenticate session.key nonce
  | op => OptionT.lift op.talk

/-- An identifier behind its length. -/
def Access.uid (p : Bytes) : Access Uid := do pure ⟨← Access.prefixed p 0⟩

/-- The operations on ISO14443B tags. -/
def Iso14443bOperation.probing (s : Iso14443b.Session) :
    Iso14443bOperation → Probing Call (Finding × Iso14443b.Session)
  | reqB family => do
    pure (← .ofOption .atqb <$> optional (Iso14443b.Request.reqB family).command Access.atqb, s)
  | select => do
    let (chip, s) ← (do
      let p ← OptionT.lift (Talk.exchangeOptional Iso14443b.Request.select.command)
      match ← decoded (Access.byte · 0) p with
      | some chip => pure (some chip, { s with chip := some chip })
      | none => pure (none, s) : Probing Call (Option UInt8 × Iso14443b.Session))
    pure (.ofOption (fun c => .number c.toNat) chip, s)
  | read first n => do
    pure (← Finding.bytes <$>
      reply (Iso14443b.Request.read first n).command (Access.blocks · n), s)
  | getUid => do
    pure (← .ofOption .uid <$> optional Iso14443b.Request.uid.command Access.uid, s)
  | readUid => do
    let uid : Probing Call (Option Uid) := do
      match ← optional Iso14443b.Request.uid.command Access.uid with
      | some uid => pure (some uid)
      | none =>
        ask ⟨(Iso14443b.Request.read 0 4).command, none⟩ fun
          | .ok p => do
            let bs ← reading (Access.blocks p 4)
            pure (some ⟨bs⟩)
          | .error (.readerStatus _) => pure none
          | .error f => fail f
    pure (← .ofOption .uid <$> uid, s)
  | protection => do
    pure (← (fun b => .number b.toNat) <$>
      reply Iso14443b.Request.protection.command (Access.byte · 1), s)
  | op => OptionT.lift (op.talk s)

/-- The operations on ISO15693 tags. -/
def Iso15693Operation.probing : Iso15693Operation → Probing Call Finding
  | inventory => Finding.uids <$> do
    match ← OptionT.lift (Talk.exchangeOptional Iso15693.Request.inventory.command) with
    | some p => reading (Access.fixedTagList p)
    | none => pure []
  | readBlocks uid first n => Finding.bytes <$> do
    if n < 1 ∨ 256 < n then
      fail (.validation s!"block count must be 1..=256, got {n}")
    let tag ← OptionT.lift (Iso15693.addressing uid)
    let further ← reading (Access.minus n 1)
    OptionT.lift (Talk.exchange
      (Iso15693.Request.readBlocks tag first (UInt8.ofNat further)).command)
  | systemInformation uid => Finding.information <$> do
    let tag ← OptionT.lift (Iso15693.addressing uid)
    reply (Iso15693.Request.systemInformation tag).command Access.systemInformation
  | op => OptionT.lift op.talk

/-- A fresh random number. -/
def Icode.probingRandom (tag : Option Iso15693.Address) : Probing Call (Octets 2) :=
  reply (Request.random tag).command (Access.octets · 2 0)

/-- The operations on ICODE tags. -/
def IcodeOperation.probing : IcodeOperation → Probing Call Finding
  | randomNumber uid => (fun w => .number w.toNat) <$> do
    let tag ← OptionT.lift (Icode.addressing uid)
    let o ← Icode.probingRandom tag
    reading (do pure (Bytes.toWord16 (← Access.get o.bytes 0) (← Access.get o.bytes 1)))
  | setPassword uid id pwd => (fun _ => .done) <$> do
    let pwd ← OptionT.lift (Icode.password pwd)
    if uid.isNone ∧ id ≠ .privacy then
      fail (.validation (id.label ++ " password needs an addressed tag"))
    let tag ← OptionT.lift (Icode.addressing uid)
    let number ← Icode.probingRandom tag
    let masked ← reading (Access.masked pwd number)
    OptionT.lift (Talk.order (Icode.Request.present tag id masked).command)
  | blockStatus uid first n => Finding.bytes <$> do
    let tag ← OptionT.lift (Iso15693.addressing uid)
    reply (Icode.Request.blockStatus tag first n).command (Access.slice · 0 n.toNat)
  | op => OptionT.lift op.talk

/-- The operations on Picopass cards. -/
def PicopassOperation.probing : PicopassOperation → Probing Call Finding
  | getUid => .ofOption .uid <$> optional Picopass.Request.selectUid.command Access.uid
  | cards => Finding.uids <$> do
    let uid ← optional Picopass.Request.selectUid.command Access.uid
    pure uid.toList

namespace Mifare

/-- Bytes of an Ultralight tag. -/
def probingUltralight (offset len : Nat) : Probing Call Bytes := do
  if ultralightSize < offset + len then
    fail (.validation s!"ultralight range {offset}..{offset + len} exceeds {ultralightSize} bytes")
  reply Request.readUltralight.command (Access.slice · offset len)

/-- Pages of an Ultralight C tag. -/
def probingUltralightC (first n : UInt8) (options : Options) : Probing Call Bytes := do
  OptionT.lift (ensurePages first n)
  reply (Request.readUltralightC options first n).command (Access.slice · 0 (n.toNat * pageSize))

/-- A write to an Ultralight tag. -/
def probingWriteUltralight (data : Bytes) (mask : UInt16) : Probing Call Uid := do
  if mask = 0 then
    fail (.validation "page mask selects no pages")
  let expected := count 16 mask.toNat * pageSize
  if data.length ≠ expected then
    fail (maskMismatch mask expected data.length)
  reply (Request.writeUltralight mask data).command Access.uid

/-- A write to an Ultralight C tag. -/
def probingWriteUltralightC (data : Bytes) (first n : UInt8) (options : Options) :
    Probing Call Uid := do
  OptionT.lift (ensurePages first n)
  let expected := n.toNat * pageSize
  if data.length ≠ expected then
    fail (.validation s!"{n.toNat} pages need {expected} bytes, got {data.length}")
  reply (Request.writeUltralightC options first n data).command Access.uid

end Mifare

/-- The MIFARE macros. -/
def MifareOperation.probing : MifareOperation → Probing Call Finding
  | readUltralight offset len => Finding.bytes <$> Mifare.probingUltralight offset len
  | readUltralightAll => Finding.bytes <$> Mifare.probingUltralight 0 Mifare.ultralightSize
  | readUltralightUserData => Finding.bytes <$>
    Mifare.probingUltralight (Mifare.userPage * Mifare.pageSize) Mifare.ultralightUserSize
  | readUltralightC first n options => Finding.bytes <$> Mifare.probingUltralightC first n options
  | readUltralightCUserData => Finding.bytes <$>
    Mifare.probingUltralightC (UInt8.ofNat Mifare.userPage)
      (UInt8.ofNat Mifare.ultralightCUserPages) Mifare.userOptions
  | writeUltralight data mask => Finding.uid <$> Mifare.probingWriteUltralight data mask
  | writeUltralightUserData data => Finding.uid <$> do
    OptionT.lift (Mifare.ensureUserData "ultralight" Mifare.ultralightUserSize data)
    let mask ← reading (Access.userMask data)
    Mifare.probingWriteUltralight (Mifare.padded data) mask
  | writeUltralightC data first n options =>
    Finding.uid <$> Mifare.probingWriteUltralightC data first n options
  | writeUltralightCUserData data => Finding.uid <$> do
    OptionT.lift (Mifare.ensureUserData "ultralight c" Mifare.ultralightCUserSize data)
    Mifare.probingWriteUltralightC (Mifare.padded data) (UInt8.ofNat Mifare.userPage)
      (UInt8.ofNat (Mifare.pagesFor data.length)) Mifare.userOptions
  | readSector sector auth mask => Finding.bytes <$> do
    OptionT.lift (Dialogue.say .debug (Mifare.sectorText "read" sector auth mask))
    replyWithin Mifare.sectorRetries (Mifare.Request.readSector sector auth mask).command
      (Access.prefixed · 0)
  | writeSector data sector auth mask => Finding.uid <$> do
    let expected := Mifare.count 16 mask.toNat * Mifare.blockSize
    if data.length ≠ expected then
      fail (Mifare.maskMismatch mask expected data.length)
    OptionT.lift (Dialogue.say .debug (Mifare.sectorText "write" sector auth mask))
    replyWithin Mifare.sectorRetries (Mifare.Request.writeSector sector auth mask data).command
      Access.uid
  | writeTrailers mask trailers => Finding.uid <$> do
    let above ← reading (Access.shr 64 mask.toNat Mifare.maxSectors)
    if above ≠ 0 then
      fail (.validation ("sector mask " ++ Hex.number 1 mask.toNat ++
        s!" exceeds {Mifare.maxSectors} sectors"))
    let sectors := Mifare.count 64 mask.toNat
    if sectors ≠ trailers.length then
      fail (.validation s!"mask selects {sectors} sectors, got {trailers.length} trailers")
    let bytes ← reading (Access.sectorMask mask)
    replyWithin Mifare.sectorRetries
      (((Mifare.command 0x43).bytes bytes).bytes (trailers.flatMap Octets.bytes)) Access.uid
  | authenticateUltralightC key nonce => Finding.flag <$> do
    let s ← OptionT.lift (Dialogue.ofExcept (UltralightC.Session.ofKey key))
    Iso14443a.probingAuthenticate s.key nonce

/-- Every operation, by place. -/
def Operation.probing (s : Iso14443b.Session) :
    Operation → Probing Call (Finding × Iso14443b.Session)
  | reader op => do pure (← op.probing, s)
  | iso14443a op => do pure (← op.probing, s)
  | iso14443b op => op.probing s
  | iso15693 op => do pure (← op.probing, s)
  | icode op => do pure (← op.probing, s)
  | picopass op => do pure (← op.probing, s)
  | mifare op => do pure (← op.probing, s)

/-! ### None of them touches a place outside -/

namespace Access

lemma Safe.adapt {x : Access α} {r : Except Fault α} (h : Safe x r) (f : Fault → Fault) :
    Safe (x.adapt f) (r.mapError f) := by
  obtain rfl : x = Access.within r := h
  cases r <;> rfl

lemma safe_uid (p : Bytes) : Safe (uid p) (do pure ⟨← Payload.prefixed p 0⟩) :=
  (safe_prefixed p 0).bind fun _ _ => .pure _

lemma safe_atqa (p : Bytes) :
    Safe (do within (Atqa.ofBytes (← slice p 0 2))) (do Atqa.ofBytes (← Payload.slice p 0 2)) :=
  (safe_slice p 0 2).bind fun _ _ => .within _

end Access

open Access

lemma Reader.sound_version : Sound probingVersion version := by
  refine (Sound.lift _).bind fun raw => ?_
  have h : Sound (Probing.reading _ : Probing Call FirmwareVersion) (Dialogue.ofExcept _) :=
    .reading ((safe_firmwareVersion raw).adapt fun f => .deviceNotPresent f.message)
  cases hv : FirmwareVersion.ofBytes raw with
  | ok v =>
    rw [hv] at h
    exact h
  | error f =>
    rw [hv] at h
    exact h

lemma ReaderOperation.sound_probing (op : ReaderOperation) : Sound op.probing op.talk := by
  cases op with
  | version => exact Reader.sound_version.map _
  | probe => exact (Reader.sound_version.bind fun v => (Sound.lift _).bind fun _ => .pure v).map _
  | _ => exact .lift _

lemma Iso14443a.sound_passThrough (layer : Layer) (message : Bytes) :
    Sound (probingPassThrough layer message) (passThrough layer message) := by
  unfold probingPassThrough passThrough
  by_cases h : message.length < 256
  · rw [dif_pos h, dif_pos h]
    exact sound_reply fun p => safe_prefixed p 0
  · rw [dif_neg h, dif_neg h]
    exact .lift _

lemma Iso14443a.sound_authenticate (s : UltralightC.Session) (nonce : Block) :
    Sound (probingAuthenticate s.key nonce) (authenticateUltralightC s nonce) :=
  (UltralightC.sound_handshake s.key nonce).expand (sound_passThrough .three)

lemma Iso14443aOperation.sound_probing (op : Iso14443aOperation) : Sound op.probing op.talk := by
  cases op with
  | activateIdle => exact (sound_optional safe_target).map _
  | activateWakeup uid => exact (sound_optional safe_target).map _
  | showCards =>
    refine ((Sound.lift _).bind fun p => ?_).map _
    rcases p with _ | p
    · exact .pure _
    · exact .reading (safe_tagList p)
  | readBlock block => exact (sound_reply fun p => safe_octets p 16 0).map _
  | wupA => exact (sound_optional safe_atqa).map _
  | anticollision => exact (sound_reply safe_anticollision).map _
  | select uid => exact (sound_reply fun p => safe_byte p 0).map _
  | rats => exact (sound_reply safe_ats).map _
  | passThrough layer message => exact (Iso14443a.sound_passThrough layer message).map _
  | authenticateUltralightC session nonce =>
    exact (Iso14443a.sound_authenticate session nonce).map _
  | _ => exact .lift _

lemma Iso14443bOperation.sound_probing (op : Iso14443bOperation) (s : Iso14443b.Session) :
    Sound (op.probing s) (op.talk s) := by
  cases op with
  | reqB family => exact ((sound_optional safe_atqb).map _).bind fun _ => .pure _
  | select =>
    refine ((Sound.lift _).bind fun p => ?_).bind fun _ => .pure _
    refine (sound_decoded (fun p => safe_byte p 0) p).bind fun chip => ?_
    rcases chip with _ | chip <;> exact .pure _
  | read first n => exact ((sound_reply fun p => safe_blocks p n).map _).bind fun _ => .pure _
  | getUid => exact ((sound_optional safe_uid).map _).bind fun _ => .pure _
  | readUid =>
    refine (Sound.map ((sound_optional safe_uid).bind fun uid => ?_) _).bind fun _ => .pure _
    rcases uid with _ | uid
    · refine .ask _ ?_
      rintro (f | p)
      · cases f with
        | readerStatus status => exact .pure _
        | _ => exact .lift _
      · exact (Sound.reading (safe_blocks p 4)).bind fun _ => .pure _
    · exact .pure _
  | protection => exact ((sound_reply fun p => safe_byte p 1).map _).bind fun _ => .pure _
  | _ => exact .lift _

lemma Iso15693Operation.sound_probing (op : Iso15693Operation) : Sound op.probing op.talk := by
  cases op with
  | inventory =>
    refine ((Sound.lift _).bind fun p => ?_).map _
    rcases p with _ | p
    · exact .pure _
    · exact .reading (safe_fixedTagList p)
  | readBlocks uid first n =>
    refine (Sound.check fun hn => (Sound.lift _).bind fun tag => ?_).map _
    exact .step (safe_minus (by omega)) (.lift _)
  | systemInformation uid =>
    exact ((Sound.lift _).bind fun tag => sound_reply safe_systemInformation).map _
  | _ => exact .lift _

lemma IcodeOperation.sound_probing (op : IcodeOperation) : Sound op.probing op.talk := by
  have hrandom (tag : Option Iso15693.Address) :
      Sound (Icode.probingRandom tag) (Icode.randomOctets tag) :=
    sound_reply fun p => safe_octets p 2 0
  cases op with
  | randomNumber uid =>
    refine ((Sound.lift _).bind fun tag => (hrandom tag).bind fun o => ?_).map _
    have hlen := o.length_eq
    refine Sound.reading (r := .ok _) (.step (safe_get (getElem?_eq_some_getD (by omega))) ?_)
    exact .step (safe_get (getElem?_eq_some_getD (by omega))) (.pure _)
  | setPassword uid id pwd =>
    refine ((Sound.lift _).bind fun pwd => Sound.check fun _ => ?_).map _
    refine (Sound.lift _).bind fun tag => (hrandom tag).bind fun number => ?_
    exact .step (safe_masked pwd number) (.lift _)
  | blockStatus uid first n =>
    exact ((Sound.lift _).bind fun tag => sound_reply fun p => safe_slice p 0 _).map _
  | _ => exact .lift _

lemma PicopassOperation.sound_probing (op : PicopassOperation) : Sound op.probing op.talk := by
  cases op with
  | getUid => exact (sound_optional safe_uid).map _
  | cards => exact ((sound_optional safe_uid).bind fun _ => .pure _).map _

namespace Mifare

lemma ensureUserData_of_long (kind : String) {limit : Nat} {data : Bytes}
    (h : limit < data.length) : ∃ f, ensureUserData kind limit data = .fail f := by
  have hempty : ¬data.isEmpty = true := by
    rw [List.isEmpty_iff]
    rintro rfl
    exact Nat.not_lt_zero _ h
  unfold ensureUserData
  rw [if_neg hempty, if_pos h]
  exact ⟨_, rfl⟩

lemma sound_ultralight (offset len : Nat) :
    Sound (probingUltralight offset len) (readUltralight offset len) :=
  .check fun _ => sound_reply fun p => safe_slice p offset len

lemma sound_ultralightC (first n : UInt8) (options : Options) :
    Sound (probingUltralightC first n options) (readUltralightC first n options) :=
  (Sound.lift _).bind fun _ => sound_reply fun p => safe_slice p 0 _

lemma sound_writeUltralight (data : Bytes) (mask : UInt16) :
    Sound (probingWriteUltralight data mask) (writeUltralight data mask) :=
  .check fun _ => .check fun _ => sound_reply safe_uid

lemma sound_writeUltralightC (data : Bytes) (first n : UInt8) (options : Options) :
    Sound (probingWriteUltralightC data first n options) (writeUltralightC data first n options) :=
  (Sound.lift _).bind fun _ => .check fun _ => sound_reply safe_uid

end Mifare

lemma MifareOperation.sound_probing (op : MifareOperation) : Sound op.probing op.talk := by
  cases op with
  | readUltralight offset len => exact (Mifare.sound_ultralight offset len).map _
  | readUltralightAll => exact (Mifare.sound_ultralight _ _).map _
  | readUltralightUserData => exact (Mifare.sound_ultralight _ _).map _
  | readUltralightC first n options => exact (Mifare.sound_ultralightC first n options).map _
  | readUltralightCUserData => exact (Mifare.sound_ultralightC _ _ _).map _
  | writeUltralight data mask => exact (Mifare.sound_writeUltralight data mask).map _
  | writeUltralightUserData data =>
    refine Sound.map ?_ _
    -- The check of the data stands before the shifts, and keeps them short.
    by_cases h : data.length ≤ Mifare.ultralightUserSize
    · refine (Sound.lift _).bind fun _ => ?_
      exact .step (safe_userMask h) (Mifare.sound_writeUltralight _ _)
    · obtain ⟨f, hf⟩ := Mifare.ensureUserData_of_long "ultralight" (Nat.not_le.1 h)
      unfold Mifare.writeUltralightUserData
      rw [hf]
      exact .lift (.fail f)
  | writeUltralightC data first n options =>
    exact (Mifare.sound_writeUltralightC data first n options).map _
  | writeUltralightCUserData data =>
    exact ((Sound.lift _).bind fun _ => Mifare.sound_writeUltralightC _ _ _ _).map _
  | readSector sector auth mask =>
    exact ((Sound.lift _).bind fun _ => sound_replyWithin fun p => safe_prefixed p 0).map _
  | writeSector data sector auth mask =>
    exact (Sound.check fun _ => (Sound.lift _).bind fun _ => sound_replyWithin safe_uid).map _
  | writeTrailers mask trailers =>
    refine Sound.map (.step (safe_shr (by decide)) (.check_iff ?_ fun _ => ?_)) _
    · rw [Nat.shiftRight_eq_div_pow, Nat.one_shiftLeft]
      exact Nat.div_ne_zero_iff.trans (and_iff_right (Nat.ne_of_gt (Nat.two_pow_pos _)))
    · exact .check fun _ => .step (safe_sectorMask mask) (sound_replyWithin safe_uid)
  | authenticateUltralightC key nonce =>
    exact ((Sound.lift _).bind fun s => Iso14443a.sound_authenticate s nonce).map _

/-- No operation touches a place outside. -/
lemma Operation.sound_probing (op : Operation) (s : Iso14443b.Session) :
    Sound (op.probing s) (op.talk s) := by
  cases op with
  | reader op => exact op.sound_probing.bind fun _ => .pure _
  | iso14443a op => exact op.sound_probing.bind fun _ => .pure _
  | iso14443b op => exact op.sound_probing s
  | iso15693 op => exact op.sound_probing.bind fun _ => .pure _
  | icode op => exact op.sound_probing.bind fun _ => .pure _
  | picopass op => exact op.sound_probing.bind fun _ => .pure _
  | mifare op => exact op.sound_probing.bind fun _ => .pure _

end TagReader
