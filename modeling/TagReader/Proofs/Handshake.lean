/-
# The outcome of a handshake

What the host does in an authentication depends on two answers of the tag, and a tag may answer
anything.  This file says what comes of every try, whatever the channel to the tag does.

* A listener on the channel hears a `Pass` for each message, and hearing it changes nothing
  (`UltralightC.overhear_corresponds`).
* A `Try` is what is heard of one try, with what came of it.  It *complies* with the protocol under
  some cipher (`UltralightC.Try.Complies`) if its messages and its result are the right ones for
  its nonce and its answers.
* There is one answer to the host's proof that is accepted.  This rests on the chaining of blocks,
  which is undone by adding the last block that was sent (`BlockCipher.decrypt_xor_eq_iff`).

The main result is `UltralightC.Session.runs_comply`: every try of a session complies, and none of
them depends on the ones before it.
-/
import TagReader.Proofs.Blocks
import TagReader.Proofs.Correspondence

namespace TagReader
namespace UltralightC

variable {σ : Type}

/-! ## The blocks of a handshake -/

section Blocks

variable (c : BlockCipher) (nonce challenge : Block)

/-- The first block of the host's proof, its own nonce. -/
def firstBlock : Block := c.encrypt (nonce ^^^ challenge)

/-- The last block of the host's proof, the tag's nonce with its first byte moved to the end. -/
def lastBlock : Block :=
  c.encrypt (Block.ofBytes (Bytes.rotate (c.decrypt challenge).toBytes) ^^^
    firstBlock c nonce challenge)

/-- The block of the tag's own proof, the host's nonce with its first byte moved to the end. -/
def counterproof : Block :=
  c.encrypt (Block.ofBytes (Bytes.rotate nonce.toBytes) ^^^ lastBlock c nonce challenge)

lemma proof_eq :
    proof c nonce challenge = [firstBlock c nonce challenge, lastBlock c nonce challenge] := by
  rw [lastBlock, ← Block.rotate_eq]
  rfl

lemma getLastD_proof :
    (proof c nonce challenge).getLastD 0#64 = lastBlock c nonce challenge := by
  rw [proof_eq]
  rfl

lemma proofMessage_eq : proofMessage (proof c nonce challenge) =
    0xAF :: ((firstBlock c nonce challenge).toBytes ++ (lastBlock c nonce challenge).toBytes) := by
  rw [proof_eq, proofMessage, List.flatMap_cons, List.flatMap_cons, List.flatMap_nil,
    List.append_nil]
  rfl

end Blocks

/-! ## The host's side -/

/-- The tag's first answer brings a challenge, after which the handshake goes on. -/
def Challenges (answer : Except Fault Bytes) : Prop :=
  ∃ bs, answer = .ok bs ∧ 9 ≤ bs.length ∧ bs.head? = some 0xAF

/-- The host's side from the tag's second answer on. -/
def settle (c : BlockCipher) (nonce challenge : Block) : Except Fault Bytes → Dialogue Bytes Bool
  | .error f => .fail (.authentication ("step 2 failed: " ++ f.message))
  | .ok answer => judge c nonce (lastBlock c nonce challenge) answer

section Host

variable (c : BlockCipher) (nonce challenge : Block) {answer : Bytes}
variable (serve : Bytes → Run σ Bytes) (s : σ)

/-- What the tag's second answer means for the host. -/
structure Verdict (answer : Except Fault Bytes) (result : Except Fault Bool) : Prop where
  /-- One byte rejects the key. -/
  rejected : ∀ bs, answer = .ok bs → bs.length = 1 → result = .ok false
  /-- A block is accepted exactly if it is the tag's own proof. -/
  judged : ∀ bs, answer = .ok bs → 9 ≤ bs.length →
    result = .ok (decide ((bs.drop 1).take 8 = (counterproof c nonce challenge).toBytes))
  /-- Everything else is a failure of one kind. -/
  fails : (∀ bs, answer = .ok bs → bs.length ≠ 1 ∧ bs.length < 9) →
    ∃ text, result = .error (.authentication text)

lemma run_settle_short (h : answer.length = 1) :
    ((settle c nonce challenge (.ok answer)).run serve s).result = .ok false ∧
      ((settle c nonce challenge (.ok answer)).run serve s).state = s := by
  rw [settle, judge, if_pos h, Dialogue.result_run_note, Dialogue.state_run_note]
  exact ⟨rfl, rfl⟩

lemma run_settle_broken (hone : answer.length ≠ 1) (hnine : answer.length < 9) :
    (∃ text, ((settle c nonce challenge (.ok answer)).run serve s).result =
        .error (.authentication text)) ∧
      ((settle c nonce challenge (.ok answer)).run serve s).state = s := by
  rw [settle, judge, if_neg hone, if_pos hnine]
  exact ⟨⟨_, rfl⟩, rfl⟩

/-- Of all blocks that the tag may answer, the host accepts one. -/
lemma run_settle_long (h : 9 ≤ answer.length) :
    ((settle c nonce challenge (.ok answer)).run serve s).result =
        .ok (decide ((answer.drop 1).take 8 = (counterproof c nonce challenge).toBytes)) ∧
      ((settle c nonce challenge (.ok answer)).run serve s).state = s := by
  have hlen : ((answer.drop 1).take 8).length = 8 := by
    rw [List.length_take, List.length_drop]
    omega
  have hsame : (c.decryptChain (lastBlock c nonce challenge) [carried answer] == [nonce.rotate]) =
      decide ((answer.drop 1).take 8 = (counterproof c nonce challenge).toBytes) := by
    rw [beq_eq_decide, decide_eq_decide, BlockCipher.decryptChain, BlockCipher.decryptChain,
      List.singleton_inj, c.decrypt_xor_eq_iff, carried, Block.ofBytes_eq_iff _ hlen,
      Block.rotate_eq]
    rfl
  rw [settle, judge, if_neg (by omega), if_neg (by omega), hsame]
  exact ⟨rfl, rfl⟩

lemma run_settle (r : Except Fault Bytes) :
    Verdict c nonce challenge r ((settle c nonce challenge r).run serve s).result ∧
      ((settle c nonce challenge r).run serve s).state = s := by
  rcases r with f | answer
  · refine ⟨⟨?_, ?_, fun _ => ⟨_, rfl⟩⟩, rfl⟩
    · rintro bs ⟨⟩
    · rintro bs ⟨⟩
  · by_cases hone : answer.length = 1
    · obtain ⟨hresult, hstate⟩ := run_settle_short c nonce challenge serve s hone
      refine ⟨⟨?_, ?_, ?_⟩, hstate⟩
      · rintro bs ⟨⟩ -
        exact hresult
      · rintro bs ⟨⟩ hnine
        omega
      · intro hother
        exact absurd hone (hother answer rfl).1
    · by_cases hnine : answer.length < 9
      · obtain ⟨hresult, hstate⟩ := run_settle_broken c nonce challenge serve s hone hnine
        refine ⟨⟨?_, ?_, fun _ => hresult⟩, hstate⟩
        · rintro bs ⟨⟩ hone'
          exact absurd hone' hone
        · rintro bs ⟨⟩ hlong
          omega
      · obtain ⟨hresult, hstate⟩ :=
          run_settle_long c nonce challenge serve s (Nat.not_lt.1 hnine)
        refine ⟨⟨?_, ?_, ?_⟩, hstate⟩
        · rintro bs ⟨⟩ hone'
          exact absurd hone' hone
        · rintro bs ⟨⟩ -
          exact hresult
        · intro hother
          exact absurd (hother answer rfl).2 hnine

lemma run_handshake_refused (h : ¬Challenges (serve opening s).result) :
    (∃ text, ((handshake c nonce).run serve s).result = .error (.authentication text)) ∧
      ((handshake c nonce).run serve s).state = (serve opening s).state := by
  rw [handshake, Dialogue.result_run_ask, Dialogue.state_run_ask]
  rcases hr : (serve opening s).result with f | answer
  · exact ⟨⟨_, rfl⟩, rfl⟩
  · have hbad : answer.length < 9 ∨ answer.headD 0 ≠ continues := by
      by_contra hgood
      rw [not_or, not_not, Nat.not_lt] at hgood
      refine h ⟨answer, hr, hgood.1, ?_⟩
      rcases answer with _ | ⟨b, bs⟩
      · simp at hgood
      · exact congrArg some hgood.2
    simp only [if_pos hbad]
    exact ⟨⟨_, rfl⟩, rfl⟩

/-- After a challenge the host sends its proof, and the tag's second answer decides. -/
lemma run_handshake_challenged (hr : (serve opening s).result = .ok answer)
    (hlen : 9 ≤ answer.length) (hhead : answer.head? = some 0xAF) :
    let challenge := carried answer
    let o := serve (proofMessage (proof c nonce challenge)) (serve opening s).state
    ((handshake c nonce).run serve s).result =
        ((settle c nonce challenge o.result).run serve o.state).result ∧
      ((handshake c nonce).run serve s).state =
        ((settle c nonce challenge o.result).run serve o.state).state := by
  have hgood : ¬(answer.length < 9 ∨ answer.headD 0 ≠ continues) := by
    rw [List.headD_eq_head?_getD, hhead]
    simp [continues, hlen]
  intro challenge o
  rw [handshake, Dialogue.result_run_ask, Dialogue.state_run_ask, hr]
  simp only [if_neg hgood, getLastD_proof]
  rw [Dialogue.result_run_ask, Dialogue.state_run_ask]
  show _ = ((settle c nonce challenge o.result).run serve o.state).result ∧ _
  rcases o.result with f | answer'
  · exact ⟨rfl, rfl⟩
  · exact ⟨rfl, rfl⟩

end Host

/-! ## Listening on a channel -/

/-- A message to the tag, with what came of it. -/
structure Pass where
  message : Bytes
  answer : Except Fault Bytes

/-- A channel on which somebody listens. -/
structure Overheard (σ : Type) where
  inner : σ
  passes : List Pass := []

/-- Sends a message and lets the listener hear it. -/
def overhear (channel : Bytes → Run σ Bytes) (message : Bytes) : Run (Overheard σ) Bytes := fun t =>
  match channel message t.inner with
  | ⟨r, inner, notes⟩ => ⟨r, ⟨inner, t.passes ++ [⟨message, r⟩]⟩, notes⟩

variable (channel : Bytes → Run σ Bytes)

lemma overhear_corresponds (message : Bytes) :
    Run.Corresponds (fun t s => t.inner = s) (overhear channel message) (channel message) := by
  rintro t _ rfl
  exact ⟨rfl, rfl⟩

lemma run_corresponds {ι α τ : Type} {R : σ → τ → Prop} {serve : ι → Run σ Bytes}
    {serve' : ι → Run τ Bytes} (h : ∀ q, Run.Corresponds R (serve q) (serve' q))
    (d : Dialogue ι α) : Run.Corresponds R (d.run serve) (d.run serve') := by
  induction d with
  | done a => exact Run.Corresponds.pure a
  | fail f => exact Run.Corresponds.fail f
  | note n _ ih => exact (Run.Corresponds.note _ _ _ _).bind fun _ => ih
  | ask q _ ih => exact (h q).attempt.bind fun r => ih r

lemma passes_overhear (message : Bytes) (t : Overheard σ) :
    (overhear channel message t).state.passes =
      t.passes ++ [⟨message, (overhear channel message t).result⟩] := rfl

/-! ## Tries -/

/-- What is heard of one try, with what came of it. -/
structure Try where
  nonce : Block
  /-- The first message. -/
  first : Pass
  /-- The second message, if there was one. -/
  second : Option Pass
  result : Except Fault Bool
  /-- The state of the session afterwards. -/
  progress : Progress

namespace Try

/-- All that is heard of a try. -/
def passes (y : Try) : List Pass := y.first :: y.second.toList

/-- The block that the tag's first answer carries. -/
def challenge (y : Try) : Block :=
  match y.first.answer with
  | .ok answer => Block.ofBytes ((answer.drop 1).take 8)
  | .error _ => 0#64

/-- A try has sent the right messages and has come to the right result. -/
structure Complies (c : BlockCipher) (y : Try) : Prop where
  /-- The first message asks the tag to begin. -/
  opens : y.first.message = [0x1A, 0x00]
  /-- There is a second message exactly if the tag has sent a challenge. -/
  second_isSome : y.second.isSome = true ↔ Challenges y.first.answer
  /-- The second message is the host's proof. -/
  proves : ∀ p ∈ y.second, p.message =
    0xAF :: ((firstBlock c y.nonce y.challenge).toBytes ++
      (lastBlock c y.nonce y.challenge).toBytes)
  /-- What the tag answers to that decides. -/
  verdict : ∀ p ∈ y.second, Verdict c y.nonce y.challenge p.answer y.result
  /-- Without a second message the try is a failure. -/
  unopened : y.second = none → ∃ text, y.result = .error (.authentication text)
  /-- The session is authenticated exactly after a success. -/
  authenticated_iff : y.progress = .authenticated ↔ y.result = .ok true
  /-- Otherwise it has failed. -/
  failed : y.result ≠ .ok true → y.progress = .failed

end Try

lemma after_eq_authenticated_iff {r : Except Fault Bool} :
    Progress.after r = .authenticated ↔ r = .ok true := by
  rcases r with f | _ | _ <;> simp [Progress.after]

lemma after_eq_failed {r : Except Fault Bool} (h : r ≠ .ok true) : Progress.after r = .failed := by
  rcases r with f | _ | _
  · rfl
  · rfl
  · exact absurd rfl h

/-- Whatever the channel does, a handshake is a try that complies. -/
lemma handshake_complies (c : BlockCipher) (nonce : Block) (t : Overheard σ) :
    let o := (handshake c nonce).run (overhear channel) t
    ∃ y : Try, y.Complies c ∧ y.nonce = nonce ∧ y.result = o.result ∧
      y.progress = .after o.result ∧ o.state.passes = t.passes ++ y.passes := by
  intro o
  let opened := overhear channel opening t
  have hopened : opened.state.passes = t.passes ++ [⟨opening, opened.result⟩] :=
    passes_overhear channel opening t
  by_cases hgo : Challenges opened.result
  · -- The tag has sent a challenge, and what it answers to the proof decides.
    obtain ⟨answer, hanswer, hlen, hhead⟩ := hgo
    let message := proofMessage (proof c nonce (carried answer))
    let proved := overhear channel message opened.state
    obtain ⟨hresult, hstate⟩ :=
      run_handshake_challenged c nonce (overhear channel) t hanswer hlen hhead
    obtain ⟨hverdict, hsettled⟩ :=
      run_settle c nonce (carried answer) (overhear channel) proved.state proved.result
    let y : Try := ⟨nonce, ⟨opening, opened.result⟩, some ⟨message, proved.result⟩, o.result,
      .after o.result⟩
    have hchallenge : y.challenge = carried answer := by
      simp only [Try.challenge, y, hanswer]
      rfl
    refine ⟨y, ⟨rfl, ?_, ?_, ?_, ?_, after_eq_authenticated_iff, after_eq_failed⟩, rfl, rfl, rfl,
      ?_⟩
    · exact iff_of_true rfl ⟨answer, hanswer, hlen, hhead⟩
    · rintro p ⟨⟩
      rw [hchallenge]
      exact proofMessage_eq c nonce (carried answer)
    · rintro p ⟨⟩
      rw [hchallenge, show y.result = _ from hresult]
      exact hverdict
    · rintro ⟨⟩
    · have hpassed : proved.state.passes = opened.state.passes ++ [⟨message, proved.result⟩] :=
        passes_overhear channel message opened.state
      rw [show o.state = _ from hstate, hsettled, hpassed, hopened, List.append_assoc]
      rfl
  · obtain ⟨hresult, hstate⟩ := run_handshake_refused c nonce (overhear channel) t hgo
    let y : Try := ⟨nonce, ⟨opening, opened.result⟩, none, o.result, .after o.result⟩
    refine ⟨y, ⟨rfl, ?_, ?_, ?_, fun _ => hresult, after_eq_authenticated_iff, after_eq_failed⟩,
      rfl, rfl, rfl, ?_⟩
    · exact iff_of_false (by simp [y]) hgo
    · rintro p ⟨⟩
    · rintro p ⟨⟩
    · rw [show o.state = _ from hstate]
      exact hopened

/-! ## Sessions -/

namespace Session

variable (s : Session) (nonce : Block) (nonces : List Block)

/-- The session before any try. -/
def fresh (s : Session) : Session := ⟨s.key, .idle⟩

lemma runs_cons (t : σ) :
    let first := s.run channel nonce t
    let later := runs channel nonces first.2 first.1.state
    (runs channel (nonce :: nonces) s t).1 = (first.1.result, first.2) :: later.1 ∧
      (runs channel (nonce :: nonces) s t).2.1 = later.2.1 :=
  ⟨rfl, rfl⟩

/-- What a session remembers of its tries plays no part in the next ones. -/
lemma runs_fresh (t : σ) : runs channel nonces s.fresh t = runs channel nonces s t := by
  cases nonces with
  | nil => rfl
  | cons nonce nonces => rfl

lemma runs_append (later : List Block) (t : σ) :
    (runs channel (nonces ++ later) s t).1 =
      (runs channel nonces s t).1 ++
        (runs channel later s.fresh (runs channel nonces s t).2.1).1 := by
  induction nonces generalizing s t with
  | nil => rw [runs_fresh]; rfl
  | cons nonce nonces ih =>
    obtain ⟨hall, -⟩ := runs_cons channel s nonce (nonces ++ later) t
    obtain ⟨hfirst, hend⟩ := runs_cons channel s nonce nonces t
    have hkey : (s.run channel nonce t).2.fresh = s.fresh := rfl
    rw [List.cons_append, hall, hfirst, hend, ih, hkey, List.cons_append]

/-- A listener changes nothing. -/
lemma runs_overhear (t : Overheard σ) :
    (runs (overhear channel) nonces s t).1 = (runs channel nonces s t.inner).1 ∧
      (runs (overhear channel) nonces s t).2.1.inner = (runs channel nonces s t.inner).2.1 := by
  induction nonces generalizing s t with
  | nil => exact ⟨rfl, rfl⟩
  | cons nonce nonces ih =>
    obtain ⟨hresult, hstate⟩ :=
      run_corresponds (overhear_corresponds channel) (s.attempt nonce) (rfl : t.inner = t.inner)
    obtain ⟨hall, hend⟩ := runs_cons (overhear channel) s nonce nonces t
    obtain ⟨hall', hend'⟩ := runs_cons channel s nonce nonces t.inner
    have hfirst : (s.run (overhear channel) nonce t).1.result =
        (s.run channel nonce t.inner).1.result := hresult
    have hinner : (s.run (overhear channel) nonce t).1.state.inner =
        (s.run channel nonce t.inner).1.state := hstate
    have hnext : (s.run (overhear channel) nonce t).2 = (s.run channel nonce t.inner).2 :=
      congrArg s.conclude hresult
    obtain ⟨hlater, hlast⟩ :=
      ih (s.run (overhear channel) nonce t).2 (s.run (overhear channel) nonce t).1.state
    rw [hall, hend, hall', hend', hlater, hlast, hfirst, hinner, hnext]
    exact ⟨rfl, rfl⟩

lemma exists_tries (t : Overheard σ) : ∃ tries : List Try,
    tries.map Try.nonce = nonces ∧
      (runs (overhear channel) nonces s t).2.1.passes = t.passes ++ tries.flatMap Try.passes ∧
      (runs (overhear channel) nonces s t).1 =
        tries.map (fun y => (y.result, ⟨s.key, y.progress⟩)) ∧
      ∀ y ∈ tries, y.Complies (Des.twoKey s.key) := by
  induction nonces generalizing s t with
  | nil => exact ⟨[], rfl, (List.append_nil _).symm, rfl, by simp⟩
  | cons nonce nonces ih =>
    obtain ⟨y, hy, hnonce, hresult, hprogress, hpasses⟩ :=
      handshake_complies channel (Des.twoKey s.key) nonce t
    obtain ⟨tries, hnonces, hlater, hresults, hall⟩ :=
      ih (s.run (overhear channel) nonce t).2 (s.run (overhear channel) nonce t).1.state
    obtain ⟨hcons, hend⟩ := runs_cons (overhear channel) s nonce nonces t
    have hafter : (s.run (overhear channel) nonce t).2 = ⟨s.key, y.progress⟩ := by
      rw [hprogress]
      rfl
    have hheard : (s.run (overhear channel) nonce t).1.state.passes = t.passes ++ y.passes :=
      hpasses
    refine ⟨y :: tries, ?_, ?_, ?_, List.forall_mem_cons.2 ⟨hy, hall⟩⟩
    · rw [List.map_cons, hnonce, hnonces]
    · rw [hend, hlater, hheard, List.flatMap_cons, List.append_assoc]
    · rw [hcons, hresults, hafter, List.map_cons, hresult]
      rfl

/-- **The complete outcome of a session.**  Whatever the channel to the tag does, the tries of a
session under some key are tries that comply with the protocol under the cipher of that key: a
listener, who changes nothing, hears just their messages.  What comes of later tries is the same as
in a session that begins where the earlier ones have left the channel. -/
theorem runs_comply (channel : Bytes → Run σ Bytes) (s : Session) (nonces : List Block) (t : σ) :
    let o := runs channel nonces s t
    let w := runs (overhear channel) nonces s { inner := t }
    (w.1 = o.1 ∧ w.2.1.inner = o.2.1) ∧
      (∃ tries : List Try,
        tries.map Try.nonce = nonces ∧ w.2.1.passes = tries.flatMap Try.passes ∧
          o.1 = tries.map (fun y => (y.result, ⟨s.key, y.progress⟩)) ∧
          ∀ y ∈ tries, y.Complies (Des.twoKey s.key)) ∧
      ∀ earlier later, nonces = earlier ++ later →
        o.1 = (runs channel earlier s t).1 ++
          (runs channel later s.fresh (runs channel earlier s t).2.1).1 := by
  intro o w
  obtain ⟨hsame, hinner⟩ := s.runs_overhear channel nonces { inner := t }
  obtain ⟨tries, hnonces, hpasses, hresults, hall⟩ := s.exists_tries channel nonces { inner := t }
  refine ⟨⟨hsame, hinner⟩, ⟨tries, hnonces, hpasses, hsame.symm.trans hresults, hall⟩, ?_⟩
  rintro earlier later rfl
  exact s.runs_append channel earlier later t

end Session

end UltralightC
end TagReader
