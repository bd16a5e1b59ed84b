/-
# Presenting a password

A password is presented to an ICODE tag by two exchanges: the tag gives a random number first, and
the password is sent added to it.  A tag locks itself after a few wrong passwords, so this file says
that the right one is sent, or none at all.

* `Icode.Presentable`: the arguments with which a password can be presented.  With others nothing is
  asked (`Icode.setPassword_of_not_presentable`).
* `AsksOnce.conduct_bind`: where a dialogue asks one question and goes on, the answer decides
  whether anything follows.
* `Icode.conduct_setPassword`: the exchanges by which a password is presented, one or two, for each
  kind of answer to the first one.
* `Bytes.xor_xor_cancel`: whoever knows the random number finds the password.

The main result is `Icode.setPassword_presents`.
-/
import TagReader.Proofs.SystemReports

namespace TagReader

variable {σ α β : Type}

/-! ## Masks -/

/-- Adding the same bytes twice changes nothing. -/
lemma Bytes.xor_xor_cancel {a b : Bytes} (h : a.length ≤ b.length) :
    Bytes.xor (Bytes.xor a b) b = a := by
  induction a generalizing b with
  | nil => rfl
  | cons x a ih =>
    cases b with
    | nil => cases h
    | cons y b =>
      show (x ^^^ y ^^^ y) :: Bytes.xor (Bytes.xor a b) b = x :: a
      rw [UInt8.xor_assoc, UInt8.xor_self, UInt8.xor_zero, ih (Nat.le_of_succ_le_succ h)]

/-! ## One question and what follows it -/

namespace AsksOnce

variable {q : Call} {r : Bytes → Except Fault α} {d : Talk α}

/-- What follows the question is made of what comes of it; if that is a fault, nothing follows. -/
lemma conduct_bind (h : AsksOnce q r d) (f : α → Talk β) (e : Engine σ) (s : σ) :
    (e.conduct (d >>= f) s).result =
        (match (e.serve q s).result >>= r with
          | .ok a => (e.conduct (f a) (e.serve q s).state).result
          | .error g => .error g) ∧
      e.exchanges (d >>= f) s = ⟨q, (e.serve q s).result⟩ ::
        match (e.serve q s).result >>= r with
          | .ok a => e.exchanges (f a) (e.serve q s).state
          | .error _ => [] := by
  obtain ⟨hresult, hstate, hexchanges⟩ := h.conduct e s
  rw [(e.conduct_bind d f s).1, Run.result_bind, e.exchanges_bind, hresult, hstate, hexchanges]
  cases (e.serve q s).result >>= r <;> exact ⟨rfl, rfl⟩

lemma order (c : Command) : AsksOnce ⟨c, none⟩ (fun _ => .ok ()) (Talk.order c) :=
  .ask (fun _ => rfl) fun _ => rfl

end AsksOnce

/-- An operation of which only the success matters goes by the exchanges of its dialogue. -/
lemma Operation.perform_finish {op : Operation} {d : Talk Unit} {b : Iso14443b.Session}
    (htalk : op.talk b = d.finish >>= fun a => pure (a, b)) (e : Engine σ) (s : σ) :
    (op.perform e b s).1.result = (e.conduct d s).result.map (fun _ => .done) ∧
      (op.perform e b s).1.state = (e.conduct d s).state ∧
      e.exchanges (op.talk b) s = e.exchanges d s := by
  have hfinish : d.finish = d >>= fun _ => pure .done := rfl
  obtain ⟨hresult, hstate⟩ := op.perform_spec e b s
  obtain ⟨hmap, hsame⟩ := e.conduct_map d.finish (fun a => (a, b)) s
  rw [hresult, hstate, htalk, hmap, hsame, e.exchanges_map, hfinish,
    (e.conduct_map d (fun _ => Finding.done) s).1, (e.conduct_map d (fun _ => Finding.done) s).2,
    e.exchanges_map]
  refine ⟨?_, rfl, rfl⟩
  cases (e.conduct d s).result <;> rfl

namespace Icode

/-! ## Commands -/

/-- The request mode, which says whether one tag is meant. -/
def mode (uid : Option Uid) : UInt8 := if uid.isSome then 0xA0 else 0x80

/-- The bytes of the identifier, if there is one. -/
def target (uid : Option Uid) : Bytes := uid.elim [] Uid.bytes

/-- The command that asks for a random number. -/
def asking (uid : Option Uid) : Command := ⟨0xB1, mode uid, [0xB2, 0x04] ++ target uid⟩

/-- The command that presents a password. -/
def presenting (uid : Option Uid) (id : PasswordId) (masked : Bytes) : Command :=
  ⟨0xB1, mode uid, [0xB3, 0x04] ++ target uid ++ [id.byte] ++ masked⟩

section Commands

variable {uid : Option Uid} {tag : Option Iso15693.Address}

/-- Both commands go to the tag that the identifier means. -/
lemma command_eq (h : uid.map Uid.bytes = tag.map Octets.bytes) (code : UInt8) :
    command code tag = ⟨0xB1, mode uid, [code, 0x04] ++ target uid⟩ := by
  cases tag with
  | none =>
    obtain rfl := Option.map_eq_none_iff.1 h
    rfl
  | some a =>
    obtain ⟨u, rfl, hu⟩ := Option.map_eq_some_iff.1 h
    show _ = (⟨0xB1, 0xA0, [code, 0x04] ++ u.bytes⟩ : Command)
    rw [hu]
    rfl

end Commands

/-! ## Arguments -/

/-- The arguments with which a password can be presented: it has four bytes, an identifier has
eight, and without an identifier it is the privacy password. -/
structure Presentable (uid : Option Uid) (id : PasswordId) (pwd : Bytes) : Prop where
  four : pwd.length = 4
  eight : ∀ u, uid = some u → u.bytes.length = 8
  privacy : uid = none → id = .privacy

lemma addressing_some (u : Uid) : addressing (some u) =
    (Dialogue.ofExcept (Iso15693.address u) >>= fun a => pure (some a)) := rfl

section Arguments

variable {uid : Option Uid} {id : PasswordId} {pwd : Bytes}

lemma setPassword_bytes (password : Octets 4) : setPassword uid id password.bytes =
    if uid.isNone ∧ id ≠ .privacy then
      .fail (.validation (id.label ++ " password needs an addressed tag"))
    else addressing uid >>= fun tag => randomOctets tag >>= fun number =>
      Talk.order (Request.present tag id (masked password number)).command := by
  rw [setPassword, Icode.password, Octets.ofBytes?_bytes]
  rfl

/-- Arguments with which no password can be presented are refused. -/
lemma setPassword_of_not_presentable (h : ¬Presentable uid id pwd) :
    ∃ text, setPassword uid id pwd = .fail (.validation text) := by
  by_cases hfour : pwd.length = 4
  · obtain ⟨password, rfl⟩ : ∃ p : Octets 4, p.bytes = pwd := ⟨⟨pwd, hfour⟩, rfl⟩
    rw [setPassword_bytes]
    by_cases hprivacy : uid.isNone ∧ id ≠ .privacy
    · rw [if_pos hprivacy]
      exact ⟨_, rfl⟩
    · rw [if_neg hprivacy]
      cases uid with
      | none =>
        refine absurd ⟨hfour, nofun, fun _ => ?_⟩ h
        by_contra hid
        exact hprivacy ⟨rfl, hid⟩
      | some u =>
        have height : ¬u.bytes.length = 8 := by
          intro height
          refine h ⟨hfour, ?_, nofun⟩
          rintro u' ⟨⟩
          exact height
        have haddress : Octets.ofBytes? 8 u.bytes = none := dif_neg height
        rw [addressing_some, Iso15693.address, haddress]
        exact ⟨_, rfl⟩
  · have hpassword : Octets.ofBytes? 4 pwd = none := dif_neg hfour
    rw [setPassword, Icode.password, hpassword]
    exact ⟨_, rfl⟩

/-- With the right arguments there are two questions to the same tag, and the second one carries the
password, added to what came of the first one. -/
lemma setPassword_of_presentable (h : Presentable uid id pwd) :
    ∃ d, AsksOnce ⟨asking uid, none⟩ (fun p => Payload.octets 2 p 0) d ∧
      setPassword uid id pwd = d >>= fun number =>
        Talk.order (presenting uid id (Bytes.xor pwd (number.bytes ++ number.bytes))) := by
  obtain ⟨password, rfl⟩ : ∃ p : Octets 4, p.bytes = pwd := ⟨⟨pwd, h.four⟩, rfl⟩
  have hprivacy : ¬(uid.isNone ∧ id ≠ .privacy) := by
    rintro ⟨hnone, hid⟩
    exact hid (h.privacy (Option.isNone_iff_eq_none.1 hnone))
  obtain ⟨tag, htag, haddress⟩ : ∃ tag : Option Iso15693.Address,
      uid.map Uid.bytes = tag.map Octets.bytes ∧ addressing uid = .done tag := by
    cases uid with
    | none => exact ⟨none, rfl, rfl⟩
    | some u =>
      obtain ⟨tag, rfl⟩ : ∃ tag : Octets 8, ⟨tag.bytes⟩ = u := ⟨⟨u.bytes, h.eight u rfl⟩, rfl⟩
      refine ⟨some tag, rfl, ?_⟩
      rw [addressing_some, Iso15693.address_bytes]
      rfl
  have hasking : (Request.random tag).command = asking uid := command_eq htag 0xB2
  have hpresenting (masked : Octets 4) :
      (Request.present tag id masked).command = presenting uid id masked.bytes := by
    rw [Request.command, command_eq htag]
    rfl
  refine ⟨randomOctets tag, hasking ▸ .require _ _, ?_⟩
  rw [setPassword_bytes, if_neg hprivacy, haddress]
  show (randomOctets tag >>= fun number =>
    Talk.order (Request.present tag id (masked password number)).command) = _
  simp only [hpresenting]
  rfl

end Arguments

/-! ## What is sent -/

section Room

variable {uid : Option Uid} {id : PasswordId} {pwd : Bytes} {t : Trailer}

lemma length_target_le (h : Presentable uid id pwd) : (target uid).length ≤ 8 := by
  cases uid with
  | none => exact Nat.zero_le 8
  | some u => exact Nat.le_of_eq (h.eight u rfl)

lemma fits_asking (h : Presentable uid id pwd) (hroom : t.len ≤ 237) :
    Frame.Fits t (asking uid).body := by
  have htarget := length_target_le h
  simp only [Frame.Fits, Frame.maxLength, Command.length_body, asking, List.length_append,
    List.length_cons, List.length_nil]
  omega

/-- The frame with the password is the longer one; this is where the trailer needs its limit. -/
lemma fits_presenting (h : Presentable uid id pwd) (hroom : t.len ≤ 237) {masked : Bytes}
    (hmasked : masked.length = 4) : Frame.Fits t (presenting uid id masked).body := by
  have htarget := length_target_le h
  simp only [Frame.Fits, Frame.maxLength, Command.length_body, presenting, List.length_append,
    List.length_cons, List.length_nil]
  omega

end Room

/-- What stands in the first two bytes is the random number. -/
lemma exists_octets_cons (r₀ r₁ : UInt8) (rest : Bytes) :
    ∃ o : Octets 2, Payload.octets 2 (r₀ :: r₁ :: rest) 0 = .ok o ∧ o.bytes = [r₀, r₁] := by
  have hlong : 0 + 2 ≤ (r₀ :: r₁ :: rest).length := Nat.le_add_left 2 rest.length
  exact ⟨_, dif_pos hlong, rfl⟩

/-- The first exchange asks for the random number, and what it yields decides whether there is
another one. -/
lemma conduct_setPassword {uid : Option Uid} {id : PasswordId} {pwd : Bytes}
    (h : Presentable uid id pwd) (e : Engine σ) (s : σ) :
    let first := e.exchange (asking uid) s
    let outcome := (e.conduct (setPassword uid id pwd) s).result
    ∃ later, e.exchanges (setPassword uid id pwd) s =
        ⟨⟨asking uid, none⟩, first.result⟩ :: later ∧
      (∀ f, first.result = .error f → later = [] ∧ outcome = .error f) ∧
      (∀ p, first.result = .ok p → p.length < 2 →
        later = [] ∧ outcome = .error (.invalidLength 2 p.length)) ∧
      ∀ r₀ r₁ rest, first.result = .ok (r₀ :: r₁ :: rest) →
        let c := presenting uid id (Bytes.xor pwd [r₀, r₁, r₀, r₁])
        later = [⟨⟨c, none⟩, (e.exchange c first.state).result⟩] ∧
          outcome = (e.exchange c first.state).result.map fun _ => () := by
  intro first outcome
  obtain ⟨d, hasks, hset⟩ := setPassword_of_presentable h
  obtain ⟨hresult, hexchanges⟩ := hasks.conduct_bind (fun number =>
    Talk.order (presenting uid id (Bytes.xor pwd (number.bytes ++ number.bytes)))) e s
  have hserve : (e.serve ⟨asking uid, none⟩ s).result = first.result := rfl
  have houtcome : outcome = _ := hset ▸ hresult
  rw [hserve] at houtcome hexchanges
  refine ⟨_, hset ▸ hexchanges, ?_, ?_, ?_⟩
  · intro f hf
    rw [hf] at houtcome ⊢
    exact ⟨rfl, houtcome⟩
  · intro p hp hshort
    have hmissed : (Except.ok p >>= fun p => Payload.octets 2 p 0) =
        .error (.invalidLength 2 p.length) := dif_neg (by omega)
    rw [hp, hmissed] at houtcome ⊢
    exact ⟨rfl, houtcome⟩
  · intro r₀ r₁ rest hp c
    obtain ⟨number, hnumber, hbytes⟩ := exists_octets_cons r₀ r₁ rest
    have hread : (Except.ok (r₀ :: r₁ :: rest) >>= fun p => Payload.octets 2 p 0) = .ok number :=
      hnumber
    have hc : presenting uid id (Bytes.xor pwd (number.bytes ++ number.bytes)) = c := by
      rw [hbytes]
      rfl
    obtain ⟨hdone, -, honce⟩ := (AsksOnce.order c).conduct e first.state
    rw [hp, hread] at houtcome ⊢
    dsimp only at houtcome ⊢
    rw [hc] at houtcome ⊢
    refine ⟨honce, houtcome.trans (hdone.trans ?_)⟩
    show (e.exchange c first.state).result >>= _ = _
    cases (e.exchange c first.state).result <;> rfl

/-- **The right password is presented, or nothing.**  Over any link, and under any trailer that
leaves room for the longer one of the two frames: with arguments that are not presentable the
operation is refused, and the link is not used.  Otherwise a random number is asked for, from the
same tag and in the same mode in which a password is presented.  If that fails, or if the payload
has fewer than two bytes, then nothing else is sent, and that is the result.  If not, then one more
command is sent; its last four bytes make up the password when the random number is added to them,
in turn, and what comes of its exchange is the result. -/
theorem setPassword_presents (e : Engine σ) (hroom : e.trailer.len ≤ 237) (uid : Option Uid)
    (id : PasswordId) (pwd : Bytes) (b : Iso14443b.Session) (s : σ) :
    let op := Operation.icode (.setPassword uid id pwd)
    let run := op.perform e.recorded b { inner := s }
    let first := e.exchange (asking uid) s
    (op.perform e b s).1.result = run.1.result ∧
      (¬Presentable uid id pwd → Refused run.1.result ∧ run.1.state = { inner := s }) ∧
      (Presentable uid id pwd →
        ∃ question, Frame.encode e.trailer (asking uid).body = .ok question ∧
          ∃ n ≤ e.settings.retries,
            let asked := List.replicate (n + 1) question
            (∀ f, first.result = .error f →
              run.1.state.frames = asked ∧ run.1.result = .error f) ∧
            (∀ p, first.result = .ok p → p.length < 2 →
              run.1.state.frames = asked ∧ run.1.result = .error (.invalidLength 2 p.length)) ∧
            ∀ r₀ r₁ rest, first.result = .ok (r₀ :: r₁ :: rest) →
              ∃ masked frame, masked.length = 4 ∧ Bytes.xor masked [r₀, r₁, r₀, r₁] = pwd ∧
                Frame.encode e.trailer (presenting uid id masked).body = .ok frame ∧
                (∃ m ≤ e.settings.retries,
                  run.1.state.frames = asked ++ List.replicate (m + 1) frame) ∧
                run.1.result =
                  (e.exchange (presenting uid id masked) first.state).result.map
                    fun _ => .done) := by
  intro op run first
  have hst : Recorded.Shows ({ inner := s } : Recorded σ) s := ⟨rfl, rfl, rfl⟩
  have hsame : run.1.result = (op.perform e b s).1.result :=
    (e.recorded_corresponds.perform op b hst).1
  have htalk : op.talk b = (setPassword uid id pwd).finish >>= fun a => pure (a, b) := rfl
  refine ⟨hsame.symm, ?_, ?_⟩
  · intro hnot
    obtain ⟨text, hfail⟩ := setPassword_of_not_presentable hnot
    obtain ⟨hresult, hstate, -⟩ := Operation.perform_finish htalk e.recorded { inner := s }
    rw [hfail] at hresult hstate
    exact ⟨⟨text, hresult⟩, hstate⟩
  · intro hall
    obtain ⟨hresult, -, hexchanges⟩ := Operation.perform_finish htalk e s
    obtain ⟨xs, hgoes, hfault, hmissed, hpresented⟩ := conduct_setPassword hall e s
    have hquestion := Frame.encode_of_fits (fits_asking hall hroom)
    have hsent := e.transmits_perform op b s
    rw [hexchanges, hgoes] at hsent
    rw [← hsame] at hresult
    obtain ⟨n, hn, later, hframes, hlater⟩ := hsent.cons_of_encode hquestion
    refine ⟨_, hquestion, n, hn, ?_, ?_, ?_⟩
    · intro f hf
      obtain ⟨rfl, houtcome⟩ := hfault f hf
      rw [hlater.eq_nil, List.append_nil] at hframes
      rw [houtcome] at hresult
      exact ⟨hframes, hresult⟩
    · intro p hp hshort
      obtain ⟨rfl, houtcome⟩ := hmissed p hp hshort
      rw [hlater.eq_nil, List.append_nil] at hframes
      rw [houtcome] at hresult
      exact ⟨hframes, hresult⟩
    · intro r₀ r₁ rest hp
      obtain ⟨rfl, houtcome⟩ := hpresented r₀ r₁ rest hp
      have hmasked : (Bytes.xor pwd [r₀, r₁, r₀, r₁]).length = 4 := by
        rw [Bytes.xor, List.length_zipWith, hall.four]
        rfl
      have hframe := Frame.encode_of_fits (fits_presenting hall hroom hmasked)
      obtain ⟨m, hm, rfl⟩ := hlater.of_encode hframe
      refine ⟨_, _, hmasked, Bytes.xor_xor_cancel (Nat.le_of_eq hall.four), hframe,
        ⟨m, hm, hframes⟩, ?_⟩
      rw [hresult, houtcome]
      cases (e.exchange _ first.state).result <;> rfl

/-- The privacy password is presented to whatever tag is there. -/
theorem setPassword_presents_privacy :
    let e := Engine.granting [0xF0, 0x0F]
    let op := Operation.icode (.setPassword none .privacy [0x11, 0x22, 0x33, 0x44])
    let run := op.perform e.recorded {} { inner := () }
    e.trailer.len ≤ 237 ∧
      ∃ question frame n m,
        Frame.encode e.trailer [0xB1, 0x80, 0xB2, 0x04] = .ok question ∧
          Frame.encode e.trailer [0xB1, 0x80, 0xB3, 0x04, 0x04, 0xE1, 0x2D, 0xC3, 0x4B] =
            .ok frame ∧
          run.1.state.frames =
            List.replicate (n + 1) question ++ List.replicate (m + 1) frame ∧
          run.1.result = .ok .done := by
  intro e op run
  have hroom : e.trailer.len ≤ 237 := by decide
  have hgranted {c : Command} (hfits : Frame.Fits e.trailer c.body) (u : Unit) :
      (e.exchange c u).result = .ok [0xF0, 0x0F] :=
    Engine.serve_granting (q := ⟨c, none⟩) (by decide) hfits
  obtain ⟨-, -, hpresents⟩ := setPassword_presents e hroom none .privacy
    [0x11, 0x22, 0x33, 0x44] {} ()
  have hall : Presentable none .privacy [0x11, 0x22, 0x33, 0x44] := ⟨rfl, nofun, fun _ => rfl⟩
  obtain ⟨question, hquestion, n, -, -, -, hnumber⟩ := hpresents hall
  have hfirst := hgranted (c := asking none) (by decide) ()
  obtain ⟨masked, frame, hlen, hmasked, hframe, ⟨m, -, hframes⟩, hresult⟩ :=
    hnumber 0xF0 0x0F [] hfirst
  have hback : Bytes.xor (Bytes.xor masked [0xF0, 0x0F, 0xF0, 0x0F]) [0xF0, 0x0F, 0xF0, 0x0F] =
      masked := Bytes.xor_xor_cancel (Nat.le_of_eq hlen)
  rw [hmasked] at hback
  obtain rfl : [0xE1, 0x2D, 0xC3, 0x4B] = masked := hback
  refine ⟨hroom, question, frame, n, m, hquestion, hframe, hframes, hresult.trans ?_⟩
  rw [hgranted (by decide)]
  rfl

end Icode

end TagReader
