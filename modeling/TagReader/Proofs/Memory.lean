/-
# What a session with tags of ST remembers

A session remembers a chip number and a size of blocks, and both decide what later operations send.
This file follows them through any number of operations, of any command family and over any link.

* An `Episode` is what is seen of one operation: the session around it, its exchanges with the
  frames that they send, and its result.  `Engine.chronicle` lists the episodes of a run.
* `Remembers` is the invariant of a run.  The size is that of the write that went through last, and
  the chip is the one that the last successful select has reported.
* `Episode.Lawful` says what an operation makes of the session, and the session of the operation.

A step keeps the invariant because an episode that is no successful write leaves the size alone
(`Episode.TracksSize.kept`), while a write that goes through leaves its own size behind, be it the
one that was remembered or the other one.  The main result is `Engine.chronicle_remembers`.
-/
import TagReader.Proofs.Exchanges
import TagReader.Proofs.Framing
import TagReader.Proofs.Refusal

namespace TagReader

variable {σ : Type}

/-! ## Episodes -/

/-- What is seen of an operation. -/
structure Episode where
  operation : Operation
  /-- The session before the operation. -/
  before : Iso14443b.Session
  exchanges : List Exchange
  /-- The frames that the link is given to send. -/
  frames : List Bytes
  result : Except Fault Finding
  /-- The session after the operation. -/
  after : Iso14443b.Session

namespace Engine

variable (e : Engine σ)

/-- The episode of an operation. -/
def episode (op : Operation) (b : Iso14443b.Session) (s : σ) : Episode where
  operation := op
  before := b
  exchanges := e.exchanges (op.talk b) s
  frames := (op.perform e.recorded b { inner := s }).1.state.frames
  result := (op.perform e b s).1.result
  after := (op.perform e b s).2

/-- Performs one operation after the other, with one session. -/
def chronicle : List Operation → Iso14443b.Session → σ → List Episode
  | [], _, _ => []
  | op :: ops, b, s =>
    e.episode op b s :: chronicle ops (op.perform e b s).2 (op.perform e b s).1.state

/-- The session after some operations. -/
def sessionAfter : List Operation → Iso14443b.Session → σ → Iso14443b.Session
  | [], b, _ => b
  | op :: ops, b, s => sessionAfter ops (op.perform e b s).2 (op.perform e b s).1.state

end Engine

namespace Episode

/-- The size of blocks with which a write has gone through, as the accepted body gives it. -/
def accepted? (x : Episode) : Option UInt8 :=
  match x.operation, x.result with
  | .iso14443b (.write _ _ _), .ok _ =>
    (x.exchanges.find? fun y => y.answer.isOk).bind fun y => y.body[5]?
  | _, _ => none

/-- The first byte of the payload by which a select has found a tag. -/
def selected? (x : Episode) : Option UInt8 :=
  match x.operation, x.result with
  | .iso14443b .select, .ok .nothing => none
  | .iso14443b .select, .ok _ =>
    (x.exchanges.head?.bind fun y => y.answer.toOption).bind List.head?
  | _, _ => none

end Episode

/-- What a session remembers of the episodes before. -/
structure Remembers (past : List Episode) (b : Iso14443b.Session) : Prop where
  /-- The write that went through last did so with blocks of four bytes. -/
  srix_iff : b.isSrix = true ↔ (past.filterMap Episode.accepted?).getLast? = some 4
  /-- The chip is the one that was selected last. -/
  chip_eq : b.chip = (past.filterMap Episode.selected?).getLast?

/-! ## What an operation does -/

/-- The body of a write carries its arguments and `n` blocks of the data, which are cut, or go on
with zeros. -/
def CarriesBlocks (first n size : UInt8) (data body : Bytes) : Prop :=
  ∃ carried : Bytes, body = 0xC1 :: 0x02 :: 0x89 :: first :: n :: size :: carried ∧
    carried.length = n.toNat * size.toNat ∧
      ∀ i < carried.length, carried[i]? = some (data.getD i 0)

namespace Iso14443b.Session

/-- The size that a write tries first, in bytes. -/
def remembered (b : Session) : UInt8 := if b.isSrix then 4 else 2

/-- The size that a write tries after a failure that the reader reports. -/
def alternative (b : Session) : UInt8 := if b.isSrix then 2 else 4

end Iso14443b.Session

/-- The exchanges of a write, its result, and the session after it. -/
inductive WriteCourse (b : Iso14443b.Session) (first n : UInt8) (data : Bytes) :
    List Exchange → Except Fault Finding → Iso14443b.Session → Prop where
  /-- The size that is remembered decides. -/
  | once {y : Exchange} (carries : CarriesBlocks first n b.remembered data y.body)
    (unreported : ∀ status, y.answer ≠ .error (.readerStatus status)) :
    WriteCourse b first n data [y] (y.answer.map fun _ => .done) b
  /-- The reader reports a failure, and the other size decides. -/
  | twice {y z : Exchange} {status : UInt8}
    (carries : CarriesBlocks first n b.remembered data y.body)
    (reported : y.answer = .error (.readerStatus status))
    (carries' : CarriesBlocks first n b.alternative data z.body) :
    WriteCourse b first n data [y, z] (z.answer.map fun _ => .done)
      (if z.answer.isOk then { b with size := b.size.other } else b)

namespace Episode

/-- What a write does. -/
structure Writes (t : Trailer) (first n : UInt8) (data : Bytes) (x : Episode) : Prop where
  course : WriteCourse x.before first n data x.exchanges x.result x.after
  /-- If the blocks do not fit with the size that is remembered, nothing is sent. -/
  unsent : ∀ y ∈ x.exchanges.head?, ¬Frame.Fits t y.body → x.frames = [] ∧ Refused x.result
  /-- They are sent with the other size exactly after a failure that the reader has reported, as
  long as they fit then. -/
  sent_iff : (∃ body frame, CarriesBlocks first n x.before.alternative data body ∧
      Frame.encode t body = .ok frame ∧ frame ∈ x.frames) ↔
    (∃ y ∈ x.exchanges.head?, ∃ status, y.answer = .error (.readerStatus status)) ∧
      ∀ body, CarriesBlocks first n x.before.alternative data body → Frame.Fits t body

/-- What a setting of the lock register does. -/
structure Protects (lock : UInt8) (x : Episode) : Prop where
  selected : ∀ chip, x.before.chip = some chip → ∃ y, x.exchanges = [y] ∧
    y.body = [0xC1, 0x02, 0x19, chip, lock] ∧ x.result = y.answer.map fun _ => .done
  unselected : x.before.chip = none → x.exchanges = [] ∧ x.frames = [] ∧ Refused x.result

/-- What an operation does to the size that is remembered. -/
structure TracksSize (x : Episode) : Prop where
  /-- A write that goes through leaves its size behind. -/
  set : ∀ size, x.accepted? = some size → (x.after.isSrix = true ↔ size = 4)
  /-- Everything else leaves the size alone, also a write that fails. -/
  kept : x.accepted? = none → x.after.isSrix = x.before.isSrix
  accepted_iff : x.accepted?.isSome = true ↔
    (∃ first n data, x.operation = .iso14443b (.write first n data)) ∧
      ∃ finding, x.result = .ok finding

/-- What an operation does to the chip that is remembered. -/
structure TracksChip (x : Episode) : Prop where
  /-- A select that finds a tag leaves its chip behind. -/
  set : ∀ chip, x.selected? = some chip → x.after.chip = some chip
  /-- Everything else leaves the chip alone, also a select that fails or finds nothing. -/
  kept : x.selected? = none → x.after.chip = x.before.chip
  selected_iff : x.selected?.isSome = true ↔
    x.operation = .iso14443b .select ∧ ∃ chip, x.result = .ok (.number chip)

/-- What an operation makes of the session, and what the session makes of it. -/
structure Lawful (t : Trailer) (retries : Nat) (x : Episode) : Prop where
  transmits : Transmits t retries x.exchanges x.frames
  size : x.TracksSize
  chip : x.TracksChip
  writes : ∀ first n data, x.operation = .iso14443b (.write first n data) → x.Writes t first n data
  protects : ∀ lock, x.operation = .iso14443b (.protect lock) → x.Protects lock

end Episode

/-! ## The blocks of a write -/

section Blocks

variable {first n size : UInt8} {data body : Bytes}

lemma carriesBlocks_writeCall (first n : UInt8) (size : Iso14443b.BlockSize) (data : Bytes) :
    CarriesBlocks first n size.byte data
      (Iso14443b.Session.writeCall first n size data).command.body := by
  have hlen := Bytes.length_fit (n.toNat * size.byte.toNat) data
  refine ⟨Iso14443b.blockData n size data, rfl, hlen, fun i hi => ?_⟩
  rw [Iso14443b.blockData, hlen] at hi
  rw [Iso14443b.blockData, Bytes.fit]
  by_cases hin : i < data.length
  · rw [List.getElem?_append_left (by rw [List.length_take]; omega), List.getElem?_take_of_lt hi,
      List.getD_eq_getElem?_getD, List.getElem?_eq_getElem hin]
    rfl
  · rw [List.getElem?_append_right (by rw [List.length_take]; omega),
      List.getElem?_replicate_of_lt (by rw [List.length_take]; omega),
      List.getD_eq_getElem?_getD, List.getElem?_eq_none (Nat.not_lt.1 hin)]
    rfl

/-- The arguments and the data decide the body. -/
lemma CarriesBlocks.unique {body' : Bytes} (h : CarriesBlocks first n size data body)
    (h' : CarriesBlocks first n size data body') : body = body' := by
  obtain ⟨carried, rfl, hlen, hget⟩ := h
  obtain ⟨carried', rfl, hlen', hget'⟩ := h'
  have hcarried : carried = carried' := by
    apply List.ext_getElem?
    intro i
    by_cases hi : i < carried.length
    · rw [hget i hi, hget' i (by omega)]
    · rw [List.getElem?_eq_none (by omega), List.getElem?_eq_none (by omega)]
  rw [hcarried]

/-- The size of the blocks is the sixth byte of the body. -/
lemma CarriesBlocks.size_eq (h : CarriesBlocks first n size data body) : body[5]? = some size := by
  obtain ⟨carried, rfl, -, -⟩ := h
  rfl

namespace Iso14443b.Session

variable (b : Session)

lemma remembered_eq : b.remembered = b.size.byte := by
  rcases b with ⟨chip, _ | _⟩ <;> rfl

lemma alternative_eq : b.alternative = b.size.other.byte := by
  rcases b with ⟨chip, _ | _⟩ <;> rfl

lemma remembered_ne_alternative : b.remembered ≠ b.alternative := by
  rcases b with ⟨chip, _ | _⟩ <;> simp [remembered, alternative, isSrix]

lemma isSrix_iff : b.isSrix = true ↔ b.remembered = 4 := by
  rcases b with ⟨chip, _ | _⟩ <;> simp [remembered, isSrix]

lemma isSrix_other_iff :
    Session.isSrix { b with size := b.size.other } = true ↔ b.alternative = 4 := by
  rcases b with ⟨chip, _ | _⟩ <;> simp [alternative, isSrix, BlockSize.other]

end Iso14443b.Session

end Blocks

/-! ## Sizes and chips -/

namespace Episode

variable {x : Episode}

lemma tracksSize_of_accepted {size : UInt8} (h : x.accepted? = some size)
    (hset : x.after.isSrix = true ↔ size = 4) : x.TracksSize := by
  refine ⟨fun size' h' => ?_, fun hnone => ?_, ?_⟩
  · obtain rfl := Option.some.inj (h.symm.trans h')
    exact hset
  · rw [h] at hnone
    cases hnone
  · refine iff_of_true (by rw [h]; rfl) ?_
    unfold accepted? at h
    split at h
    · exact ⟨⟨_, _, _, ‹_›⟩, _, ‹_›⟩
    · cases h

lemma tracksSize_of_unaccepted (h : x.accepted? = none)
    (hop : ¬((∃ first n data, x.operation = .iso14443b (.write first n data)) ∧
      ∃ finding, x.result = .ok finding))
    (hkept : x.after.isSrix = x.before.isSrix) : x.TracksSize := by
  refine ⟨fun size hsome => ?_, fun _ => hkept, iff_of_false ?_ hop⟩
  · rw [h] at hsome
    cases hsome
  · rw [h]
    exact Bool.false_ne_true

lemma tracksSize_of_not_write
    (hop : ∀ first n data, x.operation ≠ .iso14443b (.write first n data))
    (hkept : x.after.isSrix = x.before.isSrix) : x.TracksSize := by
  refine tracksSize_of_unaccepted ?_ (fun ⟨⟨first, n, data, h⟩, _⟩ => hop first n data h) hkept
  unfold accepted?
  split
  · exact absurd ‹_› (hop _ _ _)
  · rfl

lemma tracksChip_of_selected {chip : UInt8} (h : x.selected? = some chip)
    (hop : x.operation = .iso14443b .select) (hr : x.result = .ok (.number chip.toNat))
    (hset : x.after.chip = some chip) : x.TracksChip := by
  refine ⟨fun chip' h' => ?_, fun hnone => ?_, iff_of_true (by rw [h]; rfl) ⟨hop, _, hr⟩⟩
  · obtain rfl := Option.some.inj (h.symm.trans h')
    exact hset
  · rw [h] at hnone
    cases hnone

lemma tracksChip_of_unselected (h : x.selected? = none)
    (hop : ¬(x.operation = .iso14443b .select ∧ ∃ chip, x.result = .ok (.number chip)))
    (hkept : x.after.chip = x.before.chip) : x.TracksChip := by
  refine ⟨fun chip hsome => ?_, fun _ => hkept, iff_of_false ?_ hop⟩
  · rw [h] at hsome
    cases hsome
  · rw [h]
    exact Bool.false_ne_true

/-- A select that fails, or finds nothing. -/
lemma tracksChip_of_unsuccessful (hop : x.operation = .iso14443b .select)
    (hr : x.result = .ok .nothing ∨ ∃ f, x.result = .error f)
    (hkept : x.after.chip = x.before.chip) : x.TracksChip := by
  have hnone : x.selected? = none := by
    unfold selected?
    rcases hr with hr | ⟨f, hr⟩ <;> rw [hop, hr]
  refine tracksChip_of_unselected hnone ?_ hkept
  rintro ⟨-, chip, hchip⟩
  rcases hr with hr | ⟨f, hr⟩ <;> cases hr.symm.trans hchip

lemma tracksChip_of_not_select (hop : x.operation ≠ .iso14443b .select)
    (hkept : x.after.chip = x.before.chip) : x.TracksChip := by
  refine tracksChip_of_unselected ?_ (fun h => hop h.1) hkept
  unfold selected?
  split
  · rfl
  · exact absurd ‹_› hop
  · rfl

end Episode

/-! ## Writes -/

namespace Episode

variable {t : Trailer} {retries : Nat} {first n : UInt8} {data : Bytes} {x : Episode}

/-- What a write sends is decided by its course. -/
lemma Writes.of_course (hc : WriteCourse x.before first n data x.exchanges x.result x.after)
    (ht : Transmits t retries x.exchanges x.frames) : x.Writes t first n data := by
  refine ⟨hc, ?_, ?_⟩
  · rintro y hy hlong
    obtain ⟨op, b, xs, frames, r, after⟩ := x
    dsimp only at hc ht hy ⊢
    cases hc with
    | once carries unreported =>
      obtain rfl := Option.some.inj hy
      obtain ⟨text, ha⟩ := ht.refused_of_not_fits hlong
      rw [ha]
      exact ⟨ht.eq_nil_of_not_fits hlong, text, rfl⟩
    | twice carries reported carries' =>
      obtain rfl := Option.some.inj hy
      obtain ⟨text, ha⟩ := ht.refused_of_not_fits hlong
      rw [reported] at ha
      cases ha
  · obtain ⟨op, b, xs, frames, r, after⟩ := x
    dsimp only at hc ht ⊢
    constructor
    · rintro ⟨body, frame, hbody, hframe, hmem⟩
      have hfits := (Frame.encode_eq_ok_iff.1 hframe).1
      refine ⟨?_, fun body' hbody' => hbody.unique hbody' ▸ hfits⟩
      -- The frame belongs to an exchange with the other size, which is never the first one.
      obtain ⟨y, hy, hyframe⟩ := ht.exists_of_mem hmem
      obtain rfl := Frame.encode_injective hframe hyframe
      cases hc with
      | once carries unreported =>
        obtain rfl := List.mem_singleton.1 hy
        exact absurd (Option.some.inj (carries.size_eq.symm.trans hbody.size_eq))
          b.remembered_ne_alternative
      | twice carries reported carries' => exact ⟨_, rfl, _, reported⟩
    · rintro ⟨⟨y, hy, status, hstatus⟩, hfits⟩
      cases hc with
      | once carries unreported =>
        obtain rfl := Option.some.inj hy
        exact absurd hstatus (unreported status)
      | twice carries reported carries' =>
        have hframe := Frame.encode_of_fits (hfits _ carries')
        exact ⟨_, _, carries', hframe,
          ht.mem_of_encode (List.mem_cons_of_mem _ List.mem_cons_self) hframe⟩

/-- A write leaves the size behind with which it goes through, and nothing else. -/
lemma tracks_of_course (hop : x.operation = .iso14443b (.write first n data))
    (hc : WriteCourse x.before first n data x.exchanges x.result x.after) :
    x.TracksSize ∧ x.TracksChip := by
  obtain ⟨op, b, xs, frames, r, after⟩ := x
  dsimp only at hc hop
  obtain rfl := hop
  cases hc with
  | @once y carries unreported =>
    refine ⟨?_, tracksChip_of_not_select (by simp) rfl⟩
    obtain ⟨call, f | p⟩ := y
    · exact tracksSize_of_unaccepted rfl (fun ⟨_, finding, h⟩ => nomatch h) rfl
    · exact tracksSize_of_accepted carries.size_eq b.isSrix_iff
  | @twice y z status carries reported carries' =>
    obtain ⟨call, r⟩ := y
    obtain rfl := reported
    obtain ⟨call', f | p⟩ := z
    · exact ⟨tracksSize_of_unaccepted rfl (fun ⟨_, finding, h⟩ => nomatch h) rfl,
        tracksChip_of_not_select (by simp) rfl⟩
    · exact ⟨tracksSize_of_accepted carries'.size_eq b.isSrix_other_iff,
        tracksChip_of_not_select (by simp) rfl⟩

end Episode

/-! ## Every operation -/

namespace Engine

variable (e : Engine σ) (b : Iso14443b.Session) (s : σ)

/-- The episode of an operation that makes something of a value in the end. -/
lemma episode_of_map {α : Type} (op : Operation) {d : Talk α}
    {g : α → Finding × Iso14443b.Session} (h : op.talk b = d >>= fun a => pure (g a)) :
    (e.episode op b s).exchanges = e.exchanges d s ∧
      (e.episode op b s).result = (e.conduct d s).result.map (fun a => (g a).1) ∧
      (e.episode op b s).after = ((e.conduct d s).result.map fun a => (g a).2).toOption.getD b := by
  refine ⟨(congrArg (e.exchanges · s) h).trans (e.exchanges_map d g s), ?_, ?_⟩
  · refine (op.perform_spec e b s).1.trans ?_
    rw [h, (e.conduct_map d g s).1]
    cases (e.conduct d s).result <;> rfl
  · refine (op.session_perform e b s).trans ?_
    rw [h, (e.conduct_map d g s).1]
    cases (e.conduct d s).result <;> rfl

/-- All that a write can do. -/
lemma write_cases (first n : UInt8) (data : Bytes) :
    (∃ r, (∀ status, r ≠ .error (.readerStatus status)) ∧
      e.exchanges (b.write first n data) s =
        [⟨Iso14443b.Session.writeCall first n b.size data, r⟩] ∧
      (e.conduct (b.write first n data) s).result = r.map fun _ => b) ∨
    ∃ status r, e.exchanges (b.write first n data) s =
        [⟨Iso14443b.Session.writeCall first n b.size data, .error (.readerStatus status)⟩,
          ⟨Iso14443b.Session.writeCall first n b.size.other data, r⟩] ∧
      (e.conduct (b.write first n data) s).result =
        r.map fun _ => { b with size := b.size.other } := by
  unfold Iso14443b.Session.write
  rw [exchanges_ask, result_conduct_ask]
  rcases (e.serve (Iso14443b.Session.writeCall first n b.size data) s).result with f | p
  · cases f
    case readerStatus status =>
      right
      dsimp only
      rw [exchanges_note, exchanges_ask, result_conduct_note, result_conduct_ask]
      generalize (e.serve (Iso14443b.Session.writeCall first n b.size.other data) _).result = r
      exact ⟨status, r, by cases r <;> rfl, by cases r <;> rfl⟩
    all_goals exact .inl ⟨.error _, by simp, rfl, rfl⟩
  · exact .inl ⟨.ok p, by simp, rfl, rfl⟩

/-- A write goes by its course. -/
lemma writeCourse_episode (first n : UInt8) (data : Bytes) :
    WriteCourse b first n data (e.episode (.iso14443b (.write first n data)) b s).exchanges
      (e.episode (.iso14443b (.write first n data)) b s).result
      (e.episode (.iso14443b (.write first n data)) b s).after := by
  obtain ⟨hexchanges, hresult, hafter⟩ := e.episode_of_map b s
    (.iso14443b (.write first n data)) (d := b.write first n data)
    (g := fun b' => (.done, b')) rfl
  have hcarries := carriesBlocks_writeCall first n b.size data
  have hcarries' := carriesBlocks_writeCall first n b.size.other data
  rw [← b.remembered_eq] at hcarries
  rw [← b.alternative_eq] at hcarries'
  rw [hexchanges, hresult, hafter]
  rcases e.write_cases b s first n data with ⟨r, hr, hx, hd⟩ | ⟨status, r, hx, hd⟩
  · have hcourse := WriteCourse.once (y := ⟨_, r⟩) hcarries hr
    rw [hx, hd]
    cases r <;> exact hcourse
  · have hcourse := WriteCourse.twice (y := ⟨_, .error (.readerStatus status)⟩) (z := ⟨_, r⟩)
      hcarries rfl hcarries'
    rw [hx, hd]
    cases r <;> exact hcourse

lemma lawful_write (first n : UInt8) (data : Bytes) :
    (e.episode (.iso14443b (.write first n data)) b s).Lawful e.trailer e.settings.retries := by
  have hcourse := e.writeCourse_episode b s first n data
  have htransmits := e.transmits_perform (.iso14443b (.write first n data)) b s
  obtain ⟨hsize, hchip⟩ := Episode.tracks_of_course
    (x := e.episode (.iso14443b (.write first n data)) b s) rfl hcourse
  refine ⟨htransmits, hsize, hchip, fun first' n' data' h => ?_, fun lock h => (nomatch h)⟩
  obtain ⟨rfl, rfl, rfl⟩ : first = first' ∧ n = n' ∧ data = data' := by
    simpa [episode] using h
  exact .of_course hcourse htransmits

/-- All that a select can do. -/
lemma select_cases :
    ∃ r, e.exchanges b.select s = [⟨⟨Iso14443b.Request.select.command, none⟩, r⟩] ∧
      ((∃ chip rest, r = .ok (chip :: rest) ∧
        (e.conduct b.select s).result = .ok (some chip, { b with chip := some chip })) ∨
      (e.conduct b.select s).result = .ok (none, b) ∨
      ∃ f, (e.conduct b.select s).result = .error f) := by
  have hselect : b.select = .ask ⟨Iso14443b.Request.select.command, none⟩ _ := rfl
  rw [hselect, exchanges_ask, result_conduct_ask]
  rcases (e.serve ⟨Iso14443b.Request.select.command, none⟩ s).result with f | p
  · refine ⟨.error f, by cases f <;> rfl, .inr ?_⟩
    cases f
    case readerStatus status => exact .inl rfl
    all_goals exact .inr ⟨_, rfl⟩
  · rcases p with _ | ⟨chip, rest⟩
    · exact ⟨.ok [], rfl, .inr (.inr ⟨_, rfl⟩)⟩
    · exact ⟨.ok (chip :: rest), rfl, .inl ⟨chip, rest, rfl, rfl⟩⟩

/-- A select leaves the first byte of the payload behind, if a tag is found. -/
lemma lawful_select :
    (e.episode (.iso14443b .select) b s).Lawful e.trailer e.settings.retries := by
  obtain ⟨hexchanges, hresult, hafter⟩ := e.episode_of_map b s
    (.iso14443b .select) (d := b.select)
    (g := fun a => (.ofOption (fun c => .number c.toNat) a.1, a.2)) rfl
  have hop : (e.episode (.iso14443b .select) b s).operation = .iso14443b .select := rfl
  obtain ⟨r, hr, hd⟩ := e.select_cases b s
  suffices h : (e.episode (.iso14443b .select) b s).TracksChip ∧
      (e.episode (.iso14443b .select) b s).after.isSrix = b.isSrix from
    ⟨e.transmits_perform (.iso14443b .select) b s,
      Episode.tracksSize_of_not_write (fun _ _ _ h => (nomatch h)) h.2, h.1,
      fun _ _ _ h => (nomatch h), fun _ h => (nomatch h)⟩
  -- A tag is found, there is none, or the select fails.
  rcases hd with ⟨chip, rest, rfl, hd⟩ | hd | ⟨f, hd⟩
  all_goals rw [hd] at hresult hafter
  · have hselected : (e.episode (.iso14443b .select) b s).selected? = some chip := by
      rw [Episode.selected?, hop, hresult, hexchanges, hr]
      rfl
    exact ⟨Episode.tracksChip_of_selected hselected hop hresult (by rw [hafter]; rfl),
      by rw [hafter]; rfl⟩
  · exact ⟨Episode.tracksChip_of_unsuccessful hop (.inl hresult) (by rw [hafter]; rfl),
      by rw [hafter]; rfl⟩
  · exact ⟨Episode.tracksChip_of_unsuccessful hop (.inr ⟨f, hresult⟩) (by rw [hafter]; rfl),
      by rw [hafter]; rfl⟩

/-- An operation that is neither a write nor a select leaves the session alone. -/
lemma after_episode {op : Operation} (hw : ∀ first n data, op ≠ .iso14443b (.write first n data))
    (hs : op ≠ .iso14443b .select) : (e.episode op b s).after = b := by
  have hkeeps : ∃ d : Talk Finding, op.talk b = d >>= fun a => pure (a, b) := by
    cases op with
    | iso14443b op =>
      cases op with
      | select => exact absurd rfl hs
      | write first n data => exact absurd rfl (hw first n data)
      | _ => exact ⟨_, rfl⟩
    | _ => exact ⟨_, rfl⟩
  obtain ⟨d, hd⟩ := hkeeps
  obtain ⟨-, -, hafter⟩ := e.episode_of_map b s op hd
  rw [hafter]
  cases (e.conduct d s).result <;> rfl

/-- An order is one exchange, of which only the end matters. -/
lemma order_cases (c : Command) :
    ∃ r, e.exchanges (Talk.order c).finish s = [⟨⟨c, none⟩, r⟩] ∧
      (e.conduct (Talk.order c).finish s).result = r.map fun _ => .done := by
  have hask : (Talk.order c).finish = .ask ⟨c, none⟩ _ := rfl
  rw [hask, exchanges_ask, result_conduct_ask]
  rcases (e.serve ⟨c, none⟩ s).result with f | p
  · exact ⟨.error f, rfl, rfl⟩
  · exact ⟨.ok p, rfl, rfl⟩

/-- A setting of the lock register needs the chip that is remembered. -/
lemma protects_episode (lock : UInt8) :
    (e.episode (.iso14443b (.protect lock)) b s).Protects lock := by
  have htransmits := e.transmits_perform (.iso14443b (.protect lock)) b s
  obtain ⟨hexchanges, hresult, -⟩ := e.episode_of_map b s
    (.iso14443b (.protect lock)) (d := (b.protect lock).finish) (g := fun a => (a, b)) rfl
  constructor
  · intro chip hchip
    have hprotect : b.protect lock = Talk.order (Iso14443b.Request.protect chip lock).command := by
      rw [Iso14443b.Session.protect, show b.chip = some chip from hchip]
    obtain ⟨r, hx, hr⟩ := e.order_cases s (Iso14443b.Request.protect chip lock).command
    rw [hprotect] at hexchanges hresult
    refine ⟨_, hexchanges.trans hx, rfl, ?_⟩
    rw [hresult, hr]
    cases r <;> rfl
  · intro hchip
    have hprotect : b.protect lock = .fail (.validation "no st tag selected") := by
      rw [Iso14443b.Session.protect, show b.chip = none from hchip]
    rw [hprotect] at hexchanges hresult
    have hnone : (e.episode (.iso14443b (.protect lock)) b s).exchanges = [] := hexchanges
    have hsent : Transmits e.trailer e.settings.retries []
        (e.episode (.iso14443b (.protect lock)) b s).frames := by
      rw [← hnone]
      exact htransmits
    exact ⟨hnone, hsent.eq_nil, _, hresult⟩

lemma lawful_episode (op : Operation) :
    (e.episode op b s).Lawful e.trailer e.settings.retries := by
  by_cases hw : ∃ first n data, op = .iso14443b (.write first n data)
  · obtain ⟨first, n, data, rfl⟩ := hw
    exact e.lawful_write b s first n data
  by_cases hs : op = .iso14443b .select
  · subst hs
    exact e.lawful_select b s
  have hw' (first n : UInt8) (data : Bytes) : op ≠ .iso14443b (.write first n data) :=
    fun h => hw ⟨first, n, data, h⟩
  have hafter := e.after_episode b s hw' hs
  refine ⟨e.transmits_perform op b s, Episode.tracksSize_of_not_write hw' (by rw [hafter]; rfl),
    Episode.tracksChip_of_not_select hs (by rw [hafter]; rfl),
    fun first n data h => absurd h (hw' first n data), fun lock h => ?_⟩
  obtain rfl : op = .iso14443b (.protect lock) := h
  exact e.protects_episode b s lock

end Engine

/-! ## Runs -/

/-- A step keeps the invariant. -/
lemma Remembers.step {past : List Episode} {x : Episode} (h : Remembers past x.before)
    (hs : x.TracksSize) (hc : x.TracksChip) : Remembers (past ++ [x]) x.after := by
  constructor
  · rw [List.filterMap_append]
    cases ha : x.accepted? with
    | none =>
      rw [hs.kept ha, h.srix_iff]
      simp [ha]
    | some size =>
      rw [hs.set size ha]
      simp [ha]
  · rw [List.filterMap_append]
    cases ha : x.selected? with
    | none =>
      rw [hc.kept ha, h.chip_eq]
      simp [ha]
    | some chip =>
      rw [hc.set chip ha]
      simp [ha]

namespace Engine

variable (e : Engine σ)

/-- What is remembered of earlier episodes is remembered through all the later ones. -/
lemma chronicle_of_remembers (ops : List Operation) {past : List Episode} {b : Iso14443b.Session}
    (s : σ) (h : Remembers past b) :
    Remembers (past ++ e.chronicle ops b s) (e.sessionAfter ops b s) ∧
      ∀ earlier x later, e.chronicle ops b s = earlier ++ x :: later →
        Remembers (past ++ earlier) x.before ∧ Remembers (past ++ earlier ++ [x]) x.after ∧
          x.Lawful e.trailer e.settings.retries := by
  -- The past grows by an episode in each step, so it is general in the induction.
  induction ops generalizing past b s with
  | nil =>
    refine ⟨by rwa [chronicle, List.append_nil], fun earlier x later hx => ?_⟩
    exact absurd hx (by simp [chronicle])
  | cons op ops ih =>
    have hlawful := e.lawful_episode b s op
    have hstep : Remembers (past ++ [e.episode op b s]) (e.episode op b s).after :=
      Remembers.step h hlawful.size hlawful.chip
    obtain ⟨hend, hall⟩ := ih (op.perform e b s).1.state hstep
    refine ⟨by rwa [List.append_assoc] at hend, fun earlier x later hx => ?_⟩
    rcases earlier with _ | ⟨y, earlier⟩
    · obtain ⟨rfl, -⟩ := List.cons.inj hx
      rw [List.append_nil]
      exact ⟨h, hstep, hlawful⟩
    · obtain ⟨rfl, hlater⟩ := List.cons.inj hx
      have hx := hall earlier x later hlater
      rwa [List.append_assoc past] at hx

lemma operation_chronicle (ops : List Operation) (b : Iso14443b.Session) (s : σ) :
    (e.chronicle ops b s).map Episode.operation = ops := by
  induction ops generalizing b s with
  | nil => rfl
  | cons op ops ih => exact congrArg (List.cons op) (ih _ _)

/-- **A session remembers what was accepted and selected last.**  Whatever operations are performed
with a new session, and whatever the link does, the session remembers before each of them, and
after it, the size of the write that went through last and the chip of the select that found a tag
last.  It changes by nothing else.  A write tries the size that is remembered, and then the other
one exactly after a failure that the reader reports, each with its arguments and with blocks that
are cut or padded; a setting of the lock register sends the chip that is remembered, and without
one nothing. -/
theorem chronicle_remembers (ops : List Operation) (s : σ) :
    (e.chronicle ops {} s).map Episode.operation = ops ∧
      Remembers (e.chronicle ops {} s) (e.sessionAfter ops {} s) ∧
      ∀ earlier x later, e.chronicle ops {} s = earlier ++ x :: later →
        Remembers earlier x.before ∧ Remembers (earlier ++ [x]) x.after ∧
          x.Lawful e.trailer e.settings.retries := by
  have hnew : Remembers [] {} := ⟨iff_of_false Bool.false_ne_true (by simp), rfl⟩
  obtain ⟨hend, hall⟩ := e.chronicle_of_remembers ops s hnew
  exact ⟨e.operation_chronicle ops {} s, hend, hall⟩

end Engine

end TagReader
