/-
# User data on Ultralight tags

The two kinds of Ultralight tags keep their bytes in pages of four.  The first four pages hold the
identifier, lock bits and a counter that only counts up, and an Ultralight C tag has a key and its
configuration on the last eight, so a write that misses the pages of user data does harm that cannot
be undone.  This file says where the macros for user data write and read.

* `Mifare.store`: pages that are chosen receive the data, four bytes each and in their order.  Where
  the pages follow each other, the data stand there in one piece (`Mifare.store_range'`).
* `Mifare.Request.ofFrame?`: the reader finds in a frame the macro for which it was made, so what is
  sent can be applied to a memory (`Mifare.heard`), and applying it again changes nothing.

The main result is `Mifare.PageTag.userData_lands`.
-/
import TagReader.Proofs.Queries
import TagReader.Proofs.Validation

namespace TagReader

variable {σ : Type}

namespace Mifare

/-! ## Memory in pages -/

/-- A memory after four bytes have been written to one of its pages. -/
def putPage (mem : Bytes) (page : Nat) (chunk : Bytes) : Bytes :=
  mem.take (4 * page) ++ chunk ++ mem.drop (4 * page + 4)

/-- A memory after data have been written to pages, four bytes to each of them. -/
def store : List Nat → Bytes → Bytes → Bytes
  | [], _, mem => mem
  | page :: pages, data, mem => store pages (data.drop 4) (putPage mem page (data.take 4))

/-- On pages that follow each other the data stand in one piece, and all else is as it was. -/
lemma store_range' {n first : Nat} {data mem : Bytes} (hdata : data.length = 4 * n)
    (hroom : 4 * (first + n) ≤ mem.length) :
    store (List.range' first n) data mem =
      mem.take (4 * first) ++ data ++ mem.drop (4 * (first + n)) := by
  induction n generalizing first data mem with
  | zero =>
    obtain rfl := List.length_eq_zero_iff.1 hdata
    simp [store]
  | succ n ih =>
    have hchunk : (data.take 4).length = 4 := by
      rw [List.length_take]
      omega
    have hbefore : (mem.take (4 * first)).length = 4 * first := by
      rw [List.length_take]
      omega
    have hfront : (mem.take (4 * first) ++ data.take 4).length = 4 * (first + 1) := by
      rw [List.length_append, hbefore, hchunk]
      omega
    rw [List.range'_succ, store, ih]
    · have htake : (putPage mem first (data.take 4)).take (4 * (first + 1)) =
          mem.take (4 * first) ++ data.take 4 := List.take_left' hfront
      have hdrop : (putPage mem first (data.take 4)).drop (4 * (first + 1 + n)) =
          mem.drop (4 * (first + (n + 1))) := by
        rw [putPage, List.drop_append, hfront, List.drop_eq_nil_of_le (by omega), List.nil_append,
          List.drop_drop]
        congr 1
        omega
      rw [htake, hdrop, List.append_assoc (mem.take _), List.take_append_drop]
    · rw [List.length_drop]
      omega
    · rw [putPage, List.length_append, hfront, List.length_drop]
      omega

namespace Request

/-- The pages that a request writes, in ascending order. -/
def pages : Request → List Nat
  | writeUltralight mask _ => chosen 16 mask.toNat
  | writeUltralightC _ first n _ => List.range' first.toNat n.toNat
  | _ => []

/-- What a request does to the memory of an Ultralight tag. -/
def applied (r : Request) (mem : Bytes) : Bytes :=
  match r with
  | writeUltralight _ data | writeUltralightC _ _ _ data => store r.pages data mem
  | _ => mem

/-- What the reader reports of the memory of an Ultralight tag. -/
def report (r : Request) (mem : Bytes) : Bytes :=
  match r with
  | readUltralight => mem
  | readUltralightC _ first n => (mem.drop (4 * first.toNat)).take (4 * n.toNat)
  | _ => []

/-- The request that a reader finds in a frame, if that carries a macro. -/
def ofFrame? (t : Trailer) (frame : Bytes) : Option Request :=
  match (Frame.decodeCommand t frame).toOption.bind Query.ofBody? with
  | some (.mifare r) => some r
  | _ => none

/-- In the frame of a macro, the reader finds this macro. -/
lemma ofFrame?_of_encode {t : Trailer} {r : Request} {frame : Bytes} (hr : r.Admissible)
    (hf : Frame.encode t r.command.body = .ok frame) : ofFrame? t frame = some r := by
  have hbody : Frame.decodeCommand t frame = .ok r.command.body := by
    rw [Frame.decodeCommand_eq_ok_iff]
    exact ⟨Nat.le_add_left 2 _, hf⟩
  have hread := Query.ofBody?_body (q := .mifare r) hr
  unfold ofFrame?
  rw [hbody]
  show (match Query.ofBody? (Query.mifare r).command.body with
    | some (.mifare r) => some r
    | _ => none) = _
  rw [hread]
  rfl

end Request

/-- The memory of the tag after the reader has received a frame. -/
def heard (t : Trailer) (mem frame : Bytes) : Bytes :=
  match Request.ofFrame? t frame with
  | some r => r.applied mem
  | none => mem

/-! ## User data -/

/-- Data filled up with zeros to whole pages. -/
def filled (data : Bytes) : Bytes :=
  data ++ List.replicate (4 * ((data.length + 3) / 4) - data.length) 0

/-- A memory in which data, filled up, stand from the fifth page on. -/
def withUserData (data mem : Bytes) : Bytes :=
  mem.take 16 ++ filled data ++ mem.drop (16 + (filled data).length)

lemma length_filled (data : Bytes) : (filled data).length = 4 * pagesFor data.length := by
  unfold filled pagesFor pageSize
  rw [List.length_append, List.length_replicate]
  omega

lemma padded_eq_filled (data : Bytes) : padded data = filled data := by
  have hsize : pagesFor data.length * pageSize = 4 * ((data.length + 3) / 4) := by
    unfold pagesFor pageSize
    omega
  rw [padded, Bytes.fit, hsize, List.take_of_length_le (by omega), filled]

section Memory

variable {data mem : Bytes} (hroom : 16 + (filled data).length ≤ mem.length)
include hroom

lemma length_withUserData : (withUserData data mem).length = mem.length := by
  simp only [withUserData, List.length_append, List.length_take, List.length_drop]
  omega

/-- From the fifth page on there are the data, and behind them what was there before. -/
lemma drop_withUserData :
    (withUserData data mem).drop 16 = filled data ++ mem.drop (16 + (filled data).length) := by
  have hfront : (mem.take 16).length = 16 := by
    rw [List.length_take]
    omega
  rw [withUserData, List.append_assoc, List.drop_left' hfront]

/-- Writing the same once more changes nothing. -/
lemma withUserData_withUserData :
    withUserData data (withUserData data mem) = withUserData data mem := by
  have hfront : (mem.take 16).length = 16 := by
    rw [List.length_take]
    omega
  have htake : (withUserData data mem).take 16 = mem.take 16 := by
    rw [withUserData, List.append_assoc, List.take_left' hfront]
  have hdrop : (withUserData data mem).drop (16 + (filled data).length) =
      mem.drop (16 + (filled data).length) := by
    rw [← List.drop_drop, drop_withUserData hroom, List.drop_left]
  rw [withUserData, htake, hdrop]
  rfl

end Memory

/-! ## The two kinds of tags -/

/-- The kinds of Ultralight tags. -/
inductive PageTag where
  | ultralight
  | ultralightC

namespace PageTag

/-- All pages. -/
def pages : PageTag → Nat
  | ultralight => 16
  | ultralightC => 48

/-- The pages of user data, which begin with the fifth page. -/
def userPages : PageTag → Nat
  | ultralight => 12
  | ultralightC => 36

/-- The operation that writes user data. -/
def write (data : Bytes) : PageTag → MifareOperation
  | ultralight => .writeUltralightUserData data
  | ultralightC => .writeUltralightCUserData data

/-- The operation that reads the user data. -/
def read : PageTag → MifareOperation
  | ultralight => .readUltralightUserData
  | ultralightC => .readUltralightCUserData

/-- The request by which user data are written. -/
def writing (data : Bytes) : PageTag → Request
  | ultralight => .writeUltralight (userMask (pagesFor data.length)) (padded data)
  | ultralightC =>
    .writeUltralightC userOptions 4 (UInt8.ofNat (pagesFor data.length)) (padded data)

/-- The request by which the user data are read. -/
def reading : PageTag → Request
  | ultralight => .readUltralight
  | ultralightC => .readUltralightC userOptions 4 36

/-- Where the user data stand in the reply to that. -/
def place : PageTag → Nat
  | ultralight => 16
  | ultralightC => 0

variable (k : PageTag)

lemma call?_write (data : Bytes) :
    (k.write data).call? = some ⟨(k.writing data).command, none⟩ := by
  cases k <;> rfl

lemma valid_write {data : Bytes} (hpos : 1 ≤ data.length) (hle : data.length ≤ 4 * k.userPages) :
    (k.write data).Valid := by
  cases k <;> exact ⟨hpos, hle⟩

lemma admissible_writing (data : Bytes) : (k.writing data).Admissible := by
  cases k <;> trivial

/-- User data are written to the first pages that there are for them. -/
lemma pages_writing {data : Bytes} (hle : data.length ≤ 4 * k.userPages) :
    (k.writing data).pages = List.range' 4 (pagesFor data.length) := by
  cases k with
  | ultralight => exact chosen_userMask _ (pagesFor_le hle)
  | ultralightC => exact congrArg (List.range' 4) (toNat_pagesFor hle)

lemma pages_writing_bounds {data : Bytes} (hle : data.length ≤ 4 * k.userPages) {page : Nat}
    (hpage : page ∈ (k.writing data).pages) : 4 ≤ page ∧ page < 4 + k.userPages := by
  have hfew := pagesFor_le hle
  rw [k.pages_writing hle, List.mem_range'_1] at hpage
  omega

section Memory

variable {data mem : Bytes} (hle : data.length ≤ 4 * k.userPages) (hmem : mem.length = 4 * k.pages)
include hle hmem

lemma filled_fits : 16 + (filled data).length ≤ 16 + 4 * k.userPages ∧
    16 + 4 * k.userPages ≤ mem.length := by
  have hfew := pagesFor_le hle
  have huser : 4 + k.userPages ≤ k.pages := by cases k <;> decide
  rw [length_filled, hmem]
  omega

lemma applied_writing : (k.writing data).applied mem = withUserData data mem := by
  obtain ⟨hfits, hroom⟩ := k.filled_fits hle hmem
  rw [length_filled] at hfits
  have happlied : (k.writing data).applied mem =
      store (k.writing data).pages (padded data) mem := by
    cases k <;> rfl
  rw [happlied, k.pages_writing hle, store_range' (length_padded data) (by omega), withUserData,
    length_filled, padded_eq_filled, Nat.mul_add]

/-- However often it is repeated, the request leaves the user data there. -/
lemma foldl_heard {t : Trailer} {frames : List Bytes} (hne : frames ≠ [])
    (hall : ∀ frame ∈ frames, Request.ofFrame? t frame = some (k.writing data)) :
    frames.foldl (heard t) mem = withUserData data mem := by
  induction frames generalizing mem with
  | nil => exact absurd rfl hne
  | cons frame frames ih =>
    obtain ⟨hfits, hroom⟩ := k.filled_fits hle hmem
    have hfirst : heard t mem frame = withUserData data mem := by
      rw [heard, hall frame List.mem_cons_self]
      exact k.applied_writing hle hmem
    rw [List.foldl_cons, hfirst]
    cases frames with
    | nil => rfl
    | cons next frames =>
      have hsame := length_withUserData (Nat.le_trans hfits hroom)
      rw [ih (hsame.trans hmem) (List.cons_ne_nil _ _)
        fun f hf => hall f (List.mem_cons_of_mem _ hf),
        withUserData_withUserData (Nat.le_trans hfits hroom)]

/-- What is read of a memory with user data are these, and behind them what was there before. -/
lemma take_userData :
    ((withUserData data mem).drop 16).take (4 * k.userPages) = filled data ++
      (mem.drop (16 + (filled data).length)).take (4 * k.userPages - (filled data).length) := by
  obtain ⟨hfits, hroom⟩ := k.filled_fits hle hmem
  rw [drop_withUserData (Nat.le_trans hfits hroom), List.take_append,
    List.take_of_length_le (by omega)]

end Memory

/-- Reading asks one question, and cuts the user data out of the reply. -/
lemma asks_read :
    AsksOnce ⟨k.reading.command, none⟩
      (fun p => (Payload.slice p k.place (4 * k.userPages)).map Finding.bytes) k.read.talk := by
  cases k with
  | ultralight => exact ((guarded_readUltralight 16 48).map Finding.bytes).asks (Nat.le_refl 64)
  | ultralightC =>
    exact ((guarded_readUltralightC 4 36 userOptions).map Finding.bytes).asks
      ⟨by decide, by decide⟩

lemma slice_report {mem : Bytes} (hmem : mem.length = 4 * k.pages) :
    Payload.slice (k.reading.report mem) k.place (4 * k.userPages) =
      .ok ((mem.drop 16).take (4 * k.userPages)) := by
  rw [Payload.slice_eq_ok_iff]
  cases k with
  | ultralight => exact ⟨Nat.le_of_eq hmem.symm, rfl⟩
  | ultralightC =>
    have hlen : ((mem.drop 16).take 144).length = 144 := by
      rw [List.length_take, List.length_drop, hmem]
      rfl
    have hall : ((mem.drop 16).take 144).take 144 = (mem.drop 16).take 144 :=
      List.take_of_length_le (Nat.le_of_eq hlen)
    exact ⟨Nat.le_of_eq hlen.symm, hall.symm⟩

/-- The user data are cut out of what the reader reports of a memory. -/
lemma result_read {mem : Bytes} (hmem : mem.length = 4 * k.pages) (e : Engine σ) (s : σ)
    (hreport : (e.serve ⟨k.reading.command, none⟩ s).result = .ok (k.reading.report mem)) :
    (e.conduct k.read.talk s).result = .ok (.bytes ((mem.drop 16).take (4 * k.userPages))) := by
  rw [((k.asks_read).conduct e s).1, hreport]
  show (Payload.slice (k.reading.report mem) k.place (4 * k.userPages)).map Finding.bytes = _
  rw [k.slice_report hmem]
  rfl

/-- **User data land where there is room for them.**  For one kind of Ultralight tags as for the
other, let there be some data, no more than there is room for, and a memory of the size of the tag.
Then whatever the reader, the link and the trailer are, writing the data sends something if and only
if the command fits a frame.  Every frame that is sent carries a request that chooses pages of user
data only, and applied to the memory, one request or any number of retries puts the data from the
fifth page on, fills their last page up with zeros and leaves all other bytes as they were.  Reading
the user data from a reader that reports this memory yields the data, the zeros and the old rest. -/
theorem userData_lands {data mem : Bytes} (hpos : 1 ≤ data.length)
    (hle : data.length ≤ 4 * k.userPages) (hmem : mem.length = 4 * k.pages) (e : Engine σ)
    (b : Iso14443b.Session) (s : σ) :
    let sent :=
      ((Operation.mifare (k.write data)).perform e.recorded b { inner := s }).1.state.frames
    (sent ≠ [] ↔ Frame.Fits e.trailer (k.writing data).command.body) ∧
      (∀ frame ∈ sent, ∃ r, Request.ofFrame? e.trailer frame = some r ∧
        (∀ page ∈ r.pages, 4 ≤ page ∧ page < 4 + k.userPages) ∧
        r.applied mem = withUserData data mem) ∧
      (sent ≠ [] → sent.foldl (heard e.trailer) mem = withUserData data mem) ∧
      ((e.serve ⟨k.reading.command, none⟩ s).result =
          .ok (k.reading.report (withUserData data mem)) →
        ((Operation.mifare k.read).perform e b s).1.result = .ok (.bytes (filled data ++
          (mem.drop (16 + (filled data).length)).take
            (4 * k.userPages - (filled data).length)))) := by
  intro sent
  obtain ⟨answer, hsent⟩ :=
    MifareOperation.transmits_of_valid (k.call?_write data) (k.valid_write hpos hle) e b s
  have hcarries : ∀ frame ∈ sent, Request.ofFrame? e.trailer frame = some (k.writing data) := by
    intro frame hframe
    obtain ⟨x, hx, hencode⟩ := hsent.exists_of_mem hframe
    obtain rfl := List.mem_singleton.1 hx
    exact Request.ofFrame?_of_encode (k.admissible_writing data) hencode
  refine ⟨⟨fun hne => ?_, fun hfits => ?_⟩, fun frame hframe => ?_,
    fun hne => k.foldl_heard hle hmem hne hcarries, fun hreport => ?_⟩
  · by_contra hnot
    exact hne (hsent.eq_nil_of_not_fits hnot)
  · exact List.ne_nil_of_mem (hsent.mem_of_encode List.mem_cons_self (Frame.encode_of_fits hfits))
  · exact ⟨_, hcarries frame hframe, fun page hpage => k.pages_writing_bounds hle hpage,
      k.applied_writing hle hmem⟩
  · obtain ⟨hfits, hroom⟩ := k.filled_fits hle hmem
    have hsize := (length_withUserData (Nat.le_trans hfits hroom)).trans hmem
    have hread := k.result_read hsize e s hreport
    rw [k.take_userData hle hmem] at hread
    have hmap := (e.conduct_map k.read.talk (fun a => (a, b)) s).1
    rw [hread] at hmap
    rw [((Operation.mifare k.read).perform_spec e b s).1]
    exact congrArg (Except.map Prod.fst) hmap

/-- Five bytes take two pages of a tag that is full of ones. -/
theorem userData_lands_fiveBytes :
    let data : Bytes := [0x01, 0x02, 0x03, 0x04, 0x05]
    let mem : Bytes := List.replicate 64 0xFF
    let mem' : Bytes :=
      List.replicate 16 0xFF ++ [0x01, 0x02, 0x03, 0x04, 0x05, 0x00, 0x00, 0x00] ++
        List.replicate 40 0xFF
    let e := Engine.granting mem'
    let sent := ((Operation.mifare (ultralight.write data)).perform e.recorded {}
      { inner := () }).1.state.frames
    (1 ≤ data.length ∧ data.length ≤ 4 * ultralight.userPages ∧
        mem.length = 4 * ultralight.pages) ∧
      sent ≠ [] ∧ sent.foldl (heard e.trailer) mem = mem' ∧
      ((Operation.mifare ultralight.read).perform e {} ()).1.result =
        .ok (.bytes ([0x01, 0x02, 0x03, 0x04, 0x05, 0x00, 0x00, 0x00] ++
          List.replicate 40 0xFF)) := by
  intro data mem mem' e
  have hpos : 1 ≤ data.length := by decide
  have hle : data.length ≤ 4 * ultralight.userPages := by decide
  have hmem : mem.length = 4 * ultralight.pages := by decide
  have hstored : withUserData data mem = mem' := by decide
  have hreport : (e.serve ⟨ultralight.reading.command, none⟩ ()).result =
      .ok (ultralight.reading.report (withUserData data mem)) := by
    rw [hstored]
    exact Engine.serve_granting (by decide) (by decide)
  obtain ⟨hsent, -, hheard, hread⟩ := userData_lands ultralight hpos hle hmem e {} ()
  have hne := hsent.2 (by decide)
  have hrest : filled data ++
      (mem.drop (16 + (filled data).length)).take
        (4 * ultralight.userPages - (filled data).length) =
      [0x01, 0x02, 0x03, 0x04, 0x05, 0x00, 0x00, 0x00] ++ List.replicate 40 0xFF := by decide
  have hfound := hread hreport
  rw [hrest] at hfound
  exact ⟨⟨hpos, hle, hmem⟩, hne, (hheard hne).trans hstored, hfound⟩

end PageTag

end Mifare
end TagReader
