/-
# Reading requests back

The commands of the library form a language: a request and its arguments become the body of a
command, and a reader takes that apart by its control byte and its code, and then by what stands
before the rest.  This file writes such a reader down, one function for each family, and shows
that it finds in the body of every command the request that was made into it
(`Query.ofBody?_body`).

So no two requests share a body, unless they send the same: the data of a write to a tag of ST are
cut or padded before they are sent (`Query.transmitted`).
-/
import TagReader.Proofs.Framing
import TagReader.Proofs.Questions

namespace TagReader

variable {σ : Type}

/-! ## Numbers and octets in front -/

namespace Bytes

/-- The number whose bytes are given low byte first. -/
def value : Bytes → Nat
  | [] => 0
  | b :: bs => b.toNat + 256 * value bs

lemma value_ofWord16 (w : UInt16) : value (ofWord16 w) = w.toNat := by
  have hw := w.toNat_lt
  simp [value, ofWord16, Nat.shiftRight_eq_div_pow]
  omega

lemma value_ofInt32 (v : Int32) : value (ofInt32 v) = v.toUInt32.toNat := by
  have hv := v.toUInt32.toNat_lt
  simp only [value, ofInt32, UInt32.toNat_toUInt8, UInt32.toNat_shiftRight,
    Nat.shiftRight_eq_div_pow]
  simp
  omega

end Bytes

namespace Octets

variable {n : Nat}

/-- The first `n` bytes, and the rest. -/
def split? (n : Nat) (bs : Bytes) : Option (Octets n × Bytes) :=
  (ofBytes? n (bs.take n)).map fun o => (o, bs.drop n)

lemma split?_append (o : Octets n) (rest : Bytes) :
    split? n (o.bytes ++ rest) = some (o, rest) := by
  rw [split?, List.take_left' o.length_eq, List.drop_left' o.length_eq, ofBytes?_bytes]
  rfl

/-- So many octets one after the other, and nothing else. -/
def list? (n : Nat) : Nat → Bytes → Option (List (Octets n))
  | 0, [] => some []
  | 0, _ :: _ => none
  | k + 1, bs => do
    let (o, rest) ← split? n bs
    let os ← list? n k rest
    some (o :: os)

lemma list?_flatMap (os : List (Octets n)) :
    list? n os.length (os.flatMap Octets.bytes) = some os := by
  induction os with
  | nil => rfl
  | cons o os ih =>
    rw [List.flatMap_cons, List.length_cons, list?, split?_append]
    show (list? n os.length (os.flatMap Octets.bytes)).bind _ = _
    rw [ih]
    rfl

end Octets

namespace Command

variable (c : Command)

lemma bytes_nil : c.bytes [] = c := by
  rw [bytes, List.append_nil]

lemma bytes_bytes (bs bs' : Bytes) : (c.bytes bs).bytes bs' = c.bytes (bs ++ bs') := by
  rw [bytes, bytes, bytes, List.append_assoc]

end Command

/-! ## Requests from commands -/

/-- The request for which a command to the reader itself was made. -/
def Reader.Request.ofCommand? (c : Command) : Option Reader.Request :=
  match c.code, c.params with
  | 0x01, [] => some version
  | 0x02, [] => some serial
  | _, _ => none

lemma Reader.Request.ofCommand?_command (r : Reader.Request) :
    ofCommand? r.command = some r := by
  cases r <;> rfl

/-- The slot with a given number. -/
def KeySlot.ofIndex? (index : UInt8) : Option KeySlot :=
  if h : index ≤ 31 then some ⟨index, h⟩ else none

lemma KeySlot.ofIndex?_index (slot : KeySlot) : ofIndex? slot.index = some slot :=
  dif_pos slot.index_le

namespace Iso14443a.Request

/-- The request for a raw message, behind the byte that counts it. -/
def ofMessage? (layer : Layer) (message : Bytes) : Option Request :=
  if short : message.length < 256 then some (passThrough layer message short) else none

/-- The request for which a command for ISO14443A tags was made. -/
def ofCommand? (c : Command) : Option Request :=
  match c.code, c.params with
  | 0x90, [] => some activateIdle
  | 0x91, uid => some (activateWakeup ⟨uid⟩)
  | 0x19, key => (Octets.ofBytes? 6 key).map loadKey
  | 0x0B, [index] => (KeySlot.ofIndex? index).map loadStoredKey
  | 0x0C, index :: key => do
    storeKey (← KeySlot.ofIndex? index) (← Octets.ofBytes? 6 key)
  | 0x60, block :: uid => some (authenticate .a block ⟨uid⟩)
  | 0x61, block :: uid => some (authenticate .b block ⟨uid⟩)
  | 0x30, [block] => some (readBlock block)
  | 0xA0, block :: data => (Octets.ofBytes? 16 data).map (writeBlock block)
  | 0xA2, page :: data => (Octets.ofBytes? 4 data).map (writePage page)
  | 0xC1, mode :: block :: amount =>
    some (changeValue .increment (mode == 0) block (UInt32.ofNat (Bytes.value amount)).toInt32)
  | 0xC0, mode :: block :: amount =>
    some (changeValue .decrement (mode == 0) block (UInt32.ofNat (Bytes.value amount)).toInt32)
  | 0xB0, [block] => some (transfer block)
  | 0x50, [] => some halt
  | 0xD0, [] => some listCards
  | 0x26, [] => some reqA
  | 0x52, [] => some wupA
  | 0x93, [0x00] => some anticollision
  | 0x93, 0x70 :: uid => (Octets.ofBytes? 4 uid).map select
  | 0xE0, [] => some rats
  | 0xD1, _ :: message => ofMessage? .three message
  | 0xD2, _ :: message => ofMessage? .four message
  | _, _ => none

lemma ofMessage?_message (layer : Layer) {message : Bytes} (short : message.length < 256) :
    ofMessage? layer message = some (passThrough layer message short) :=
  dif_pos short

lemma amount_of_bytes (amount : Int32) :
    (UInt32.ofNat (Bytes.value (Bytes.ofInt32 amount))).toInt32 = amount := by
  rw [Bytes.value_ofInt32, UInt32.ofNat_toNat]
  rfl

lemma ofCommand?_command (r : Request) : ofCommand? r.command = some r := by
  cases r with
  | loadKey key => exact congrArg (Option.map loadKey) key.ofBytes?_bytes
  | loadStoredKey slot => exact congrArg (Option.map loadStoredKey) slot.ofIndex?_index
  | storeKey slot key =>
    show ((KeySlot.ofIndex? slot.index).bind fun i =>
      (Octets.ofBytes? 6 key.bytes).bind fun k => some (storeKey i k)) = _
    rw [slot.ofIndex?_index, key.ofBytes?_bytes]
    rfl
  | authenticate side block uid => cases side <;> rfl
  | writeBlock block data => exact congrArg (Option.map (writeBlock block)) data.ofBytes?_bytes
  | writePage page data => exact congrArg (Option.map (writePage page)) data.ofBytes?_bytes
  | changeValue change store block amount =>
    have hamount := congrArg (fun v => some (changeValue change store block v))
      (amount_of_bytes amount)
    cases change <;> cases store <;> exact hamount
  | select uid => exact congrArg (Option.map select) uid.ofBytes?_bytes
  | passThrough layer message short =>
    cases layer with
    | three => exact ofMessage?_message .three short
    | four => exact ofMessage?_message .four short
  | _ => rfl

end Iso14443a.Request

namespace Iso14443b

/-- The size of a block that a byte stands for. -/
def BlockSize.ofByte? : UInt8 → Option BlockSize
  | 2 => some two
  | 4 => some four
  | _ => none

namespace Request

/-- The request for which a command for ISO14443B tags was made. -/
def ofCommand? (c : Command) : Option Request :=
  match c.control, c.params with
  | 0xC0, [family] => some (reqB family)
  | 0xC1, [0x0E] => some select
  | 0xC1, [0x0B] => some uid
  | 0xC1, [0x88, first, n] => some (read first n)
  | 0xC1, 0x89 :: first :: n :: size :: data => do
    some (write first n (← BlockSize.ofByte? size) data)
  | 0xC1, [0x0F] => some completion
  | 0xC1, [0x18] => some protection
  | 0xC1, [0x19, chip, lock] => some (protect chip lock)
  | _, _ => none

/-- The request whose data are the ones that are sent. -/
def transmitted : Request → Request
  | write first n size data => write first n size (blockData n size data)
  | r => r

lemma ofCommand?_command (r : Request) : ofCommand? r.command = some r.transmitted := by
  cases r with
  | write first n size data => cases size <;> rfl
  | _ => rfl

end Request
end Iso14443b

namespace Iso15693.Request

/-- The request to one tag, by its code and what follows the address. -/
def ofAddressed? (tag : Address) : UInt8 → Bytes → Option Request
  | 0x02, [] => some (stayQuiet tag)
  | 0x20, [block] => some (readBlock tag block)
  | 0x21, block :: data => some (writeBlock tag block data)
  | 0x22, [block] => some (lockBlock tag block)
  | 0x23, [first, further] => some (readBlocks tag first further)
  | 0x2B, [] => some (systemInformation tag)
  | _, _ => none

/-- The request for which a command for ISO15693 tags was made. -/
def ofCommand? (c : Command) : Option Request :=
  match c.code, c.params with
  | 0x80, [0x01] => some inventory
  | 0xA0, code :: rest => (Octets.split? 8 rest).bind fun (tag, rest) => ofAddressed? tag code rest
  | _, _ => none

lemma ofCommand?_addressed (code : UInt8) (tag : Address) (rest : Bytes) :
    ofCommand? ((Iso15693.command code tag).bytes rest) = ofAddressed? tag code rest := by
  show (Octets.split? 8 (tag.bytes ++ rest)).bind _ = _
  rw [Octets.split?_append]
  rfl

lemma ofCommand?_command (r : Request) : ofCommand? r.command = some r := by
  cases r with
  | inventory => rfl
  | stayQuiet tag =>
    rw [Request.command, ← Command.bytes_nil (Iso15693.command 0x02 tag), ofCommand?_addressed]
    rfl
  | readBlock tag block => exact ofCommand?_addressed 0x20 tag [block]
  | writeBlock tag block data =>
    rw [Request.command, Command.byte, Command.bytes_bytes, ofCommand?_addressed]
    rfl
  | lockBlock tag block => exact ofCommand?_addressed 0x22 tag [block]
  | readBlocks tag first further =>
    rw [Request.command, Command.byte, Command.byte, Command.bytes_bytes, ofCommand?_addressed]
    rfl
  | systemInformation tag =>
    rw [Request.command, ← Command.bytes_nil (Iso15693.command 0x2B tag), ofCommand?_addressed]
    rfl

end Iso15693.Request

namespace Icode

/-- The password that a byte stands for. -/
def PasswordId.ofByte? : UInt8 → Option PasswordId
  | 0x01 => some read
  | 0x02 => some write
  | 0x04 => some privacy
  | 0x08 => some destroy
  | 0x10 => some eas
  | _ => none

lemma PasswordId.ofByte?_byte (id : PasswordId) : ofByte? id.byte = some id := by
  cases id <;> rfl

/-- The protection that a byte stands for. -/
def Protection.ofByte? : UInt8 → Option Protection
  | 0x00 => some .unprotected
  | 0x01 => some .readWriteByRead
  | 0x10 => some .writeByWrite
  | 0x11 => some .readAndWrite
  | _ => none

lemma Protection.ofByte?_byte (p : Protection) : ofByte? p.byte = some p := by
  cases p <;> rfl

namespace Request

/-- The request to one tag, or to whatever tag is there, by its code and what follows. -/
def ofTarget? : Option Iso15693.Address → UInt8 → Bytes → Option Request
  | tag, 0xB2, [] => some (random tag)
  | tag, 0xB3, id :: masked =>
    (PasswordId.ofByte? id).bind fun id => (Octets.ofBytes? 4 masked).map (present tag id)
  | some tag, 0xB4, id :: password =>
    (PasswordId.ofByte? id).bind fun id => (Octets.ofBytes? 4 password).map (replace tag id)
  | some tag, 0xB5, [id] => (PasswordId.ofByte? id).map (lockPassword tag)
  | some tag, 0xB6, [page, protection] => (Protection.ofByte? protection).map (protectPage tag page)
  | some tag, 0xB7, [page] => some (lockPage tag page)
  | some tag, 0xB8, [first, n] => some (blockStatus tag first n)
  | some tag, 0xB9, [] => some (destroy tag)
  | some tag, 0xBA, [] => some (hide tag)
  | some tag, 0xBB, [] => some (joinPasswords tag)
  | _, _, _ => none

/-- The request for which a command for ICODE tags was made; the request mode says whether there
is an address. -/
def ofCommand? (c : Command) : Option Request :=
  match c.code, c.params with
  | 0x80, code :: _ :: rest => ofTarget? none code rest
  | 0xA0, code :: _ :: rest =>
    (Octets.split? 8 rest).bind fun (tag, rest) => ofTarget? (some tag) code rest
  | _, _ => none

lemma ofCommand?_target (code : UInt8) (tag : Option Iso15693.Address) (rest : Bytes) :
    ofCommand? ((Icode.command code tag).bytes rest) = ofTarget? tag code rest := by
  cases tag with
  | none => rfl
  | some tag =>
    show (Octets.split? 8 (tag.bytes ++ rest)).bind _ = _
    rw [Octets.split?_append]
    rfl

lemma ofCommand?_command (r : Request) : ofCommand? r.command = some r := by
  cases r with
  | random tag =>
    rw [Request.command, ← Command.bytes_nil (Icode.command 0xB2 tag), ofCommand?_target]
    cases tag <;> rfl
  | present tag id masked =>
    rw [Request.command, Command.byte, Command.bytes_bytes, ofCommand?_target]
    show ((PasswordId.ofByte? id.byte).bind fun id =>
      (Octets.ofBytes? 4 masked.bytes).map (present tag id)) = _
    rw [id.ofByte?_byte, masked.ofBytes?_bytes]
    rfl
  | replace tag id password =>
    rw [Request.command, Command.byte, Command.bytes_bytes, ofCommand?_target]
    show ((PasswordId.ofByte? id.byte).bind fun id =>
      (Octets.ofBytes? 4 password.bytes).map (replace tag id)) = _
    rw [id.ofByte?_byte, password.ofBytes?_bytes]
    rfl
  | lockPassword tag id =>
    rw [Request.command, Command.byte, ofCommand?_target]
    exact congrArg (Option.map (lockPassword tag)) id.ofByte?_byte
  | protectPage tag page protection =>
    rw [Request.command, Command.byte, Command.byte, Command.bytes_bytes, ofCommand?_target]
    exact congrArg (Option.map (protectPage tag page)) protection.ofByte?_byte
  | lockPage tag page => exact ofCommand?_target 0xB7 (some tag) [page]
  | blockStatus tag first n =>
    rw [Request.command, Command.byte, Command.byte, Command.bytes_bytes, ofCommand?_target]
    rfl
  | destroy tag =>
    rw [Request.command, ← Command.bytes_nil (Icode.command 0xB9 (some tag)), ofCommand?_target]
    rfl
  | hide tag =>
    rw [Request.command, ← Command.bytes_nil (Icode.command 0xBA (some tag)), ofCommand?_target]
    rfl
  | joinPasswords tag =>
    rw [Request.command, ← Command.bytes_nil (Icode.command 0xBB (some tag)), ofCommand?_target]
    rfl

end Request
end Icode

namespace Mifare

/-- The options that a byte stands for. -/
def Options.ofByte? : UInt8 → Option Options
  | 0 => some ⟨false, false⟩
  | 1 => some ⟨true, false⟩
  | 2 => some ⟨false, true⟩
  | 3 => some ⟨true, true⟩
  | _ => none

lemma Options.ofByte?_byte (o : Options) : ofByte? o.byte = some o := by
  rcases o with ⟨_ | _, _ | _⟩ <;> rfl

namespace SectorAuth

/-- A key that comes with the command, and what follows it. -/
def explicit? (side : KeySide) (bs : Bytes) : Option (SectorAuth × Bytes) :=
  (Octets.split? 6 bs).map fun x => (⟨side, some (.explicit x.1)⟩, x.2)

/-- A slot in the place of a key, and what follows it. -/
def stored? (side : KeySide) : Bytes → Option (SectorAuth × Bytes)
  | index :: rest => (KeySlot.ofIndex? index).map fun slot => (⟨side, some (.stored slot)⟩, rest)
  | [] => none

/-- The key of a sector macro in the bytes behind its mask, and what follows it.  The flags say
where the key is, and so how many bytes it takes. -/
def ofImage? (flags : UInt8) (bs : Bytes) : Option (SectorAuth × Bytes) :=
  match flags with
  | 0x00 => some (⟨.a, none⟩, bs)
  | 0x40 => some (⟨.b, none⟩, bs)
  | 0x80 => explicit? .a bs
  | 0xC0 => explicit? .b bs
  | 0x90 => stored? .a bs
  | 0xD0 => stored? .b bs
  | _ => none

lemma flags_explicit (side : KeySide) (key : SectorKey) :
    flags ⟨side, some (.explicit key)⟩ = if side = .a then 0x80 else 0xC0 := by
  cases side with
  | a => exact (by decide : (0x00 : UInt8) ||| 0x80 = 0x80)
  | b => exact (by decide : (0x40 : UInt8) ||| 0x80 = 0xC0)

lemma flags_stored (side : KeySide) (slot : KeySlot) :
    flags ⟨side, some (.stored slot)⟩ = if side = .a then 0x90 else 0xD0 := by
  cases side with
  | a => exact (by decide : (0x00 : UInt8) ||| 0x90 = 0x90)
  | b => exact (by decide : (0x40 : UInt8) ||| 0x90 = 0xD0)

lemma ofImage?_image (auth : SectorAuth) (rest : Bytes) :
    ofImage? auth.flags (auth.image ++ rest) = some (auth, rest) := by
  rcases auth with ⟨side, _ | key | slot⟩
  · cases side <;> rfl
  · have hkey : explicit? side (key.bytes ++ rest) =
        some (⟨side, some (.explicit key)⟩, rest) := by
      rw [explicit?, Octets.split?_append]
      rfl
    rw [flags_explicit]
    cases side <;> exact hkey
  · have hslot : stored? side (slot.index :: rest) =
        some (⟨side, some (.stored slot)⟩, rest) := by
      rw [stored?, slot.ofIndex?_index]
      rfl
    rw [flags_stored]
    cases side <;> exact hslot

end SectorAuth

namespace Request

/-- The request for which a macro was made. -/
def ofCommand? (c : Command) : Option Request :=
  match c.code, c.params with
  | 0x22, [] => some readUltralight
  | 0x21, lo :: hi :: data => some (writeUltralight (UInt16.ofNat (Bytes.value [lo, hi])) data)
  | 0x24, [options, first, n] =>
    (Options.ofByte? options).map fun o => readUltralightC o first n
  | 0x23, options :: first :: n :: data =>
    (Options.ofByte? options).map fun o => writeUltralightC o first n data
  | 0x42, sector :: flags :: lo :: hi :: rest =>
    (SectorAuth.ofImage? flags rest).map fun x =>
      readSector sector x.1 (UInt16.ofNat (Bytes.value [lo, hi]))
  | 0x41, sector :: flags :: lo :: hi :: rest =>
    (SectorAuth.ofImage? flags rest).map fun x =>
      writeSector sector x.1 (UInt16.ofNat (Bytes.value [lo, hi])) x.2
  | 0x43, params =>
    (Octets.list? 16 ((params.length - 5) / 16) (params.drop 5)).map
      (writeTrailers (UInt64.ofNat (Bytes.value (params.take 5))))
  | _, _ => none

/-- The mask of a request chooses among the sectors that a tag has. -/
def Admissible : Request → Prop
  | writeTrailers mask _ => mask.toNat < 1 <<< maxSectors
  | _ => True

lemma mask_of_bytes (mask : UInt16) :
    UInt16.ofNat (Bytes.value (Bytes.ofWord16 mask)) = mask := by
  rw [Bytes.value_ofWord16, UInt16.ofNat_toNat]

lemma sectors_of_bytes {mask : UInt64} (h : mask.toNat < 1 <<< maxSectors) :
    UInt64.ofNat (Bytes.value (sectorMask mask)) = mask := by
  have hsmall : mask.toNat < 1099511627776 := h
  have hvalue : Bytes.value (sectorMask mask) = mask.toNat := by
    simp [sectorMask, Bytes.value, Nat.shiftRight_eq_div_pow]
    omega
  rw [hvalue, UInt64.ofNat_toNat]

lemma ofCommand?_command {r : Request} (h : r.Admissible) : ofCommand? r.command = some r := by
  cases r with
  | readUltralight => rfl
  | writeUltralight mask data =>
    exact congrArg (fun m => some (writeUltralight m data)) (mask_of_bytes mask)
  | readUltralightC options first n =>
    exact congrArg (Option.map fun o => readUltralightC o first n) options.ofByte?_byte
  | writeUltralightC options first n data =>
    exact congrArg (Option.map fun o => writeUltralightC o first n data) options.ofByte?_byte
  | readSector sector auth mask =>
    have himage := auth.ofImage?_image []
    rw [List.append_nil] at himage
    show ((SectorAuth.ofImage? auth.flags auth.image).map fun x =>
      readSector sector x.1 (UInt16.ofNat (Bytes.value (Bytes.ofWord16 mask)))) = _
    rw [himage, mask_of_bytes]
    rfl
  | writeSector sector auth mask data =>
    show ((SectorAuth.ofImage? auth.flags (auth.image ++ data)).map fun x =>
      writeSector sector x.1 (UInt16.ofNat (Bytes.value (Bytes.ofWord16 mask))) x.2) = _
    rw [auth.ofImage?_image, mask_of_bytes]
    rfl
  | writeTrailers mask trailers =>
    have hcount : (5 + 16 * trailers.length - 5) / 16 = trailers.length := by omega
    have htrailers := congrArg (Option.map (writeTrailers mask)) (Octets.list?_flatMap trailers)
    -- How many trailers follow the mask is known from the length of the whole.
    show ((Octets.list? 16 (((sectorMask mask ++ trailers.flatMap Octets.bytes).length - 5) / 16)
      (trailers.flatMap Octets.bytes)).map
        (writeTrailers (UInt64.ofNat (Bytes.value (sectorMask mask))))) = _
    rw [List.length_append, Bytes.length_flatMap Octets.length_eq, sectors_of_bytes h,
      show (sectorMask mask).length = 5 from rfl, hcount]
    exact htrailers

end Request
end Mifare

namespace Query

/-- The request for which a command was made; the control byte tells the families apart. -/
def ofCommand? (c : Command) : Option Query :=
  match c.control with
  | 0x00 => (Reader.Request.ofCommand? c).map reader
  | 0x04 => (Mifare.Request.ofCommand? c).map mifare
  | 0xA0 => (Iso14443a.Request.ofCommand? c).map iso14443a
  | 0xB0 => (Iso15693.Request.ofCommand? c).map iso15693
  | 0xB1 => (Icode.Request.ofCommand? c).map icode
  | 0xC0 => (Iso14443b.Request.ofCommand? c).map iso14443b
  | 0xC1 => (Iso14443b.Request.ofCommand? c).map iso14443b
  | 0xC2 => some (picopass .selectUid)
  | _ => none

/-- The request for which the body of a command was made. -/
def ofBody? : Bytes → Option Query
  | control :: code :: params => ofCommand? ⟨control, code, params⟩
  | _ => none

/-- What is sent for a request, as a request. -/
def transmitted : Query → Query
  | iso14443b r => iso14443b r.transmitted
  | q => q

/-- The arguments of the request are ones that its command can take. -/
def Admissible : Query → Prop
  | mifare r => r.Admissible
  | _ => True

/-- The body of a command gives its request back. -/
theorem ofBody?_body {q : Query} (h : q.Admissible) :
    ofBody? q.command.body = some q.transmitted := by
  show ofCommand? q.command = _
  unfold ofCommand?
  cases q with
  | reader r =>
    have hcontrol : (reader r).command.control = 0x00 := by cases r <;> rfl
    rw [hcontrol]
    exact congrArg (Option.map reader) r.ofCommand?_command
  | iso14443a r =>
    have hcontrol : (iso14443a r).command.control = 0xA0 := by
      rcases r <;> first | rfl | (rename_i side _ _; cases side <;> rfl)
    rw [hcontrol]
    exact congrArg (Option.map iso14443a) r.ofCommand?_command
  | iso14443b r =>
    have hcommand := congrArg (Option.map iso14443b) r.ofCommand?_command
    cases r <;> exact hcommand
  | iso15693 r =>
    have hcontrol : (iso15693 r).command.control = 0xB0 := by cases r <;> rfl
    rw [hcontrol]
    exact congrArg (Option.map iso15693) r.ofCommand?_command
  | icode r =>
    have hcontrol : (icode r).command.control = 0xB1 := by
      rcases r with ⟨_ | _⟩ | ⟨_ | _, _, _⟩ | _ | _ | _ | _ | _ | _ | _ | _ <;> rfl
    rw [hcontrol]
    exact congrArg (Option.map icode) r.ofCommand?_command
  | picopass r => cases r; rfl
  | mifare r =>
    have hcontrol : (mifare r).command.control = 0x04 := by cases r <;> rfl
    rw [hcontrol]
    exact congrArg (Option.map mifare) (Mifare.Request.ofCommand?_command h)

end Query

/-! ## Optional parts -/

/-- The flags tell the bytes of a key from the data behind them. -/
lemma Mifare.SectorAuth.image_append_inj {auth auth' : SectorAuth} {data data' : Bytes}
    (hflags : auth.flags = auth'.flags) (h : auth.image ++ data = auth'.image ++ data') :
    auth = auth' ∧ data = data' := by
  have hread := auth.ofImage?_image data
  rw [hflags, h, ofImage?_image] at hread
  exact Prod.mk.inj (Option.some.inj hread.symm)

/-- The request mode tells an address from the data behind it. -/
lemma Icode.command_bytes_inj {code code' : UInt8} {tag tag' : Option Iso15693.Address}
    {rest rest' : Bytes}
    (h : (Icode.command code tag).bytes rest = (Icode.command code' tag').bytes rest') :
    code = code' ∧ tag = tag' ∧ rest = rest' := by
  obtain ⟨-, hmode, hparams⟩ := Command.mk.inj h
  rcases tag with _ | ⟨a, ha⟩ <;> rcases tag' with _ | ⟨a', ha'⟩
  · obtain ⟨hcode, hrest⟩ := List.cons.inj hparams
    exact ⟨hcode, rfl, (List.cons.inj hrest).2⟩
  -- One carries an address and the other does not, and that is what the mode says.
  · exact absurd hmode (by decide : Iso15693.unaddressed ≠ Iso15693.addressed)
  · exact absurd hmode (by decide : Iso15693.addressed ≠ Iso15693.unaddressed)
  · obtain ⟨hcode, hbehind⟩ := List.cons.inj hparams
    have happend : a ++ rest = a' ++ rest' := (List.cons.inj hbehind).2
    obtain ⟨rfl, hrest⟩ := List.append_inj happend (ha.trans ha'.symm)
    exact ⟨hcode, rfl, hrest⟩

/-! ## All requests -/

lemma Operation.admissible_of_sends {b : Iso14443b.Session} {op : Operation} {q : Query}
    (h : op.Sends b q) : q.Admissible := by
  cases q with
  | mifare r =>
    cases op with
    | mifare op =>
      cases op with
      | writeTrailers mask trailers =>
        obtain ⟨hmask, rfl⟩ := h
        exact hmask
      | authenticateUltralightC key nonce => exact absurd h id
      | _ =>
        obtain rfl := h
        trivial
    | _ => exact absurd h id
  | _ => trivial

namespace Query

/-- **Every command can be read back.**  Requests whose commands have the same body send the same:
they are the same command with the same arguments, where the data of a write to a tag of ST count as
they are sent.  One reader of bodies finds them all, for every request of every operation, and what
an operation sends are the frames of its requests.  Within a body, the flags tell a key from the
data behind it, and the request mode an address. -/
theorem uniquely_decodable :
    (∀ q q' : Query, q.Admissible → q'.Admissible → q.command.body = q'.command.body →
      q.transmitted = q'.transmitted) ∧
    (∀ (op : Operation) (b : Iso14443b.Session) (q : Query), op.Sends b q →
      q.Admissible ∧ ofBody? q.command.body = some q.transmitted) ∧
    (∀ {σ : Type} (e : Engine σ) (op : Operation) (b : Iso14443b.Session) (s : σ), ¬op.Plain →
      ∀ frame ∈ (op.perform e.recorded b { inner := s }).1.state.frames,
        ∃ q, op.Sends b q ∧ Frame.encode e.trailer q.command.body = .ok frame) ∧
    (∀ (auth auth' : Mifare.SectorAuth) (data data' : Bytes), auth.flags = auth'.flags →
      auth.image ++ data = auth'.image ++ data' → auth = auth' ∧ data = data') ∧
    ∀ (code code' : UInt8) (tag tag' : Option Iso15693.Address) (rest rest' : Bytes),
      (Icode.command code tag).bytes rest = (Icode.command code' tag').bytes rest' →
        code = code' ∧ tag = tag' ∧ rest = rest' := by
  refine ⟨fun q q' hq hq' hbody => ?_, fun op b q hq => ?_, fun e op b s hplain frame hmem => ?_,
    fun auth auth' data data' => Mifare.SectorAuth.image_append_inj,
    fun code code' tag tag' rest rest' => Icode.command_bytes_inj⟩
  · have hread := ofBody?_body hq
    rw [hbody, ofBody?_body hq'] at hread
    exact (Option.some.inj hread).symm
  · have hadmissible := Operation.admissible_of_sends hq
    exact ⟨hadmissible, ofBody?_body hadmissible⟩
  · exact Operation.exists_query_of_sent hplain s hmem

end Query

end TagReader
