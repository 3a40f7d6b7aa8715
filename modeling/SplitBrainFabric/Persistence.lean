import SplitBrainFabric.Library.FramedLog
import SplitBrainFabric.Library.Program
import SplitBrainFabric.Scope

/-! What the durable files share: the store header, the options of an open, and what
the operating system may do to an append. A file is its bytes, absent before the
first write. -/

namespace SplitBrainFabric
open Words Decoder

inductive RecordKind where
  | storeHeader | bootBegin | bootEnd | policyDefine | grantOpen | grantClose | fence
  | extentAdopt | commitRecord | interruptMark | storeIdAssign | stepAdvance | domainDefine
  | incarnationAllocate
  deriving DecidableEq

namespace RecordKind

def all : List RecordKind := [
  .storeHeader, .bootBegin, .bootEnd, .policyDefine, .grantOpen, .grantClose, .fence,
  .extentAdopt, .commitRecord, .interruptMark, .storeIdAssign, .stepAdvance, .domainDefine,
  .incarnationAllocate]

def code : RecordKind → UInt16
  | .storeHeader => 1
  | .bootBegin => 2
  | .bootEnd => 3
  | .policyDefine => 4
  | .grantOpen => 5
  | .grantClose => 6
  | .fence => 7
  | .extentAdopt => 8
  | .commitRecord => 9
  | .interruptMark => 10
  | .storeIdAssign => 11
  | .stepAdvance => 12
  | .domainDefine => 13
  | .incarnationAllocate => 14

def fromCode (code : UInt16) : Option RecordKind := all.find? (·.code = code)

@[simp] theorem fromCode_code (k : RecordKind) : fromCode k.code = some k := by cases k <;> rfl

end RecordKind

structure JournalRecord where
  kind : RecordKind := .storeHeader
  sequence : Sequence := 0
  step : Step := 0
  status : Status := .ok
  payload : Bytes := []
  deriving DecidableEq

def storeMagic : UInt32 := 0x31464253

def storeFormatVersion : UInt16 := 1

structure StoreHeader where
  magic : UInt32 := storeMagic
  formatVersion : UInt16 := storeFormatVersion
  reserved : UInt16 := 0
  storeId : StoreId := Id.empty
  createdAt : Step := 0
  createdByBoot : BootId := 0
  headerDigest : Digest256 := Digest256.zero
  deriving DecidableEq

structure StoreOpenOptions where
  createIfMissing : Bool := true
  allowTornTailRecovery : Bool := true
  openingBoot : BootId := 0

structure StoreRecoveryReport where
  created : Bool := false
  snapshotLoaded : Bool := false
  tornTailRecovered : Bool := false
  tornTailBytes : Nat := 0
  journalRecords : Nat := 0
  lastSequence : Sequence := 0
  lastStep : Step := 0

/-- Everything the checksum of a store header covers. -/
def encodeStoreHeaderBody (h : StoreHeader) : Bytes :=
  List.flatten [Writer.u32 h.magic, Writer.u16 h.formatVersion, Writer.u16 h.reserved,
    Writer.text h.storeId.value, Writer.u64 h.createdAt, Writer.u64 h.createdByBoot]

def encodeStoreHeader (h : StoreHeader) : Bytes :=
  let body := encodeStoreHeaderBody h
  let summed := body ++ Writer.u32 (crc32c body)
  summed ++ Writer.digest (Digest256.of summed)

structure RawStoreHeader where
  header : StoreHeader
  storeId : Bytes
  crc : UInt32
  crcPosition : Nat

def readStoreHeader : Reader.Read RawStoreHeader := do
  let magic ← Reader.u32
  let version ← Reader.u16
  let reserved ← Reader.u16
  let storeId ← Reader.text
  let created ← Reader.u64
  let boot ← Reader.u64
  let left ← Decoder.remaining
  let position ← Decoder.offset
  refuseIf (left < 36) (.make .corrupt .truncatedFrame (UInt64.ofNat (position + left)))
  let crc ← Reader.u32
  let digest ← Reader.digest
  pure ⟨⟨magic, version, reserved, Id.empty, created, boot, digest⟩, storeId, crc, position⟩

def decodeStoreHeader (bytes : Bytes) : Except Status StoreHeader :=
  match Reader.decode readStoreHeader bytes with
  | .error st => .error st
  | .ok raw =>
    if raw.header.magic ≠ storeMagic then
      .error (.make .corrupt .badMagic (UInt64.ofNat raw.header.magic.toNat))
    else if raw.header.formatVersion ≠ storeFormatVersion then
      .error (.make .unsupported .unsupportedVersion (UInt64.ofNat raw.header.formatVersion.toNat))
    else if crc32c (bytes.take raw.crcPosition) ≠ raw.crc then
      .error (.make .corrupt .integrityMismatch (UInt64.ofNat raw.crcPosition))
    else if Digest256.of (bytes.take (raw.crcPosition + 4)) ≠ raw.header.headerDigest then
      .error (.make .corrupt .integrityMismatch (UInt64.ofNat (raw.crcPosition + 4)))
    else
      match Id.tryMake raw.storeId with
      | none => .error (.make .corrupt .idCharset)
      | some id => .ok { raw.header with storeId := id }

def readFileBounded (file : Option Bytes) (maxBytes : Nat) : Except Status Bytes :=
  match file with
  | none => .error (.make .notFound .storeNotFound)
  | some bytes =>
    if maxBytes < bytes.length then
      .error (.make .invalid .impossibleLength (UInt64.ofNat bytes.length))
    else .ok bytes

theorem readFileBounded_ok {file : Option Bytes} {bound : Nat} {bytes : Bytes}
    (read : readFileBounded file bound = .ok bytes) :
    file = some bytes ∧ bytes.length ≤ bound := by
  unfold readFileBounded at read
  cases file with
  | none => cases read
  | some found =>
    simp only at read
    split at read
    · cases read
    · cases read
      exact ⟨rfl, by omega⟩

/-- The header of an existing store must name the store being opened; a missing one
is created when the options allow it. -/
def openHeader (header : Option Bytes) (storeId : StoreId) (options : StoreOpenOptions) :
    Except Status (Bytes × Bool) :=
  match header with
  | none =>
    if options.createIfMissing = false then .error (.make .notFound .storeNotFound)
    else .ok (encodeStoreHeader
      { storeId := storeId, createdAt := 1, createdByBoot := options.openingBoot }, true)
  | some bytes =>
    match readFileBounded (some bytes) 4096 with
    | .error st => .error st
    | .ok _ =>
      match decodeStoreHeader bytes with
      | .error st => .error st
      | .ok h => if h.storeId ≠ storeId then .error (.make .conflict .storeNotFound)
        else .ok (bytes, false)

section Headers

variable {h : StoreHeader}

theorem storeHeaderBody_length (h : StoreHeader) :
    (encodeStoreHeaderBody h).length = 26 + h.storeId.value.length := by
  simp only [encodeStoreHeaderBody, List.flatten_cons, List.flatten_nil, List.length_append,
    Writer.u32_length, Writer.u16_length, Writer.text_length, Writer.u64_length, List.length_nil]
  omega

theorem readStoreHeader_run (h : StoreHeader) (crc : UInt32) (digest : Digest256) :
    readStoreHeader.run ⟨0, encodeStoreHeaderBody h ++ (Writer.u32 crc ++ Writer.digest digest)⟩ =
      .ok (⟨{ h with storeId := Id.empty, headerDigest := digest }, h.storeId.value, crc,
        (encodeStoreHeaderBody h).length⟩,
        ⟨(encodeStoreHeaderBody h).length + 36, []⟩) := by
  have front : encodeStoreHeaderBody h ++ (Writer.u32 crc ++ Writer.digest digest) =
      Writer.u32 h.magic ++ (Writer.u16 h.formatVersion ++ (Writer.u16 h.reserved ++
        (Writer.text h.storeId.value ++ (Writer.u64 h.createdAt ++ (Writer.u64 h.createdByBoot ++
          (Writer.u32 crc ++ (Writer.digest digest ++ []))))))) := by
    simp only [encodeStoreHeaderBody, List.flatten_cons, List.flatten_nil, List.append_assoc,
      List.append_nil]
  have enough : ¬ (Writer.u32 crc ++ (Writer.digest digest ++ [])).length < 36 := by
    simp only [List.length_append, Writer.u32_length, Writer.digest_length, List.length_nil]
    omega
  have size : 0 + (Writer.u32 h.magic).length + (Writer.u16 h.formatVersion).length +
      (Writer.u16 h.reserved).length + (Writer.text h.storeId.value).length +
      (Writer.u64 h.createdAt).length + (Writer.u64 h.createdByBoot).length =
      (encodeStoreHeaderBody h).length := by
    rw [storeHeaderBody_length]
    simp only [Writer.u32_length, Writer.u16_length, Writer.text_length, Writer.u64_length]
    omega
  rw [front, readStoreHeader, (reads_u32 _).run_then, (reads_u16 _).run_then,
    (reads_u16 _).run_then, (reads_idText _).run_then, (reads_u64 _).run_then,
    (reads_u64 _).run_then, run_remaining_bind, run_offset_bind, run_refuseIf_bind _ _ enough,
    (reads_u32 _).run_then, (reads_digest _).run_then, size]
  simp only [Writer.u32_length, Writer.digest_length, Nat.add_assoc]
  rfl

/-- A header reads back as the header of the same store. -/
theorem decodeStoreHeader_encode (current : h.magic = storeMagic)
    (version : h.formatVersion = storeFormatVersion) (named : h.storeId.isEmpty = false) :
    ∃ h', decodeStoreHeader (encodeStoreHeader h) = .ok h' ∧ h'.storeId = h.storeId := by
  have image : encodeStoreHeader h = encodeStoreHeaderBody h ++
      (Writer.u32 (crc32c (encodeStoreHeaderBody h)) ++ Writer.digest (Digest256.of
        (encodeStoreHeaderBody h ++ Writer.u32 (crc32c (encodeStoreHeaderBody h))))) := by
    rw [encodeStoreHeader, List.append_assoc]
  have first : (encodeStoreHeader h).take (encodeStoreHeaderBody h).length =
      encodeStoreHeaderBody h := by
    rw [image]
    exact List.take_left
  have summed : (encodeStoreHeader h).take ((encodeStoreHeaderBody h).length + 4) =
      encodeStoreHeaderBody h ++ Writer.u32 (crc32c (encodeStoreHeaderBody h)) := by
    rw [encodeStoreHeader]
    exact List.take_left' (by rw [List.length_append, Writer.u32_length])
  have read : Reader.decode readStoreHeader (encodeStoreHeader h) = .ok
      ⟨{ h with storeId := Id.empty, headerDigest := (Digest256.of
        (encodeStoreHeaderBody h ++ Writer.u32 (crc32c (encodeStoreHeaderBody h)))) },
        h.storeId.value, crc32c (encodeStoreHeaderBody h), (encodeStoreHeaderBody h).length⟩ := by
    rw [Reader.decode, Decoder.whole, image, readStoreHeader_run]
    rfl
  refine ⟨{ h with headerDigest := (Digest256.of
    (encodeStoreHeaderBody h ++ Writer.u32 (crc32c (encodeStoreHeaderBody h)))) }, ?_, rfl⟩
  rw [decodeStoreHeader, read]
  simp only [current, version, first, summed, Id.tryMake_value named, ne_eq, not_true_eq_false,
    if_false]

theorem encodeStoreHeader_length (h : StoreHeader) : (encodeStoreHeader h).length ≤ 4096 := by
  have name := h.storeId.length_le
  simp only [encodeStoreHeader, List.length_append, storeHeaderBody_length, Writer.u32_length,
    Writer.digest_length]
  omega

/-- The header an open has created or accepted is accepted again. -/
theorem openHeader_again {file : Option Bytes} {storeId : StoreId} {options again : StoreOpenOptions}
    {header : Bytes} {created : Bool} (named : storeId.isEmpty = false)
    (opened : openHeader file storeId options = .ok (header, created)) :
    openHeader (some header) storeId again = .ok (header, false) := by
  unfold openHeader at opened
  cases file with
  | none =>
    simp only at opened
    split at opened
    · cases opened
    · cases opened
      obtain ⟨h', read, same⟩ := decodeStoreHeader_encode (h := {
        storeId := storeId, createdAt := 1, createdByBoot := options.openingBoot }) rfl rfl named
      have short := encodeStoreHeader_length {
        storeId := storeId, createdAt := 1, createdByBoot := options.openingBoot }
      simp only [openHeader, readFileBounded, if_neg (Nat.not_lt.mpr short), read]
      exact if_neg (not_not.mpr same)
  | some bytes =>
    simp only at opened
    split at opened
    · cases opened
    · rename_i loaded
      split at opened
      · cases opened
      · rename_i h read
        split at opened
        · cases opened
        · rename_i same
          cases opened
          simp only [openHeader, loaded, read, if_neg same]

end Headers

/-- The largest file offset of the platform; a write beyond it is short. -/
def maxFileBytes : Nat := 2 ^ 63 - 1

/-- What becomes of one framed append. The number is how many bytes of the frame
reach the file although the call reports a failure. -/
inductive AppendIo where
  | done
  | headShort (reached : Nat)
  | payloadShort (reached : Nat)
  | flushFailed (reached : Nat) (stage : UInt64)
  deriving DecidableEq

namespace AppendIo

def settle (io : AppendIo) (size : Nat) (frame : Bytes) : AppendIo :=
  match io with
  | .done => if maxFileBytes < size + frame.length then .payloadShort 0 else .done
  | failed => failed

def reached (frame : Bytes) : AppendIo → Bytes
  | .done => frame
  | .headShort n => frame.take n
  | .payloadShort n => frame.take n
  | .flushFailed n _ => frame.take n

theorem done_settles {size : Nat} {frame : Bytes} (room : size + frame.length ≤ maxFileBytes) :
    done.settle size frame = .done := if_neg (Nat.not_lt.mpr room)

theorem settle_done {io : AppendIo} {size : Nat} {frame : Bytes}
    (fine : io.settle size frame = .done) : size + frame.length ≤ maxFileBytes := by
  cases io with
  | done =>
    by_contra large
    simp only [settle, if_pos (Nat.lt_of_not_le large)] at fine
    cases fine
  | headShort _ => cases fine
  | payloadShort _ => cases fine
  | flushFailed _ _ => cases fine

end AppendIo
end SplitBrainFabric
