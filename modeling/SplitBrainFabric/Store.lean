import SplitBrainFabric.Persistence

/-! The journal and its snapshot: what is written, what an open accepts, and what a
replay hands out. -/

namespace SplitBrainFabric
open Words Decoder

namespace JournalRecord

def encode (r : JournalRecord) : Bytes :=
  List.flatten [Writer.u16 r.kind.code, Writer.u64 r.sequence, Writer.u64 r.step,
    Writer.outcome r.status.outcome, Writer.reason r.status.reason, Writer.u64 r.status.aux,
    Writer.blob r.payload]

/-- A record before its kind and its sequence are looked at. -/
structure Raw where
  kind : UInt16
  sequence : Sequence
  step : Step
  status : Status
  payload : Bytes

def readRaw : Reader.Read Raw := do
  let kind ← Reader.u16
  let sequence ← Reader.u64
  let step ← Reader.u64
  let outcome ← Reader.outcome
  let reason ← Reader.reason
  let aux ← Reader.u64
  let payload ← Reader.blob
  pure ⟨kind, sequence, step, ⟨outcome, reason, aux⟩, payload⟩

def decode (bytes : Bytes) : Except Status JournalRecord :=
  match Reader.decode readRaw bytes with
  | .error st => .error st
  | .ok raw =>
    match RecordKind.fromCode raw.kind with
    | none => .error (.make .invalid .invalidEnum (UInt64.ofNat raw.kind.toNat))
    | some kind =>
      if raw.sequence = 0 then .error (.make .invalid .valueOutOfRange)
      else .ok ⟨kind, raw.sequence, raw.step, raw.status, raw.payload⟩

theorem encode_length (r : JournalRecord) : r.encode.length = 34 + r.payload.length := by
  simp only [encode, List.flatten_cons, List.flatten_nil, List.length_append, Writer.u16_length,
    Writer.u64_length, Writer.outcome_length, Writer.reason_length, Writer.blob_length,
    List.length_nil]
  omega

theorem decode_encode {r : JournalRecord} (numbered : r.sequence ≠ 0)
    (fits : r.payload.length ≤ Limits.maxSnapshotBytes) : decode r.encode = .ok r := by
  have raw : Reads readRaw r.encode ⟨r.kind.code, r.sequence, r.step, r.status, r.payload⟩ :=
    .field (reads_u16 _) <| .field (reads_u64 _) <| .field (reads_u64 _) <|
    .field (reads_outcome _) <| .field (reads_reason _) <| .field (reads_u64 _) <|
    .field (reads_blob fits) <| Reads.pure _
  have read : Reader.decode readRaw r.encode = .ok _ := raw.whole
  simp only [decode, read, RecordKind.fromCode_code, if_neg numbered]

theorem decode_numbered {bytes : Bytes} {r : JournalRecord} (read : decode bytes = .ok r) :
    r.sequence ≠ 0 := by
  unfold decode at read
  split at read
  · cases read
  · split at read
    · cases read
    · split at read
      · cases read
      · rename_i numbered
        cases read
        exact numbered

end JournalRecord

/-- Frames of the journal, with the statuses its reader reports. -/
def journalFormat : LogFormat Status JournalRecord where
  maxLength := Limits.maxJournalRecordBytes
  checksum := crc32c
  decode := JournalRecord.decode
  badLength := fun n => .make .corrupt .impossibleLength (UInt64.ofNat n)
  badChecksum := fun offset => .make .corrupt .integrityMismatch (UInt64.ofNat offset)

theorem carries_record {r : JournalRecord} (numbered : r.sequence ≠ 0)
    (fits : r.encode.length ≤ Limits.maxJournalRecordBytes) :
    journalFormat.Carries r.encode r where
  filled := by
    intro h
    have size := r.encode_length
    rw [h, List.length_nil] at size
    omega
  fits := fits
  small := by decide
  decoded := by
    refine JournalRecord.decode_encode numbered ?_
    have size := r.encode_length
    simp only [Limits.maxJournalRecordBytes, Limits.maxSnapshotBytes] at fits ⊢
    omega

structure SnapshotHeader where
  magic : UInt32 := storeMagic
  formatVersion : UInt16 := storeFormatVersion
  reserved : UInt16 := 0
  storeId : StoreId := Id.empty
  coversSequence : Sequence := 0
  takenAt : Step := 0
  payloadLength : UInt64 := 0
  payloadDigest : Digest256 := Digest256.zero
  headerCrc : UInt32 := 0
  deriving DecidableEq

/-- Everything the checksum of a snapshot header covers. -/
def encodeSnapshotHeaderBody (h : SnapshotHeader) : Bytes :=
  List.flatten [Writer.u32 h.magic, Writer.u16 h.formatVersion, Writer.u16 h.reserved,
    Writer.text h.storeId.value, Writer.u64 h.coversSequence, Writer.u64 h.takenAt,
    Writer.u64 h.payloadLength, Writer.digest h.payloadDigest]

def encodeSnapshotHeader (h : SnapshotHeader) : Bytes :=
  encodeSnapshotHeaderBody h ++ Writer.u32 (crc32c (encodeSnapshotHeaderBody h))

structure RawSnapshotHeader where
  header : SnapshotHeader
  storeId : Bytes
  crcPosition : Nat

def readSnapshotHeader : Reader.Read RawSnapshotHeader := do
  let magic ← Reader.u32
  let version ← Reader.u16
  let reserved ← Reader.u16
  let storeId ← Reader.text
  let covers ← Reader.u64
  let taken ← Reader.u64
  let payloadLength ← Reader.u64
  let payloadDigest ← Reader.digest
  let position ← Decoder.offset
  let crc ← Reader.u32
  pure ⟨⟨magic, version, reserved, Id.empty, covers, taken, payloadLength, payloadDigest, crc⟩,
    storeId, position⟩

/-- The header at the front of a snapshot, and where the payload starts. -/
def decodeSnapshotHeader (bytes : Bytes) : Except Status (SnapshotHeader × Nat) :=
  match readSnapshotHeader.run ⟨0, bytes⟩ with
  | .error st => .error st
  | .ok (raw, _) =>
    if raw.header.magic ≠ storeMagic then
      .error (.make .corrupt .badMagic (UInt64.ofNat raw.header.magic.toNat))
    else if raw.header.formatVersion ≠ storeFormatVersion then
      .error (.make .unsupported .unsupportedVersion (UInt64.ofNat raw.header.formatVersion.toNat))
    else if Limits.maxSnapshotBytes < raw.header.payloadLength.toNat then
      .error (.make .invalid .impossibleLength raw.header.payloadLength)
    else if crc32c (bytes.take raw.crcPosition) ≠ raw.header.headerCrc then
      .error (.make .corrupt .integrityMismatch (UInt64.ofNat raw.crcPosition))
    else
      match Id.tryMake raw.storeId with
      | none => .error (.make .corrupt .idCharset)
      | some id => .ok ({ raw.header with storeId := id }, raw.crcPosition + 4)

section SnapshotHeaders

theorem snapshotHeaderBody_length (h : SnapshotHeader) :
    (encodeSnapshotHeaderBody h).length = 66 + h.storeId.value.length := by
  simp only [encodeSnapshotHeaderBody, List.flatten_cons, List.flatten_nil, List.length_append,
    Writer.u32_length, Writer.u16_length, Writer.text_length, Writer.u64_length,
    Writer.digest_length, List.length_nil]
  omega

theorem readSnapshotHeader_run (h : SnapshotHeader) (crc : UInt32) (rest : Bytes) :
    readSnapshotHeader.run ⟨0, encodeSnapshotHeaderBody h ++ (Writer.u32 crc ++ rest)⟩ =
      .ok (⟨{ h with storeId := Id.empty, headerCrc := crc }, h.storeId.value,
        (encodeSnapshotHeaderBody h).length⟩,
        ⟨(encodeSnapshotHeaderBody h).length + 4, rest⟩) := by
  have front : encodeSnapshotHeaderBody h ++ (Writer.u32 crc ++ rest) =
      Writer.u32 h.magic ++ (Writer.u16 h.formatVersion ++ (Writer.u16 h.reserved ++
        (Writer.text h.storeId.value ++ (Writer.u64 h.coversSequence ++ (Writer.u64 h.takenAt ++
          (Writer.u64 h.payloadLength ++ (Writer.digest h.payloadDigest ++
            (Writer.u32 crc ++ rest)))))))) := by
    simp only [encodeSnapshotHeaderBody, List.flatten_cons, List.flatten_nil, List.append_assoc,
      List.append_nil]
  have size : 0 + (Writer.u32 h.magic).length + (Writer.u16 h.formatVersion).length +
      (Writer.u16 h.reserved).length + (Writer.text h.storeId.value).length +
      (Writer.u64 h.coversSequence).length + (Writer.u64 h.takenAt).length +
      (Writer.u64 h.payloadLength).length + (Writer.digest h.payloadDigest).length =
      (encodeSnapshotHeaderBody h).length := by
    rw [snapshotHeaderBody_length]
    simp only [Writer.u32_length, Writer.u16_length, Writer.text_length, Writer.u64_length,
      Writer.digest_length]
    omega
  rw [front, readSnapshotHeader, (reads_u32 _).run_then, (reads_u16 _).run_then,
    (reads_u16 _).run_then, (reads_idText _).run_then, (reads_u64 _).run_then,
    (reads_u64 _).run_then, (reads_u64 _).run_then, (reads_digest _).run_then, run_offset_bind,
    (reads_u32 _).run_then, size]
  rfl

/-- A snapshot header reads back, and the payload starts right behind it. -/
theorem decodeSnapshotHeader_encode {h : SnapshotHeader} (current : h.magic = storeMagic)
    (version : h.formatVersion = storeFormatVersion) (named : h.storeId.isEmpty = false)
    (fits : h.payloadLength.toNat ≤ Limits.maxSnapshotBytes) (blob : Bytes) :
    decodeSnapshotHeader (encodeSnapshotHeader h ++ blob) =
      .ok ({ h with headerCrc := crc32c (encodeSnapshotHeaderBody h) },
        (encodeSnapshotHeader h).length) := by
  have image : encodeSnapshotHeader h ++ blob = encodeSnapshotHeaderBody h ++
      (Writer.u32 (crc32c (encodeSnapshotHeaderBody h)) ++ blob) := by
    rw [encodeSnapshotHeader, List.append_assoc]
  have front : (encodeSnapshotHeader h ++ blob).take (encodeSnapshotHeaderBody h).length =
      encodeSnapshotHeaderBody h := by
    rw [image]
    exact List.take_left
  have size : (encodeSnapshotHeader h).length = (encodeSnapshotHeaderBody h).length + 4 := by
    rw [encodeSnapshotHeader, List.length_append, Writer.u32_length]
  rw [decodeSnapshotHeader, image, readSnapshotHeader_run, ← image]
  simp only [current, version, front, Id.tryMake_value named, ne_eq, not_true_eq_false, if_false,
    if_neg (Nat.not_lt.mpr fits), size]

end SnapshotHeaders

/-- What is wrong with a replacement of a whole file. -/
inductive FileFault where
  | missing
  | incomplete (aux : UInt64)
  deriving DecidableEq

def FileFault.status : FileFault → Status
  | .missing => .make .unreachable .storeNotFound
  | .incomplete aux => .make .unreachable .effectNotVerified aux

/-- How far a checkpoint gets. -/
inductive CheckpointIo where
  | done
  | snapshotFault (fault : FileFault)
  | flushFault (stage : UInt64)
  | rotationFault (fault : FileFault)
  | reopenFault
  deriving DecidableEq

/-- The files of a store directory. -/
structure StoreFiles where
  header : Option Bytes := none
  snapshot : Option Bytes := none
  journal : Option Bytes := none

/-- An open store and the two files it writes. -/
structure Store where
  opened : Bool := false
  storeId : StoreId := Id.empty
  snapshot : Option Bytes := none
  journal : Bytes := []
  lastSequence : Sequence := 0
  recordsAppended : UInt64 := 0
  tornTailRecovered : Bool := false

namespace Store

def maxSnapshotFileBytes : Nat := Limits.maxSnapshotBytes + 4096

/-- The checks of an open and of a load; only an open looks at the store's name. -/
def readSnapshot (named : SnapshotHeader → Bool) (snapshot : Option Bytes) :
    Except Status (SnapshotHeader × Bytes) := do
  let bytes ← readFileBounded snapshot maxSnapshotFileBytes
  let (header, consumed) ← decodeSnapshotHeader bytes
  if named header = false then .error (.make .conflict .storeNotFound)
  else if bytes.length - consumed ≠ header.payloadLength.toNat then
    .error (.make .corrupt .impossibleLength (UInt64.ofNat (bytes.length - consumed)))
  else if Digest256.of (bytes.drop consumed) ≠ header.payloadDigest then
    .error (.make .corrupt .integrityMismatch (UInt64.ofNat consumed))
  else pure (header, bytes.drop consumed)

def loadSnapshot (s : Store) : Except Status (SnapshotHeader × Bytes) :=
  readSnapshot (fun _ => true) s.snapshot

/-- The last sequence the snapshot covers, none without a snapshot. -/
def openSnapshot (storeId : StoreId) (snapshot : Option Bytes) : Except Status (Option Sequence) :=
  match snapshot with
  | none => .ok none
  | some bytes =>
    (readSnapshot (fun h => decide (h.storeId = storeId)) (some bytes)).map
      fun r => some r.1.coversSequence

/-- What the scanning loop of `open` has seen so far. -/
structure Recovery where
  expected : Sequence
  lastSequence : Sequence
  count : Nat := 0
  reported : Sequence := 0
  lastStep : Step := 0

/-- A record below the expected one is taken for one the snapshot already covers. -/
def Recovery.visit (s : Recovery) (r : JournalRecord) : Except Status Recovery :=
  if r.sequence + 1 ≤ s.expected then .ok s
  else if r.sequence ≠ s.expected then .error (.make .corrupt .sequenceRegression r.sequence)
  else .ok {
    expected := r.sequence + 1
    lastSequence := max s.lastSequence r.sequence
    count := s.count + 1
    reported := r.sequence
    lastStep := r.step }

/-- `Store::open` on the files of a directory; appending creates a missing journal. -/
def openStore (files : StoreFiles) (storeId : StoreId) (options : StoreOpenOptions) :
    Except Status (Store × Bytes × StoreRecoveryReport) := do
  if storeId.isEmpty then .error (.make .invalid .emptyValue)
  else
    let (header, created) ← openHeader files.header storeId options
    let covered ← openSnapshot storeId files.snapshot
    let covers := covered.getD 0
    match files.journal with
    | none =>
      pure ({ opened := true, storeId := storeId, snapshot := files.snapshot
              lastSequence := covers }, header,
            { created := created, snapshotLoaded := covered.isSome })
    | some _ =>
      let bytes ← readFileBounded files.journal Limits.maxFabricStoreBytes
      let scan ← journalFormat.read Recovery.visit ⟨covers + 1, covers, 0, 0, 0⟩ bytes
      if scan.torn && !options.allowTornTailRecovery then
        .error (.make .corrupt .tornTail (UInt64.ofNat scan.goodEnd))
      else
        pure ({ opened := true, storeId := storeId, snapshot := files.snapshot
                journal := bytes.take scan.goodEnd, lastSequence := scan.state.lastSequence
                tornTailRecovered := scan.torn }, header,
              { created := created, snapshotLoaded := covered.isSome
                tornTailRecovered := scan.torn
                tornTailBytes := if scan.torn then bytes.length - scan.goodEnd else 0
                journalRecords := scan.state.count, lastSequence := scan.state.reported
                lastStep := scan.state.lastStep })

def appended (s : Store) (r : JournalRecord) : Store :=
  { s with
    journal := s.journal ++ journalFormat.frame r.encode
    lastSequence := r.sequence
    recordsAppended := s.recordsAppended + 1 }

def append (r : JournalRecord) (io : AppendIo) : Prog Status Store PUnit := do
  let s ← get
  Prog.refuseIf (s.opened = false) (.make .closed .storeBusy)
  Prog.refuseIf (r.sequence ≠ s.lastSequence + 1) (.make .invalid .sequenceRegression r.sequence)
  Prog.refuseIf (Limits.maxJournalRecordBytes < r.encode.length)
    (.make .exhausted .impossibleLength (UInt64.ofNat r.encode.length))
  let frame := journalFormat.frame r.encode
  match io.settle s.journal.length frame with
  | .done => set (s.appended r)
  | .headShort n | .payloadShort n => do
    set { s with journal := s.journal ++ frame.take n }
    throw (.make .unreachable .effectNotVerified)
  | .flushFailed n stage => do
    set { s with journal := s.journal ++ frame.take n }
    throw (.make .unreachable .effectNotVerified stage)

def snapshotHeader (s : Store) (blob : Bytes) (now : Step) : SnapshotHeader where
  storeId := s.storeId
  coversSequence := s.lastSequence
  takenAt := now
  payloadLength := UInt64.ofNat blob.length
  payloadDigest := Digest256.of blob

def snapshotBytes (s : Store) (blob : Bytes) (now : Step) : Bytes :=
  encodeSnapshotHeader (s.snapshotHeader blob now) ++ blob

/-- The snapshot replaces the old one before the journal is emptied. -/
def checkpoint (blob : Bytes) (covers : Sequence) (now : Step) (io : CheckpointIo) :
    Prog Status Store PUnit := do
  let s ← get
  Prog.refuseIf (s.opened = false) (.make .closed .storeBusy)
  Prog.refuseIf (covers ≠ s.lastSequence) (.make .invalid .valueOutOfRange covers)
  Prog.refuseIf (Limits.maxSnapshotBytes < blob.length)
    (.make .exhausted .impossibleLength (UInt64.ofNat blob.length))
  let saved := { s with snapshot := some (s.snapshotBytes blob now) }
  match io with
  | .snapshotFault fault => throw fault.status
  | .flushFault stage => do
    set saved
    throw (.make .unreachable .effectNotVerified stage)
  | .rotationFault fault => do
    set { saved with opened := false }
    throw fault.status
  | .reopenFault => do
    set { saved with opened := false, journal := [] }
    throw (.make .unreachable .storeNotFound)
  | .done => set { saved with journal := [] }

/-- Every complete record of the journal, those a snapshot covers included. -/
def replay {σ : Type} (visit : σ → JournalRecord → Except Status σ) (t : σ) (s : Store) :
    Except Status σ := do
  let bytes ← readFileBounded (some s.journal) Limits.maxFabricStoreBytes
  let scan ← journalFormat.read visit t bytes
  pure scan.state

theorem snapshotBytes_length (s : Store) (blob : Bytes) (now : Step) :
    (s.snapshotBytes blob now).length ≤ blob.length + 4096 := by
  have name : (s.snapshotHeader blob now).storeId.value.length ≤ 64 := s.storeId.length_le
  simp only [snapshotBytes, encodeSnapshotHeader, List.length_append, snapshotHeaderBody_length,
    Writer.u32_length]
  omega

theorem snapshotHeader_payloadLength (s : Store) {blob : Bytes} (now : Step)
    (fits : blob.length ≤ Limits.maxSnapshotBytes) :
    (s.snapshotHeader blob now).payloadLength.toNat = blob.length := by
  have small : blob.length < 2 ^ 64 := by
    simp only [Limits.maxSnapshotBytes] at fits
    omega
  exact UInt64.toNat_ofNat_of_lt' small

/-- A written snapshot is accepted, with what it covers and the blob it was given. -/
theorem readSnapshot_written {s : Store} {blob : Bytes} {now : Step}
    {named : SnapshotHeader → Bool} (identified : s.storeId.isEmpty = false)
    (fits : blob.length ≤ Limits.maxSnapshotBytes)
    (accepts : ∀ h : SnapshotHeader, h.storeId = s.storeId → named h = true) :
    ∃ h, readSnapshot named (some (s.snapshotBytes blob now)) = .ok (h, blob) ∧
      h.coversSequence = s.lastSequence ∧ h.storeId = s.storeId := by
  have small : ¬ maxSnapshotFileBytes < (s.snapshotBytes blob now).length :=
    Nat.not_lt.mpr <| (snapshotBytes_length s blob now).trans (Nat.add_le_add_right fits 4096)
  have length := s.snapshotHeader_payloadLength now fits
  have bounded : (s.snapshotHeader blob now).payloadLength.toNat ≤ Limits.maxSnapshotBytes :=
    Nat.le_trans (Nat.le_of_eq length) fits
  have named' : (s.snapshotHeader blob now).storeId.isEmpty = false := identified
  have decoded := decodeSnapshotHeader_encode (h := s.snapshotHeader blob now) rfl rfl named'
    bounded blob
  have rest : (s.snapshotBytes blob now).drop
      (encodeSnapshotHeader (s.snapshotHeader blob now)).length = blob := List.drop_left
  have left : (s.snapshotBytes blob now).length -
      (encodeSnapshotHeader (s.snapshotHeader blob now)).length = blob.length := by
    rw [snapshotBytes, List.length_append]
    omega
  have digest : (s.snapshotHeader blob now).payloadDigest = Digest256.of blob := rfl
  refine ⟨{ s.snapshotHeader blob now with
    headerCrc := crc32c (encodeSnapshotHeaderBody (s.snapshotHeader blob now)) }, ?_, rfl, rfl⟩
  rw [readSnapshot, readFileBounded, if_neg small]
  simp only [bind, Except.bind]
  rw [snapshotBytes] at rest left ⊢
  simp only [decoded]
  rw [accepts _ rfl, rest, left, length, digest]
  simp only [Bool.true_eq_false, if_false, ne_eq, not_true_eq_false]
  rfl

/-- What an open or a load finds covered by a snapshot that was written. -/
theorem openSnapshot_written {s : Store} {blob : Bytes} {now : Step}
    (identified : s.storeId.isEmpty = false) (fits : blob.length ≤ Limits.maxSnapshotBytes) :
    openSnapshot s.storeId (some (s.snapshotBytes blob now)) = .ok (some s.lastSequence) := by
  obtain ⟨h, read, covers, -⟩ := @readSnapshot_written s blob now
    (fun h => decide (h.storeId = s.storeId)) identified fits fun _ same => decide_eq_true same
  rw [openSnapshot, read, Except.map, covers]

section Append

variable {s s' : Store} {r : JournalRecord} {io : AppendIo}

theorem append_ok (ran : (append r io).exec s = (.ok ⟨⟩, s')) :
    s.opened = true ∧ r.sequence = s.lastSequence + 1 ∧
      r.encode.length ≤ Limits.maxJournalRecordBytes ∧ s' = s.appended r := by
  rw [append, Prog.exec_get_bind] at ran
  obtain ⟨opened, ran⟩ := Prog.refuseIf_ok ran
  obtain ⟨next, ran⟩ := Prog.refuseIf_ok ran
  obtain ⟨fits, ran⟩ := Prog.refuseIf_ok ran
  refine ⟨by simpa using opened, not_not.mp next, Nat.le_of_not_lt fits, ?_⟩
  cases fate : io.settle s.journal.length (journalFormat.frame r.encode) with
  | done => simp only [fate] at ran; cases ran; rfl
  | headShort n => simp only [fate] at ran; cases ran
  | payloadShort n => simp only [fate] at ran; cases ran
  | flushFailed n stage => simp only [fate] at ran; cases ran

theorem append_runs (opened : s.opened = true) (next : r.sequence = s.lastSequence + 1)
    (fits : r.encode.length ≤ Limits.maxJournalRecordBytes)
    (room : s.journal.length + (journalFormat.frame r.encode).length ≤ maxFileBytes) :
    (append r .done).exec s = (.ok ⟨⟩, s.appended r) := by
  rw [append, Prog.exec_get_bind, Prog.exec_refuseIf, if_neg (by simp [opened]),
    Prog.exec_refuseIf, if_neg (not_not.mpr next), Prog.exec_refuseIf,
    if_neg (Nat.not_lt.mpr fits)]
  simp only [AppendIo.done_settles room]
  rfl

/-- A failed append has done nothing, or has left a part of the record it was given. -/
theorem append_failed {st : Status} (ran : (append r io).exec s = (.error st, s')) :
    s' = s ∨ r.sequence = s.lastSequence + 1 ∧ r.encode.length ≤ Limits.maxJournalRecordBytes ∧
      ∃ n, s' = { s with journal := s.journal ++ (journalFormat.frame r.encode).take n } := by
  rw [append, Prog.exec_get_bind, Prog.exec_refuseIf] at ran
  split at ran
  · cases ran; exact .inl rfl
  rw [Prog.exec_refuseIf] at ran
  split at ran
  · cases ran; exact .inl rfl
  rename_i next
  rw [Prog.exec_refuseIf] at ran
  split at ran
  · cases ran; exact .inl rfl
  rename_i fits
  refine .inr ⟨not_not.mp next, Nat.le_of_not_lt fits, ?_⟩
  cases fate : io.settle s.journal.length (journalFormat.frame r.encode) with
  | done => simp only [fate] at ran; cases ran
  | headShort n => simp only [fate] at ran; cases ran; exact ⟨n, rfl⟩
  | payloadShort n => simp only [fate] at ran; cases ran; exact ⟨n, rfl⟩
  | flushFailed n stage => simp only [fate] at ran; cases ran; exact ⟨n, rfl⟩

theorem checkpoint_ok {blob : Bytes} {covers : Sequence} {now : Step} {io : CheckpointIo}
    (ran : (checkpoint blob covers now io).exec s = (.ok ⟨⟩, s')) :
    covers = s.lastSequence ∧ blob.length ≤ Limits.maxSnapshotBytes ∧
      s' = { s with snapshot := some (s.snapshotBytes blob now), journal := [] } := by
  rw [checkpoint, Prog.exec_get_bind] at ran
  obtain ⟨-, ran⟩ := Prog.refuseIf_ok ran
  obtain ⟨same, ran⟩ := Prog.refuseIf_ok ran
  obtain ⟨fits, ran⟩ := Prog.refuseIf_ok ran
  refine ⟨not_not.mp same, Nat.le_of_not_lt fits, ?_⟩
  cases io with
  | done => cases ran; rfl
  | snapshotFault fault => cases ran
  | flushFault stage => cases ran
  | rotationFault fault => cases ran
  | reopenFault => cases ran

end Append

section Open

variable {files : StoreFiles} {storeId : StoreId} {options : StoreOpenOptions} {s : Store}
  {header : Bytes} {report : StoreRecoveryReport}

/-- The complete records of a journal file. -/
def recordsIn (journal : Option Bytes) : List JournalRecord :=
  match journalFormat.contents (journal.getD []) with
  | .ok scan => scan.state
  | .error _ => []

/-- What the snapshot of a directory covers. -/
def coveredBy (storeId : StoreId) (snapshot : Option Bytes) : Sequence :=
  match openSnapshot storeId snapshot with
  | .ok covered => covered.getD 0
  | .error _ => 0

/-- What an open has read, and the store it leaves. -/
theorem openStore_ok (ran : openStore files storeId options = .ok (s, header, report)) :
    ∃ records goodEnd torn final,
      journalFormat.contents (files.journal.getD []) = .ok ⟨records, goodEnd, torn⟩ ∧
      LogFormat.visitAll Recovery.visit
        ⟨coveredBy storeId files.snapshot + 1, coveredBy storeId files.snapshot, 0, 0, 0⟩ records =
          .ok final ∧
      (files.journal.getD []).length ≤ Limits.maxFabricStoreBytes ∧
      s = { opened := true, storeId := storeId, snapshot := files.snapshot
            journal := (files.journal.getD []).take goodEnd
            lastSequence := final.lastSequence, tornTailRecovered := torn } := by
  unfold openStore at ran
  split at ran
  · cases ran
  cases checked : openHeader files.header storeId options with
  | error st => rw [checked] at ran; cases ran
  | ok found =>
    obtain ⟨header', created⟩ := found
    rw [checked] at ran
    cases covered : openSnapshot storeId files.snapshot with
    | error st => rw [covered] at ran; cases ran
    | ok covered' =>
      have covers : coveredBy storeId files.snapshot = covered'.getD 0 := by
        rw [coveredBy, covered]
      rw [covers]
      rw [covered] at ran
      cases file : files.journal with
      | none =>
        rw [file] at ran
        cases ran
        exact ⟨[], 0, false, _, rfl, rfl, Nat.zero_le _, rfl⟩
      | some bytes =>
        rw [file] at ran
        simp only [bind, Except.bind] at ran
        cases loaded : readFileBounded (some bytes) Limits.maxFabricStoreBytes with
        | error st => rw [loaded] at ran; cases ran
        | ok bytes' =>
          obtain ⟨same, bounded⟩ := readFileBounded_ok loaded
          cases same
          rw [loaded] at ran
          simp only at ran
          cases scanned : journalFormat.read Recovery.visit
              ⟨covered'.getD 0 + 1, covered'.getD 0, 0, 0, 0⟩ bytes with
          | error st => rw [scanned] at ran; cases ran
          | ok scan =>
            rw [scanned] at ran
            simp only at ran
            split at ran
            · cases ran
            · obtain ⟨records, all, contents⟩ := LogFormat.read_visits scanned
              cases ran
              exact ⟨records, scan.goodEnd, scan.torn, scan.state, contents, all, bounded, rfl⟩

/-- An open that may cut a torn tail succeeds wherever its scan does. -/
theorem openStore_reads {journal : Bytes} {created torn : Bool} {covered : Option Sequence}
    {final : Recovery} {goodEnd : Nat} (named : storeId.isEmpty = false)
    (known : openHeader files.header storeId options = .ok (header, created))
    (snapshot : openSnapshot storeId files.snapshot = .ok covered)
    (file : files.journal = some journal)
    (small : journal.length ≤ Limits.maxFabricStoreBytes)
    (scanned : journalFormat.read Recovery.visit ⟨covered.getD 0 + 1, covered.getD 0, 0, 0, 0⟩
      journal = .ok ⟨final, goodEnd, torn⟩)
    (allowed : options.allowTornTailRecovery = true) :
    ∃ s report, openStore files storeId options = .ok (s, header, report) := by
  simp only [openStore, named, known, snapshot, file, readFileBounded,
    if_neg (Nat.not_lt.mpr small), bind, Except.bind, scanned, allowed, Bool.not_true,
    Bool.and_false, Bool.false_eq_true, if_false]
  exact ⟨_, _, rfl⟩

theorem recordsIn_of {journal : Option Bytes} {records : List JournalRecord} {goodEnd : Nat}
    {torn : Bool} (known : journalFormat.contents (journal.getD []) = .ok ⟨records, goodEnd, torn⟩) :
    recordsIn journal = records := by
  rw [recordsIn, known]

/-- An opened store replays exactly the complete records of the file it found. -/
theorem replay_opened (ran : openStore files storeId options = .ok (s, header, report)) :
    s.replay LogFormat.collect [] = .ok (recordsIn files.journal) := by
  obtain ⟨records, goodEnd, torn, final, contents, -, bounded, rfl⟩ := openStore_ok ran
  have small : ¬ Limits.maxFabricStoreBytes < ((files.journal.getD []).take goodEnd).length := by
    rw [List.length_take]
    omega
  have cut : journalFormat.read LogFormat.collect [] ((files.journal.getD []).take goodEnd) =
      .ok ⟨records, goodEnd, false⟩ := LogFormat.contents_take contents
  rw [recordsIn_of contents, replay]
  simp only [readFileBounded, if_neg small, bind, Except.bind, cut]
  rfl

end Open

end Store
end SplitBrainFabric
