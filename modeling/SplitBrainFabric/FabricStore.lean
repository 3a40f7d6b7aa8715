import SplitBrainFabric.Fence
import SplitBrainFabric.Persistence

/-! The effect boundary: an append-only log of mutations behind a gate that looks
only at the last writer of each extent. -/

namespace SplitBrainFabric
open Words Decoder

structure MutationRecord where
  storeSequence : Sequence := 0
  domain : DomainId := Id.empty
  scope : Scope := Scope.empty
  epoch : Epoch := 0
  incarnation : IncarnationId := 0
  grant : GrantId := 0
  fenceToken : FenceToken := 0
  committedAt : Step := 0
  operation : Bytes := []
  payloadDigest : Digest256 := Digest256.zero
  recordDigest : Digest256 := Digest256.zero
  deriving DecidableEq

def operationValid (operation : Bytes) : Bool :=
  operation ≠ [] && operation.length ≤ Limits.maxTextLength &&
    operation.all fun c => 0x20 ≤ c && c ≤ 0x7E

namespace MutationRecord

def bodyFields (r : MutationRecord) : List Bytes :=
  [Writer.u64 r.storeSequence, Writer.text r.domain.value, Writer.blob r.scope.encode,
    Writer.u64 r.epoch, Writer.u64 r.incarnation, Writer.u64 r.grant, Writer.u64 r.fenceToken,
    Writer.u64 r.committedAt, Writer.text r.operation, Writer.digest r.payloadDigest]

def encode (r : MutationRecord) : Bytes :=
  List.flatten (r.bodyFields ++ [Writer.digest r.recordDigest])

def computeRecordDigest (r : MutationRecord) : Digest256 := Digest256.of (List.flatten r.bodyFields)

def decode : Reader.Read MutationRecord := do
  let storeSequence ← Reader.u64
  let domain ← Reader.identifier .invalid
  let scope ← Reader.nested Scope.decode
  let epoch ← Reader.u64
  let incarnation ← Reader.u64
  let grant ← Reader.u64
  let fenceToken ← Reader.u64
  let committedAt ← Reader.u64
  let operation ← Reader.text
  refuseIf (operationValid operation = false)
    (.make .invalid .valueOutOfRange (UInt64.ofNat operation.length))
  let payloadDigest ← Reader.digest
  let recordDigest ← Reader.digest
  let record : MutationRecord := ⟨storeSequence, domain, scope, epoch, incarnation, grant,
    fenceToken, committedAt, operation, payloadDigest, recordDigest⟩
  refuseIf (record.recordDigest ≠ record.computeRecordDigest) (.make .corrupt .integrityMismatch)
  pure record

/-- The records the gate writes: named, printable and sealed. -/
structure Sealed (r : MutationRecord) : Prop where
  named : r.domain.isEmpty = false
  printable : operationValid r.operation = true
  digest : r.recordDigest = r.computeRecordDigest
  fits : r.encode.length ≤ Limits.maxJournalRecordBytes

theorem operationValid_length {operation : Bytes} (valid : operationValid operation = true) :
    operation.length ≤ 256 := by
  simp only [operationValid, Limits.maxTextLength, Bool.and_eq_true] at valid
  exact of_decide_eq_true valid.1.2

theorem reads_decode {r : MutationRecord} (good : r.Sealed) : Reads decode r.encode r := by
  have short : r.operation.length < 65536 := by
    have h := operationValid_length good.printable
    omega
  exact .field (reads_u64 _) <| .field (reads_identifier good.named) <|
    .field r.scope.reads_nested_scope <| .field (reads_u64 _) <| .field (reads_u64 _) <|
    .field (reads_u64 _) <| .field (reads_u64 _) <| .field (reads_u64 _) <|
    .field (reads_text short) <| .refuseIf (by simp [good.printable]) <|
    .field (reads_digest _) <| .field (reads_digest _) <|
    .refuseIf (not_not.mpr good.digest) <| Reads.pure r

end MutationRecord

/-- Frames of the effect log, with the statuses its reader reports. -/
def fabricFormat : LogFormat Status MutationRecord where
  maxLength := Limits.maxJournalRecordBytes
  checksum := crc32c
  decode := Reader.decode MutationRecord.decode
  badLength := fun n => .make .corrupt .impossibleLength (UInt64.ofNat n)
  badChecksum := fun offset => .make .corrupt .integrityMismatch (UInt64.ofNat offset)

structure FabricStore where
  opened : Bool := false
  storeId : StoreId := Id.empty
  log : Bytes := []
  fences : FenceTable := {}
  owners : ExtentMarks := SortedTable.empty
  records : List MutationRecord := []
  lastSequence : Sequence := 0
  bytesWritten : UInt64 := 0
  tornTailRecovered : Bool := false

namespace FabricStore

def ownerOf (s : FabricStore) (e : ExtentId) : Option ExtentFenceState := s.owners.find e

def highWater (s : FabricStore) (e : ExtentId) : FenceToken :=
  match s.ownerOf e with
  | some state => state.highWaterToken
  | none => 0

def ownerMark (r : MutationRecord) (e : ExtentId) : ExtentFenceState :=
  ⟨e, r.fenceToken, r.epoch, r.incarnation, r.grant, r.committedAt⟩

def recordOwner (r : MutationRecord) (owners : ExtentMarks) : ExtentMarks :=
  ExtentMarks.stamp (ownerMark r) r.scope.extents owners

/-- The gate proper. It reads nothing but the durable owner table. -/
def gate (owners : ExtentMarks) (token : FenceToken) (incarnation : IncarnationId)
    (l : List ExtentId) : Except Status PUnit :=
  ExtentMarks.check (fun s => .make .fenced .tokenFloorRejected s.highWaterToken)
    (fun s => .make .conflict .storeOwnerMismatch s.ownerIncarnation) owners token incarnation l

def candidate (s : FabricStore) (domain : DomainId) (token : FenceToken) (scope : Scope)
    (epoch : Epoch) (incarnation : IncarnationId) (grant : GrantId) (operation : Bytes)
    (payloadDigest : Digest256) (now : Step) : MutationRecord :=
  let unsealed : MutationRecord := {
    storeSequence := s.lastSequence + 1, domain := domain, scope := scope, epoch := epoch,
    incarnation := incarnation, grant := grant, fenceToken := token, committedAt := now,
    operation := operation, payloadDigest := payloadDigest }
  { unsealed with recordDigest := unsealed.computeRecordDigest }

/-- Memory after a durable append; the file already holds the frame. -/
def accepted (s : FabricStore) (r : MutationRecord) : FabricStore :=
  { s with
    log := s.log ++ fabricFormat.frame r.encode
    lastSequence := r.storeSequence
    bytesWritten := s.bytesWritten + UInt64.ofNat (8 + r.encode.length)
    owners := recordOwner r s.owners
    records := (if Limits.maxSnapshotRecords ≤ s.records.length then s.records.tail
      else s.records) ++ [r] }

/-- Write, write, flush; a failed call may leave a part of the frame in the file. -/
def append (r : MutationRecord) (io : AppendIo) : Prog Status FabricStore PUnit := do
  let s ← get
  let frame := fabricFormat.frame r.encode
  match io.settle s.log.length frame with
  | .done => set (s.accepted r)
  | .headShort n => do
    set { s with log := s.log ++ frame.take n }
    throw (.make .unknown .effectNotVerified 1)
  | .payloadShort n => do
    set { s with log := s.log ++ frame.take n }
    throw (.make .unknown .effectNotVerified 2)
  | .flushFailed n stage => do
    set { s with log := s.log ++ frame.take n }
    throw (.make .unknown .effectNotVerified stage)

def admitMutation (domain : DomainId) (token : FenceToken) (scope : Scope) (epoch : Epoch)
    (incarnation : IncarnationId) (grant : GrantId) (operation : Bytes)
    (payloadDigest : Digest256) (now : Step) (io : AppendIo) :
    Prog Status FabricStore MutationRecord := do
  let s ← get
  Prog.refuseIf (s.opened = false) (.make .closed .storeBusy)
  Prog.refuseIf (domain.isEmpty = true) (.make .invalid .domainNotRegistered)
  Prog.refuseIf (scope.isEmpty = true) (.make .invalid .emptyExtentSet)
  Prog.refuseIf (token = 0) (.make .invalid .fenceTokenMissing)
  Prog.refuseIf (incarnation = 0) (.make .invalid .valueOutOfRange)
  Prog.refuseIf (operationValid operation = false)
    (.make .invalid .valueOutOfRange (UInt64.ofNat operation.length))
  Prog.refuseIf (Limits.maxExtentsPerScope < scope.size)
    (.make .exhausted .scopeTooLarge (UInt64.ofNat scope.size))
  Prog.ofExcept (gate s.owners token incarnation scope.extents)
  let r := s.candidate domain token scope epoch incarnation grant operation payloadDigest now
  Prog.refuseIf (Limits.maxJournalRecordBytes < r.encode.length)
    (.make .exhausted .impossibleLength (UInt64.ofNat r.encode.length))
  append r io
  pure r

/-- What the scanning loop of `open` has seen so far. -/
structure Recovery where
  expected : Sequence := 1
  lastSequence : Sequence := 0
  owners : ExtentMarks := SortedTable.empty
  records : List MutationRecord := []
  count : Nat := 0
  lastStep : Step := 0

def Recovery.visit (s : Recovery) (r : MutationRecord) : Except Status Recovery :=
  if r.storeSequence ≠ s.expected then
    .error (.make .corrupt .sequenceRegression r.storeSequence)
  else .ok {
    expected := r.storeSequence + 1
    lastSequence := r.storeSequence
    owners := recordOwner r s.owners
    records := s.records ++ [r]
    count := s.count + 1
    lastStep := r.committedAt }

/-- The last `maxSnapshotRecords` records of a history. -/
def retained (records : List MutationRecord) : List MutationRecord :=
  records.drop (records.length - Limits.maxSnapshotRecords)

/-- `FabricStore::open` on the files of a directory. Appending needs the file, so a
missing log is created empty; a torn tail is cut off when the options allow it. -/
def openStore (header log : Option Bytes) (storeId : StoreId) (options : StoreOpenOptions) :
    Except Status (FabricStore × Bytes × StoreRecoveryReport) := do
  if storeId.isEmpty then .error (.make .invalid .emptyValue)
  else
    let (header, created) ← openHeader header storeId options
    match log with
    | none => .ok ({ opened := true, storeId := storeId }, header, { created := created })
    | some _ =>
      let bytes ← readFileBounded log Limits.maxFabricStoreBytes
      let scan ← fabricFormat.read Recovery.visit {} bytes
      if scan.torn && !options.allowTornTailRecovery then
        .error (.make .corrupt .tornTail (UInt64.ofNat scan.goodEnd))
      else
        .ok ({ opened := true, storeId := storeId, log := bytes.take scan.goodEnd
               owners := scan.state.owners, records := retained scan.state.records
               lastSequence := scan.state.lastSequence, tornTailRecovered := scan.torn },
          header, { created := created, tornTailRecovered := scan.torn
                    tornTailBytes := if scan.torn then bytes.length - scan.goodEnd else 0
                    journalRecords := scan.state.count, lastSequence := scan.state.lastSequence
                    lastStep := scan.state.lastStep })

/-- The complete history in the file, numbered from one. -/
def load {σ : Type} (visit : σ → MutationRecord → Except Status σ) (t : σ) (s : FabricStore) :
    Except Status σ := do
  let bytes ← readFileBounded (some s.log) Limits.maxFabricStoreBytes
  let scan ← fabricFormat.read (fun (expected, t) r =>
    if r.storeSequence ≠ expected then .error (.make .corrupt .sequenceRegression r.storeSequence)
    else (visit t r).map (r.storeSequence + 1, ·)) ((1 : Sequence), t) bytes
  pure scan.state.2

end FabricStore
end SplitBrainFabric
