import SplitBrainFabric.FabricStore
import SplitBrainFabric.Library.LastWriter

/-! The effect boundary on its own: any calls with any arguments, closed and reopened
at will. The owner table is the last writer of each extent, in memory and after
every reopen, and that is enough for a law about all pairs of records. -/

namespace SplitBrainFabric
open Words FabricStore

structure MutationCall where
  domain : DomainId
  token : FenceToken
  scope : Scope
  epoch : Epoch
  incarnation : IncarnationId
  grant : GrantId
  operation : Bytes
  payloadDigest : Digest256
  now : Step

namespace MutationCall

def admitMutation (call : MutationCall) (io : AppendIo) : Prog Status FabricStore MutationRecord :=
  FabricStore.admitMutation call.domain call.token call.scope call.epoch call.incarnation call.grant
    call.operation call.payloadDigest call.now io

def record (call : MutationCall) (s : FabricStore) : MutationRecord :=
  s.candidate call.domain call.token call.scope call.epoch call.incarnation call.grant
    call.operation call.payloadDigest call.now

theorem append_ok {s s' : FabricStore} {r : MutationRecord} {io : AppendIo}
    (ran : (append r io).exec s = (.ok ⟨⟩, s')) :
    s' = s.accepted r ∧ s.log.length + (fabricFormat.frame r.encode).length ≤ maxFileBytes := by
  rw [append, Prog.exec_get_bind] at ran
  cases fate : io.settle s.log.length (fabricFormat.frame r.encode) with
  | done =>
    simp only [fate] at ran
    cases ran
    exact ⟨rfl, AppendIo.settle_done fate⟩
  | headShort n => simp only [fate] at ran; cases ran
  | payloadShort n => simp only [fate] at ran; cases ran
  | flushFailed n stage => simp only [fate] at ran; cases ran

/-- A failed write is reported as unknown, never as a refusal. -/
theorem append_error {s s' : FabricStore} {r : MutationRecord} {io : AppendIo} {st : Status}
    (ran : (append r io).exec s = (.error st, s')) : st.outcome = .unknown := by
  rw [append, Prog.exec_get_bind] at ran
  cases fate : io.settle s.log.length (fabricFormat.frame r.encode) with
  | done => simp only [fate] at ran; cases ran
  | headShort n => simp only [fate] at ran; cases ran; rfl
  | payloadShort n => simp only [fate] at ran; cases ran; rfl
  | flushFailed n stage => simp only [fate] at ran; cases ran; rfl

theorem admit_ok {call : MutationCall} {io : AppendIo} {s s' : FabricStore} {r : MutationRecord}
    (ran : (call.admitMutation io).exec s = (.ok r, s')) :
    s.opened = true ∧ r = call.record s ∧ r.Sealed ∧
      ExtentMarks.Admits s.owners call.token call.incarnation call.scope.extents ∧
      s' = s.accepted r ∧ s.log.length + (fabricFormat.frame r.encode).length ≤ maxFileBytes := by
  rw [admitMutation, FabricStore.admitMutation, Prog.exec_get_bind] at ran
  obtain ⟨opened, ran⟩ := Prog.refuseIf_ok ran
  obtain ⟨named, ran⟩ := Prog.refuseIf_ok ran
  obtain ⟨_, ran⟩ := Prog.refuseIf_ok ran
  obtain ⟨_, ran⟩ := Prog.refuseIf_ok ran
  obtain ⟨_, ran⟩ := Prog.refuseIf_ok ran
  obtain ⟨printable, ran⟩ := Prog.refuseIf_ok ran
  obtain ⟨_, ran⟩ := Prog.refuseIf_ok ran
  obtain ⟨_, passed, ran⟩ := Prog.ofExcept_ok ran
  obtain ⟨fits, ran⟩ := Prog.refuseIf_ok ran
  obtain ⟨_, t, appended, ran⟩ := Prog.bind_ok ran
  cases ran
  obtain ⟨after, size⟩ := append_ok appended
  refine ⟨by simpa using opened, rfl, ?_, ExtentMarks.check_ok.mp passed, after, size⟩
  have domain : call.domain.isEmpty = false := by simpa using named
  have operation : operationValid call.operation = true := by simpa using printable
  exact ⟨domain, operation, rfl, Nat.le_of_not_lt fits⟩

/-- Every refusal other than a failed write leaves the store as it was. -/
theorem admit_refused {call : MutationCall} {io : AppendIo} {s s' : FabricStore} {st : Status}
    (ran : (call.admitMutation io).exec s = (.error st, s')) (known : st.outcome ≠ .unknown) :
    s' = s := by
  have clean : (call.admitMutation io).FailsCleanOn (fun e => e.outcome ≠ .unknown) s := by
    refine .get <| .refuseIf fun _ => .refuseIf fun _ => .refuseIf fun _ => .refuseIf fun _ =>
      .refuseIf fun _ => .refuseIf fun _ => .refuseIf fun _ => .ofExcept fun _ _ =>
      .refuseIf fun _ => .bind_pure ?_
    intro e t kind failed
    exact absurd (append_error failed) kind
  exact clean st s' known ran

end MutationCall

/-- What an open has read, and the store it leaves. -/
theorem FabricStore.openStore_ok {header log : Option Bytes} {header' : Bytes} {storeId : StoreId}
    {options : StoreOpenOptions} {s : FabricStore} {report : StoreRecoveryReport}
    (opened : openStore header log storeId options = .ok (s, header', report)) :
    storeId.isEmpty = false ∧
      (∃ created, openHeader header storeId options = .ok (header', created)) ∧
      (log.getD []).length ≤ Limits.maxFabricStoreBytes ∧
      ∃ scan, fabricFormat.read Recovery.visit {} (log.getD []) = .ok scan ∧
        s = { opened := true, storeId := storeId, log := (log.getD []).take scan.goodEnd
              owners := scan.state.owners, records := retained scan.state.records
              lastSequence := scan.state.lastSequence, tornTailRecovered := scan.torn } := by
  unfold openStore at opened
  split at opened
  · cases opened
  rename_i named
  cases checked : openHeader header storeId options with
  | error st => rw [checked] at opened; cases opened
  | ok found =>
    obtain ⟨written, created⟩ := found
    rw [checked] at opened
    cases log with
    | none =>
      cases opened
      exact ⟨by simpa using named, ⟨created, rfl⟩, Nat.zero_le _, _, rfl, rfl⟩
    | some bytes =>
      simp only [bind, Except.bind] at opened
      cases loaded : readFileBounded (some bytes) Limits.maxFabricStoreBytes with
      | error st => rw [loaded] at opened; cases opened
      | ok bytes' =>
        obtain ⟨same, bounded⟩ := readFileBounded_ok loaded
        cases same
        rw [loaded] at opened
        simp only at opened
        cases scanned : fabricFormat.read Recovery.visit {} bytes with
        | error st => rw [scanned] at opened; cases opened
        | ok scan =>
          rw [scanned] at opened
          simp only at opened
          split at opened
          · cases opened
          · cases opened
            exact ⟨by simpa using named, ⟨created, rfl⟩, bounded, scan, scanned, rfl⟩

def touches (r : MutationRecord) (e : ExtentId) : Bool := r.scope.containsExtent e

abbrev LawfulEffects (history : List MutationRecord) : Prop :=
  LastWriter.Lawful touches (·.fenceToken) (·.incarnation) history

def framesOf (history : List MutationRecord) : Bytes :=
  history.flatMap fun r => fabricFormat.frame r.encode

def ownersOf (history : List MutationRecord) : ExtentMarks :=
  history.foldl (fun owners r => recordOwner r owners) SortedTable.empty

@[simp] theorem framesOf_append (history : List MutationRecord) (r : MutationRecord) :
    framesOf (history ++ [r]) = framesOf history ++ fabricFormat.frame r.encode := by
  simp [framesOf]

@[simp] theorem ownersOf_append (history : List MutationRecord) (r : MutationRecord) :
    ownersOf (history ++ [r]) = recordOwner r (ownersOf history) := by
  simp [ownersOf]

theorem find_recordOwner (r : MutationRecord) (owners : ExtentMarks) (e : ExtentId) :
    (recordOwner r owners).find e =
      if e ∈ r.scope.extents then some (ownerMark r e) else owners.find e :=
  ExtentMarks.find_stamp (fun _ => rfl) r.scope.extents owners e

/-- The owner table holds the last writer of each extent and nothing else. -/
theorem find_ownersOf (history : List MutationRecord) (e : ExtentId) :
    (ownersOf history).find e =
      (LastWriter.latest touches e history).map fun r => ownerMark r e := by
  induction history using List.reverseRecOn with
  | nil => rfl
  | append_singleton history r ih =>
    rw [ownersOf_append, find_recordOwner, LastWriter.latest_append]
    by_cases hit : e ∈ r.scope.extents
    · simp [hit, touches, Scope.containsExtent]
    · simp [hit, touches, Scope.containsExtent, ih]

/-- What the gate checks against the owner table is what the law asks of the last writers. -/
theorem admits_of_gate {history : List MutationRecord} {r : MutationRecord}
    (passed : ExtentMarks.Admits (ownersOf history) r.fenceToken r.incarnation r.scope.extents) :
    LastWriter.Admits touches (·.fenceToken) (·.incarnation) history r := by
  intro e hit v last
  have member : e ∈ r.scope.extents := by simpa [touches, Scope.containsExtent] using hit
  have mark : (ownersOf history).find e = some (ownerMark v e) := by rw [find_ownersOf, last]; rfl
  exact passed e member _ mark

theorem drop_window {α : Type} {window : Nat} (positive : 0 < window) (l : List α) (x : α) :
    (l ++ [x]).drop ((l ++ [x]).length - window) =
      (if window ≤ (l.drop (l.length - window)).length then (l.drop (l.length - window)).tail
        else l.drop (l.length - window)) ++ [x] := by
  rw [List.length_append, List.length_singleton, List.length_drop]
  by_cases full : window ≤ l.length
  · have start : l.length + 1 - window = l.length - window + 1 := by omega
    rw [if_pos (by omega), List.tail_drop, start, List.drop_append_of_le_length (by omega)]
  · have none : l.length + 1 - window = 0 := by omega
    have zero : l.length - window = 0 := by omega
    rw [if_neg (by omega), none, zero]
    rfl

theorem retained_append (history : List MutationRecord) (r : MutationRecord) :
    retained (history ++ [r]) =
      (if Limits.maxSnapshotRecords ≤ (retained history).length then (retained history).tail
        else retained history) ++ [r] :=
  drop_window (by decide) history r

/-- The histories that admitted calls build. -/
structure Durable (history : List MutationRecord) : Prop where
  intact : ∀ r ∈ history, r.Sealed
  numbered : history.map (·.storeSequence.toNat) = List.range' 1 history.length
  lawful : LawfulEffects history
  size : (framesOf history).length ≤ maxFileBytes

theorem Durable.empty : Durable [] :=
  ⟨by simp, rfl, List.Pairwise.nil, by simp [framesOf]⟩

theorem framesOf_length (history : List MutationRecord) :
    8 * history.length ≤ (framesOf history).length := by
  induction history with
  | nil => simp
  | cons r rest ih =>
    simp only [framesOf, List.flatMap_cons, List.length_append, LogFormat.frame_length,
      List.length_cons] at ih ⊢
    omega

/-- A file within the offset limit is far too small for the sequence to wrap. -/
theorem Durable.length_lt {history : List MutationRecord} (durable : Durable history) :
    history.length + 1 < 2 ^ 64 := by
  have bound := framesOf_length history
  have size := durable.size
  simp only [maxFileBytes] at size
  omega

theorem Durable.next_sequence {history : List MutationRecord} (durable : Durable history) :
    (UInt64.ofNat history.length + 1).toNat = history.length + 1 := by
  exact toNat_ofNat_succ durable.length_lt

/-- The laws of an effect log, whatever its size. -/
structure Chained (records : List MutationRecord) : Prop where
  intact : ∀ r ∈ records, r.Sealed
  numbered : records.map (·.storeSequence.toNat) = List.range' 1 records.length
  lawful : LawfulEffects records

theorem Durable.chained {records : List MutationRecord} (durable : Durable records) :
    Chained records := ⟨durable.intact, durable.numbered, durable.lawful⟩

theorem Durable.next {records : List MutationRecord} {r : MutationRecord}
    (durable : Durable records) (good : r.Sealed)
    (next : r.storeSequence = UInt64.ofNat records.length + 1)
    (passed : ExtentMarks.Admits (ownersOf records) r.fenceToken r.incarnation r.scope.extents) :
    Chained (records ++ [r]) where
  intact x member := by
    rcases List.mem_append.mp member with inside | last
    · exact durable.intact x inside
    · exact List.mem_singleton.mp last ▸ good
  numbered := by
    rw [List.map_append, durable.numbered, List.length_append, List.length_singleton,
      List.range'_concat, List.map_singleton, next, durable.next_sequence, Nat.one_mul,
      Nat.add_comm 1]
  lawful := LastWriter.lawful_append durable.lawful (admits_of_gate passed)

theorem Durable.append {history : List MutationRecord} {r : MutationRecord}
    (durable : Durable history) (good : r.Sealed)
    (next : r.storeSequence = UInt64.ofNat history.length + 1)
    (passed : ExtentMarks.Admits (ownersOf history) r.fenceToken r.incarnation r.scope.extents)
    (size : (framesOf history).length + (fabricFormat.frame r.encode).length ≤ maxFileBytes) :
    Durable (history ++ [r]) := by
  have chained := durable.next good next passed
  refine ⟨chained.intact, chained.numbered, chained.lawful, ?_⟩
  rwa [framesOf_append, List.length_append]

/-- A store whose memory is the history of its file. -/
structure Reflects (s : FabricStore) (history : List MutationRecord) : Prop where
  log : s.log = framesOf history
  owners : s.owners = ownersOf history
  last : s.lastSequence = UInt64.ofNat history.length
  records : s.records = retained history

theorem Reflects.accepted {s : FabricStore} {history : List MutationRecord} {r : MutationRecord}
    (durable : Durable history) (reflects : Reflects s history)
    (next : r.storeSequence = UInt64.ofNat history.length + 1) :
    Reflects (s.accepted r) (history ++ [r]) where
  log := by simp only [FabricStore.accepted, reflects.log, framesOf_append]
  owners := by simp only [FabricStore.accepted, reflects.owners, ownersOf_append]
  last := by
    rw [List.length_append, List.length_singleton, ofNat_succ durable.length_lt]
    exact next
  records := by simp only [FabricStore.accepted, reflects.records, retained_append]

theorem carries_sealed {r : MutationRecord} (good : r.Sealed) : fabricFormat.Carries r.encode r where
  filled := by
    intro h
    have size := congrArg List.length h
    simp [MutationRecord.encode, MutationRecord.bodyFields] at size
  fits := good.fits
  small := by decide
  decoded := (MutationRecord.reads_decode good).whole

/-- The number of the next record is the one that the log's length says. -/
theorem Durable.counts {done rest : List MutationRecord} {r : MutationRecord}
    (whole : Durable (done ++ r :: rest)) : r.storeSequence = UInt64.ofNat done.length + 1 ∧
      UInt64.ofNat (done ++ [r]).length = UInt64.ofNat done.length + 1 := by
  have number : r.storeSequence.toNat = done.length + 1 := by
    have h := congrArg (·[done.length]?) whole.numbered
    simpa [Nat.add_comm] using h
  have fits : done.length + 1 < 2 ^ 64 := number ▸ r.storeSequence.toNat_lt
  constructor
  · apply UInt64.toNat_inj.mp
    rw [number, toNat_ofNat_succ fits]
  · rw [List.length_append, List.length_singleton, ofNat_succ fits]

/-- The scanning loop rebuilds exactly the memory the calls had built. -/
theorem visitAll_history {history : List MutationRecord} (durable : Durable history) :
    ∃ count lastStep, LogFormat.visitAll Recovery.visit {} history = .ok {
      expected := UInt64.ofNat history.length + 1
      lastSequence := UInt64.ofNat history.length
      owners := ownersOf history
      records := history
      count := count
      lastStep := lastStep } := by
  have general : ∀ (rest done : List MutationRecord) (count : Nat) (step : Step),
      Durable (done ++ rest) → ∃ count' step',
        LogFormat.visitAll Recovery.visit ⟨UInt64.ofNat done.length + 1,
          UInt64.ofNat done.length, ownersOf done, done, count, step⟩ rest =
        .ok ⟨UInt64.ofNat (done ++ rest).length + 1, UInt64.ofNat (done ++ rest).length,
          ownersOf (done ++ rest), done ++ rest, count', step'⟩ := by
    intro rest
    induction rest with
    | nil =>
      intro done count step _
      exact ⟨count, step, by simp [LogFormat.visitAll]⟩
    | cons r rest ih =>
      intro done count step whole
      obtain ⟨sequence, grown⟩ := whole.counts
      have shifted : done ++ r :: rest = done ++ [r] ++ rest := by simp
      rw [shifted] at whole
      obtain ⟨count', step', visited⟩ := ih (done ++ [r]) (count + 1) r.committedAt whole
      refine ⟨count', step', ?_⟩
      rw [LogFormat.visitAll, Recovery.visit, if_neg (not_not.mpr sequence), shifted, ← visited,
        grown, ownersOf_append, sequence]
  exact general history [] 0 0 durable

/-- The files of one directory and the process that has them open, if any. -/
structure Boundary where
  header : Option Bytes := none
  log : Option Bytes := none
  store : FabricStore := {}

namespace Boundary

def admitMutation (b : Boundary) (call : MutationCall) (io : AppendIo) : Boundary :=
  let store := ((call.admitMutation io).exec b.store).2
  { b with store := store, log := if store.opened then some store.log else b.log }

/-- The old process ends; the new one holds a store only when `open` succeeds. A
header may have been created by an open that then failed. -/
def reopen (b : Boundary) (storeId : StoreId) (options : StoreOpenOptions) : Boundary :=
  match openStore b.header b.log storeId options with
  | .ok (store, header, _) => ⟨some header, some store.log, store⟩
  | .error _ =>
    { b with
      store := {}
      header := match storeId.isEmpty, openHeader b.header storeId options with
        | false, .ok (header, _) => some header
        | _, _ => b.header }

/-- Any calls in any order from an empty directory, as long as no write fails. -/
inductive Reachable : Boundary → Prop
  | empty : Reachable {}
  | admitMutation {b : Boundary} (call : MutationCall) (io : AppendIo) : Reachable b →
      (∀ st, ((call.admitMutation io).exec b.store).1 = .error st → st.outcome ≠ .unknown) →
      Reachable (b.admitMutation call io)
  | reopen {b : Boundary} (storeId : StoreId) (options : StoreOpenOptions) : Reachable b →
      Reachable (b.reopen storeId options)

structure Holds (b : Boundary) (history : List MutationRecord) : Prop where
  durable : Durable history
  file : b.log.getD [] = framesOf history
  memory : b.store.opened = true → Reflects b.store history ∧ b.log = some b.store.log

theorem holds_admit {b : Boundary} {history : List MutationRecord} {call : MutationCall}
    {io : AppendIo} (holds : b.Holds history)
    (written : ∀ st, ((call.admitMutation io).exec b.store).1 = .error st → st.outcome ≠ .unknown) :
    ∃ history', (b.admitMutation call io).Holds history' := by
  rcases ran : (call.admitMutation io).exec b.store with ⟨result, store⟩
  have after : b.admitMutation call io =
      { b with store := store, log := if store.opened then some store.log else b.log } := by
    simp only [admitMutation, ran]
  rw [ran] at written
  cases result with
  | error st =>
    have same : store = b.store := MutationCall.admit_refused ran (written st rfl)
    refine ⟨history, ?_⟩
    have unchanged : b.admitMutation call io = b := by
      rw [after, same]
      cases opened : b.store.opened with
      | true => simp only [if_true, ← (holds.memory opened).2]
      | false => rfl
    rw [unchanged]
    exact holds
  | ok r =>
    obtain ⟨opened, named, good, passed, rfl, size⟩ := MutationCall.admit_ok ran
    obtain ⟨reflects, _⟩ := holds.memory opened
    have next : r.storeSequence = UInt64.ofNat history.length + 1 := by
      rw [named, ← reflects.last]
      rfl
    rw [reflects.owners] at passed
    rw [reflects.log] at size
    have token : r.fenceToken = call.token := by rw [named]; rfl
    have incarnation : r.incarnation = call.incarnation := by rw [named]; rfl
    have scope : r.scope = call.scope := by rw [named]; rfl
    rw [← token, ← incarnation, ← scope] at passed
    have grown := Reflects.accepted holds.durable reflects next
    have still : (b.store.accepted r).opened = true := opened
    refine ⟨history ++ [r], holds.durable.append good next passed size, ?_, ?_⟩
    · rw [after, still]
      exact grown.log
    · intro _
      rw [after, still]
      exact ⟨grown, rfl⟩

theorem holds_reopen {b : Boundary} {history : List MutationRecord} (holds : b.Holds history)
    (storeId : StoreId) (options : StoreOpenOptions) :
    (b.reopen storeId options).Holds history := by
  unfold reopen
  cases opened : openStore b.header b.log storeId options with
  | error st => exact ⟨holds.durable, holds.file, by simp⟩
  | ok result =>
    obtain ⟨store, header, report⟩ := result
    obtain ⟨-, -, -, scan, read, rfl⟩ := openStore_ok opened
    have content : b.log.getD [] = framesOf history := holds.file
    obtain ⟨count, step, visited⟩ := visitAll_history holds.durable
    rw [content, framesOf, LogFormat.read_frames history
      (fun r member => carries_sealed (holds.durable.intact r member)), visited] at read
    obtain rfl := Except.ok.inj read
    have whole : (b.log.getD []).take (framesOf history).length = framesOf history := by
      rw [content]
      exact List.take_length
    refine ⟨holds.durable, whole, fun _ => ⟨⟨whole, rfl, rfl, ?_⟩, rfl⟩⟩
    simp only

theorem reachable_holds {b : Boundary} (reachable : Reachable b) :
    ∃ history, b.Holds history := by
  induction reachable with
  | empty => exact ⟨[], Durable.empty, rfl, by simp⟩
  | admitMutation call io _ written ih =>
    obtain ⟨history, holds⟩ := ih
    exact holds_admit holds written
  | reopen storeId options _ ih =>
    obtain ⟨history, holds⟩ := ih
    exact ⟨history, holds_reopen holds storeId options⟩

/-- The records a file carries, read frame by frame. -/
def recordsIn (file : Bytes) : Except Status (List MutationRecord) :=
  (fabricFormat.read (fun seen r => .ok (seen ++ [r])) [] file).map (·.state)

theorem recordsIn_framesOf {history : List MutationRecord} (durable : Durable history) :
    recordsIn (framesOf history) = .ok history := by
  have all : ∀ (rest done : List MutationRecord),
      LogFormat.visitAll (ε := Status) (fun seen r => .ok (seen ++ [r])) done rest =
        .ok (done ++ rest) := by
    intro rest
    induction rest with
    | nil => intro done; simp [LogFormat.visitAll]
    | cons r rest ih =>
      intro done
      refine (ih (done ++ [r])).trans ?_
      simp
  rw [recordsIn, framesOf, LogFormat.read_frames history
    (fun r member => carries_sealed (durable.intact r member)), all]
  rfl

/-- The effect boundary needs no registry: its log is numbered without gaps, tokens on
a shared extent never fall and an equal token has one incarnation, and a refused call
leaves no trace. -/
theorem effect_boundary {b : Boundary} (reachable : Reachable b) :
    (∃ history, recordsIn (b.log.getD []) = .ok history ∧
      history.map (·.storeSequence.toNat) = List.range' 1 history.length ∧
      history.Pairwise fun r r' => ∀ e, e ∈ r.scope.extents → e ∈ r'.scope.extents →
        r.fenceToken ≤ r'.fenceToken ∧
          (r.fenceToken = r'.fenceToken → r.incarnation = r'.incarnation)) ∧
    ∀ call io st, ((call.admitMutation io).exec b.store).1 = .error st → st.outcome ≠ .unknown →
      (b.admitMutation call io).log = b.log ∧ ((call.admitMutation io).exec b.store).2 = b.store := by
  obtain ⟨history, holds⟩ := reachable_holds reachable
  refine ⟨⟨history, ?_, holds.durable.numbered, ?_⟩, ?_⟩
  · rw [holds.file]
    exact recordsIn_framesOf holds.durable
  · refine holds.durable.lawful.imp ?_
    intro r r' law e inFirst inSecond
    exact law e (by simpa [touches, Scope.containsExtent] using inFirst)
      (by simpa [touches, Scope.containsExtent] using inSecond)
  · intro call io st refused known
    have same : ((call.admitMutation io).exec b.store).2 = b.store :=
      MutationCall.admit_refused (Prod.ext refused rfl) known
    refine ⟨?_, same⟩
    simp only [admitMutation, same]
    cases opened : b.store.opened with
    | true => simp only [if_true, ← (holds.memory opened).2]
    | false => rfl

theorem sampleExtent_named : (Id.make [120] : ExtentId).isEmpty = false := by decide

def sampleScope : Scope :=
  ⟨[Id.make [120], Id.make [121]], by decide, by decide, by decide⟩

def sampleCall (token : FenceToken) (incarnation : IncarnationId) (scope : Scope) :
    MutationCall where
  domain := Id.make [100]
  token := token
  scope := scope
  epoch := 1
  incarnation := incarnation
  grant := token
  operation := [111]
  payloadDigest := .zero
  now := 1

def narrowCall (token : FenceToken) (incarnation : IncarnationId) : MutationCall :=
  sampleCall token incarnation (Scope.single (Id.make [120]) sampleExtent_named)

/-- Two writes of one owner, and one of another that takes more. -/
def takenOver : Boundary :=
  (((reopen {} (Id.make [115]) {}).admitMutation (narrowCall 5 2) .done).admitMutation
    (narrowCall 5 2) .done).admitMutation (sampleCall 7 3 sampleScope) .done

/-- Behind a reopen a late write of the first owner is refused, and a third one writes. -/
def sampleBoundary : Boundary :=
  ((takenOver.reopen (Id.make [115]) {}).admitMutation (narrowCall 5 2) .done).admitMutation
    (narrowCall 8 4) .done

theorem effect_boundary_sample :
    (sampleBoundary.store.opened && sampleBoundary.store.lastSequence == 4) = true ∧
    (∃ history, recordsIn (sampleBoundary.log.getD []) = .ok history ∧
      history.map (·.storeSequence.toNat) = List.range' 1 history.length ∧
      history.Pairwise fun r r' => ∀ e, e ∈ r.scope.extents → e ∈ r'.scope.extents →
        r.fenceToken ≤ r'.fenceToken ∧
          (r.fenceToken = r'.fenceToken → r.incarnation = r'.incarnation)) ∧
    ∀ call io st, ((call.admitMutation io).exec sampleBoundary.store).1 = .error st →
      st.outcome ≠ .unknown →
      (sampleBoundary.admitMutation call io).log = sampleBoundary.log ∧
        ((call.admitMutation io).exec sampleBoundary.store).2 = sampleBoundary.store := by
  have known : ∀ {r : Except Status MutationRecord},
      (match r with | .ok _ => true | .error st => st.outcome != .unknown) = true →
      ∀ st, r = .error st → st.outcome ≠ .unknown := by
    rintro r fine st rfl
    simpa using fine
  have before : Reachable takenOver :=
    .admitMutation _ _ (.admitMutation _ _ (.admitMutation _ _ (.reopen _ _ .empty)
      (known (by decide +kernel))) (known (by decide +kernel))) (known (by decide +kernel))
  have reached : Reachable sampleBoundary :=
    .admitMutation _ _ (.admitMutation _ _ (.reopen _ _ before) (known (by decide +kernel)))
      (known (by decide +kernel))
  exact ⟨by decide +kernel, effect_boundary reached⟩

end Boundary
end SplitBrainFabric
