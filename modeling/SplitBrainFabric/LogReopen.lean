import Mathlib.Algebra.GroupWithZero.Nat
import SplitBrainFabric.TornWrites

/-! The effect log cut anywhere. An open with torn-tail recovery is back where the store
was after the last admission whose record is still whole. -/

namespace SplitBrainFabric
open Words Decoder

namespace MutationRecord

/-- A record reads back from its image exactly when its digest is that of its contents. -/
theorem decode_encode {r : MutationRecord} (named : r.domain.isEmpty = false)
    (printable : operationValid r.operation = true) :
    Reader.decode decode r.encode =
      if r.recordDigest = r.computeRecordDigest then .ok r
      else .error (.make .corrupt .integrityMismatch) := by
  have short : r.operation.length < 65536 := by
    have size := operationValid_length printable
    omega
  have image : r.encode = Writer.u64 r.storeSequence ++ (Writer.text r.domain.value ++
      (Writer.blob r.scope.encode ++ (Writer.u64 r.epoch ++ (Writer.u64 r.incarnation ++
        (Writer.u64 r.grant ++ (Writer.u64 r.fenceToken ++ (Writer.u64 r.committedAt ++
          (Writer.text r.operation ++ (Writer.digest r.payloadDigest ++
            (Writer.digest r.recordDigest ++ [])))))))))) := by
    simp only [encode, bodyFields, List.cons_append, List.nil_append, List.flatten_cons,
      List.flatten_nil]
  unfold Reader.decode Decoder.whole
  rw [image, decode, (reads_u64 _).run_then, (reads_identifier named).run_then,
    r.scope.reads_nested_scope.run_then, (reads_u64 _).run_then, (reads_u64 _).run_then,
    (reads_u64 _).run_then, (reads_u64 _).run_then, (reads_u64 _).run_then,
    (reads_text short).run_then, run_refuseIf_bind _ _ (by simp [printable]),
    (reads_digest _).run_then, (reads_digest _).run_then]
  by_cases same : r.recordDigest = r.computeRecordDigest
  · rw [if_pos same, run_refuseIf_bind _ _ (not_not.mpr same)]
    rfl
  · rw [if_neg same, run_bind, Decoder.refuseIf, if_pos same]
    rfl

end MutationRecord

theorem framesOf_mono {whole history : List MutationRecord} (front : whole <+: history) :
    framesOf whole <+: framesOf history := by
  obtain ⟨rest, rfl⟩ := front
  rw [framesOf, framesOf, List.flatMap_append]
  exact List.prefix_append _ _

theorem Durable.front {whole history : List MutationRecord} (durable : Durable history)
    (front : whole <+: history) : Durable whole := by
  refine ⟨fun r member => durable.intact r (front.subset member), ?_,
    durable.lawful.sublist front.sublist, (framesOf_mono front).length_le.trans durable.size⟩
  obtain ⟨rest, rfl⟩ := front
  have numbered := durable.numbered
  rw [List.map_append, List.length_append, ← List.range'_append_1] at numbered
  exact List.append_inj_left numbered (by simp)

namespace FabricStore

/-- Successful admissions on a fresh log: the records, and the stores from the first on. -/
inductive Admitted (storeId : StoreId) (header : Bytes) :
    List MutationRecord → List FabricStore → FabricStore → Prop
  | opened {options : StoreOpenOptions} {s : FabricStore} {report : StoreRecoveryReport} :
      openStore none none storeId options = .ok (s, header, report) →
      Admitted storeId header [] [s] s
  | admitMutation {records : List MutationRecord} {stores : List FabricStore}
      {s s' : FabricStore} {r : MutationRecord} (call : MutationCall) (io : AppendIo) :
      Admitted storeId header records stores s →
      (call.admitMutation io).exec s = (.ok r, s') →
      Admitted storeId header (records ++ [r]) (stores ++ [s']) s'

/-- The stores reflect the prefixes of the history, one after another. -/
structure Recorded (records : List MutationRecord) (stores : List FabricStore) : Prop where
  durable : Durable records
  length : stores.length = records.length + 1
  reflects : ∀ i s, stores[i]? = some s → Reflects s (records.take i)

theorem Admitted.recorded {storeId : StoreId} {header : Bytes} {records : List MutationRecord}
    {stores : List FabricStore} {s : FabricStore}
    (run : Admitted storeId header records stores s) :
    Recorded records stores ∧ stores[records.length]? = some s ∧ storeId.isEmpty = false ∧
      ∀ options, openHeader (some header) storeId options = .ok (header, false) := by
  induction run with
  | opened ran =>
    obtain ⟨named, rfl, created, made⟩ := openStore_fresh ran
    refine ⟨⟨Durable.empty, rfl, fun i s found => ?_⟩, rfl, named,
      fun options => openHeader_again named made⟩
    cases i with
    | zero =>
      cases found
      exact ⟨rfl, rfl, rfl, rfl⟩
    | succ i => cases found
  | @admitMutation records stores s s' r call io _ ran ih =>
    obtain ⟨recorded, last, named, known⟩ := ih
    obtain ⟨-, made, good, passed, rfl, size⟩ := MutationCall.admit_ok ran
    have reflects := recorded.reflects records.length s last
    rw [List.take_length] at reflects
    have next : r.storeSequence = UInt64.ofNat records.length + 1 := by
      rw [made, ← reflects.last]
      rfl
    have token : r.fenceToken = call.token := by rw [made]; rfl
    have incarnation : r.incarnation = call.incarnation := by rw [made]; rfl
    have scope : r.scope = call.scope := by rw [made]; rfl
    rw [reflects.owners, ← token, ← incarnation, ← scope] at passed
    rw [reflects.log] at size
    have durable := recorded.durable.append good next passed size
    have grown := Reflects.accepted recorded.durable reflects next
    refine ⟨⟨durable, ?_, fun i t found => ?_⟩, ?_, named, known⟩
    · rw [List.length_append, List.length_append, recorded.length]
      rfl
    · by_cases before : i < stores.length
      · rw [List.getElem?_append_left before] at found
        have small : i ≤ records.length := by
          have length := recorded.length
          omega
        rw [List.take_append_of_le_length small]
        exact recorded.reflects i t found
      · obtain ⟨bound, same⟩ := List.getElem?_eq_some_iff.mp found
        rw [List.length_append, List.length_singleton] at bound
        have here : i = stores.length := by omega
        subst here
        simp only [List.getElem_concat_length] at same
        subst same
        have full : (records ++ [r]).length ≤ stores.length := by
          rw [recorded.length, List.length_append]
          exact le_rfl
        rw [List.take_of_length_le full]
        exact grown
    · rw [List.length_append, List.length_singleton, ← recorded.length]
      simp

/-- A log that is short enough opens as it was left, with the owners and the window of its
records. -/
theorem Admitted.reopens {storeId : StoreId} {header : Bytes} {records : List MutationRecord}
    {stores : List FabricStore} {s : FabricStore}
    (run : Admitted storeId header records stores s)
    (small : s.log.length ≤ Limits.maxFabricStoreBytes) (options : StoreOpenOptions) :
    ∃ t report, openStore (some header) (some s.log) storeId options = .ok (t, header, report) ∧
      t.owners = s.owners ∧ t.records = retained records := by
  obtain ⟨recorded, last, named, known⟩ := run.recorded
  have reflects := recorded.reflects records.length s last
  rw [List.take_length] at reflects
  have bounded : readFileBounded (some s.log) Limits.maxFabricStoreBytes = .ok s.log := by
    simp only [readFileBounded, if_neg (Nat.not_lt.mpr small)]
  obtain ⟨count, step, visited⟩ := visitAll_history recorded.durable
  have scanned := @LogFormat.read_frames _ _ _ fabricFormat Recovery.visit MutationRecord.encode
    records (fun r member => carries_sealed (recorded.durable.intact r member)) {}
  rw [visited, ← framesOf, ← reflects.log] at scanned
  simp only [openStore, named, known options, bounded, scanned, bind, Except.bind,
    Bool.false_eq_true, if_false, Except.map, Bool.false_and]
  refine ⟨_, _, rfl, reflects.owners.symm, ?_⟩
  simp only

/-- The store an open finds in a cut log is one of those that were in memory. -/
theorem effect_log_reopens {storeId : StoreId} {header : Bytes} {records : List MutationRecord}
    {stores : List FabricStore} {s : FabricStore} {options : StoreOpenOptions}
    (run : Admitted storeId header records stores s)
    (small : s.log.length ≤ Limits.maxFabricStoreBytes)
    (allowed : options.allowTornTailRecovery = true) (k : Nat) :
    (∃ j t, stores[j]? = some t ∧ t.log.length ≤ k ∧
      (∀ i u, j < i → stores[i]? = some u → k < u.log.length) ∧
      ∃ s' report, openStore (some header) (some (s.log.take k)) storeId options =
          .ok (s', header, report) ∧
        s'.owners = t.owners ∧ s'.lastSequence = t.lastSequence ∧ s'.records = t.records ∧
        ∀ {σ : Type} (visit : σ → MutationRecord → Except Status σ) (x : σ),
          s'.load visit x = LogFormat.visitAll visit x (records.take j)) ∧
      (∀ r ∈ records, Reader.decode MutationRecord.decode r.encode = .ok r) ∧
      ∀ r : MutationRecord, r.domain.isEmpty = false → operationValid r.operation = true →
        Reader.decode MutationRecord.decode r.encode =
          if r.recordDigest = r.computeRecordDigest then .ok r
          else .error (.make .corrupt .integrityMismatch) := by
  obtain ⟨recorded, last, named, known⟩ := run.recorded
  have decoded : ∀ r ∈ records, Reader.decode MutationRecord.decode r.encode = .ok r := by
    intro r member
    have good := recorded.durable.intact r member
    rw [MutationRecord.decode_encode good.named good.printable, if_pos good.digest]
  refine ⟨?_, decoded, fun r => MutationRecord.decode_encode⟩
  have log := (recorded.reflects records.length s last).log
  rw [List.take_length] at log
  have carries : ∀ r ∈ records, fabricFormat.Carries r.encode r :=
    fun r member => carries_sealed (recorded.durable.intact r member)
  have front := LogFormat.fitting_prefix fabricFormat MutationRecord.encode k records
  have contents := LogFormat.contents_cut carries k
  have fits : (framesOf (fabricFormat.fitting MutationRecord.encode k records)).length ≤ k :=
    LogFormat.fitting_fits records k
  have most : ∀ {i}, (fabricFormat.fitting MutationRecord.encode k records).length < i →
      i ≤ records.length → k < (framesOf (records.take i)).length :=
    fun beyond inside => LogFormat.fitting_most beyond inside
  generalize whole_eq : fabricFormat.fitting MutationRecord.encode k records = whole at *
  have taken : records.take whole.length = whole := (List.prefix_iff_eq_take.mp front).symm
  have inside : whole.length < stores.length := by
    have size := front.length_le
    rw [recorded.length]
    omega
  have mirror := recorded.reflects whole.length _ (List.getElem?_eq_getElem inside)
  rw [taken] at mirror
  refine ⟨whole.length, _, List.getElem?_eq_getElem inside, ?_, ?_, ?_⟩
  · rw [mirror.log]
    exact fits
  · intro i u beyond found
    have bound := (List.getElem?_eq_some_iff.mp found).1
    rw [recorded.length] at bound
    rw [(recorded.reflects i u found).log]
    exact most beyond (by omega)
  · have durable := recorded.durable.front front
    obtain ⟨count, step, visited⟩ := visitAll_history durable
    have cut : (s.log.take k).length ≤ Limits.maxFabricStoreBytes :=
      (List.length_take_le' k s.log).trans small
    have scanned := LogFormat.read_contents contents visited
    rw [← framesOf, ← log] at scanned
    obtain ⟨report, opened⟩ := openStore_reads named (known options) cut scanned allowed
    refine ⟨_, report, opened, ?_, ?_, ?_, ?_⟩
    · exact mirror.owners.symm
    · rw [mirror.last]
    · rw [mirror.records]
    intro σ visit x
    have content : (s.log.take k).take (framesOf whole).length = framesOf whole := by
      have start := List.prefix_iff_eq_take.mp (framesOf_mono front)
      have short : (framesOf whole).length ≤ k := fits
      rw [List.take_take, Nat.min_eq_left short, log]
      exact start.symm
    rw [taken]
    have size : ((s.log.take k).take (framesOf whole).length).length ≤
        Limits.maxFabricStoreBytes := by
      rw [content]
      exact (framesOf_mono front).length_le.trans (log ▸ small)
    exact load_visits durable size content visit x

/-- The store behind one more call. -/
def behind (call : MutationCall) (s : FabricStore) : FabricStore := s.accepted (call.record s)

theorem behind_admits {call : MutationCall} {s : FabricStore}
    (fine : ((call.admitMutation .done).exec s).1.isOk = true) :
    (call.admitMutation .done).exec s = (.ok (call.record s), behind call s) := by
  rcases ran : (call.admitMutation .done).exec s with ⟨result, s'⟩
  rw [ran] at fine
  cases result with
  | error st => cases fine
  | ok r =>
    obtain ⟨-, rfl, -, -, rfl, -⟩ := MutationCall.admit_ok ran
    rfl

def laterCall : MutationCall := { sampleCall with token := 7, incarnation := 3, grant := 2 }

def writtenOnce : FabricStore := behind sampleCall emptyFabric.store
def writtenTwice : FabricStore := behind sampleCall writtenOnce
def writtenOver : FabricStore := behind laterCall writtenTwice

/-- Two records of one owner and one of the next, cut inside the last: the first one owns. -/
theorem effect_log_reopens_cut : ∃ records,
    Admitted (Id.make [115]) sampleHeader records
      [emptyFabric.store, writtenOnce, writtenTwice, writtenOver] writtenOver ∧
    records.length = 3 ∧ ∃ s' report,
      openStore (some sampleHeader) (some (writtenOver.log.take 300)) (Id.make [115]) {} =
        .ok (s', sampleHeader, report) ∧
      s'.owners = writtenTwice.owners ∧ s'.lastSequence = writtenTwice.lastSequence ∧
      s'.records = writtenTwice.records := by
  have fresh : Admitted (Id.make [115]) sampleHeader [] [emptyFabric.store] emptyFabric.store :=
    @Admitted.opened _ _ {} _ _ rfl
  have once : (sampleCall.admitMutation .done).exec emptyFabric.store = (.ok _, writtenOnce) :=
    behind_admits (by decide +kernel)
  have twice : (sampleCall.admitMutation .done).exec writtenOnce = (.ok _, writtenTwice) :=
    behind_admits (by decide +kernel)
  have taken : (laterCall.admitMutation .done).exec writtenTwice = (.ok _, writtenOver) :=
    behind_admits (by decide +kernel)
  have run := ((fresh.admitMutation sampleCall .done once).admitMutation sampleCall .done
    twice).admitMutation laterCall .done taken
  have two : writtenTwice.log.length = 274 := by decide +kernel
  have three : writtenOver.log.length = 411 := by decide +kernel
  have within : writtenOver.log.length ≤ Limits.maxFabricStoreBytes := by
    rw [three]
    decide
  have recovers : ({} : StoreOpenOptions).allowTornTailRecovery = true := rfl
  obtain ⟨⟨j, t, found, size, most, s', report, opened, owners, last, window, -⟩, -⟩ :=
    effect_log_reopens run within recovers 300
  refine ⟨_, run, rfl, s', report, opened, ?_⟩
  have least : ¬ j < 2 := fun early => absurd (most 2 writtenTwice early rfl) (by omega)
  have here : t = writtenTwice := by
    match j, found with
    | 0, _ | 1, _ => exact absurd (by decide) least
    | 2, found => exact (Option.some.inj found).symm
    | 3, found =>
      have whole : writtenOver = t := Option.some.inj found
      rw [← whole, three] at size
      exact absurd size (by decide)
    | j + 4, found => cases found
  exact here ▸ ⟨owners, last, window⟩

section Growth

/-- What an admission adds to the file: a frame around fields of the call's own. -/
def fileBytes (call : MutationCall) : Nat :=
  128 + call.domain.value.length + call.scope.encode.length + call.operation.length

theorem frame_fileBytes (call : MutationCall) (s : FabricStore) :
    (fabricFormat.frame (call.record s).encode).length = fileBytes call := by
  rw [LogFormat.frame_length]
  simp only [MutationRecord.encode, MutationRecord.bodyFields, List.cons_append, List.nil_append,
    List.flatten_cons, List.flatten_nil, List.length_append, Writer.u64_length, Writer.text_length,
    Writer.blob_length, Writer.digest_length, List.length_nil, MutationCall.record, candidate,
    fileBytes]
  omega

/-- Successful admissions on a fresh log, by their calls. -/
inductive Filled (storeId : StoreId) (header : Bytes) : List MutationCall → FabricStore → Prop
  | opened {options : StoreOpenOptions} {s : FabricStore} {report : StoreRecoveryReport} :
      openStore none none storeId options = .ok (s, header, report) → Filled storeId header [] s
  | admitMutation {calls : List MutationCall} {s s' : FabricStore} {r : MutationRecord}
      (call : MutationCall) (io : AppendIo) : Filled storeId header calls s →
      (call.admitMutation io).exec s = (.ok r, s') → Filled storeId header (calls ++ [call]) s'

theorem Filled.admitted {storeId : StoreId} {header : Bytes} {calls : List MutationCall}
    {s : FabricStore} (run : Filled storeId header calls s) :
    (∃ records stores, Admitted storeId header records stores s) ∧
      s.log.length = (calls.map fileBytes).sum := by
  induction run with
  | opened ran =>
    obtain ⟨-, rfl, -⟩ := openStore_fresh ran
    exact ⟨⟨_, _, .opened ran⟩, rfl⟩
  | admitMutation call io _ ran ih =>
    obtain ⟨⟨records, stores, before⟩, size⟩ := ih
    obtain ⟨-, made, -, -, rfl, -⟩ := MutationCall.admit_ok ran
    refine ⟨⟨_, _, before.admitMutation call io ran⟩, ?_⟩
    simp only [accepted, List.length_append, List.map_append, List.sum_append, List.map_cons,
      List.map_nil, List.sum_cons, List.sum_nil, Nat.add_zero, size, made, frame_fileBytes]

/-- What was written opens again exactly as long as the calls together stay within what an
open reads. -/
theorem effect_log_bounded {storeId : StoreId} {header : Bytes} {calls : List MutationCall}
    {s : FabricStore} (run : Filled storeId header calls s) (options : StoreOpenOptions) :
    (∃ t header' report, openStore (some header) (some s.log) storeId options =
        .ok (t, header', report)) ↔
      (calls.map fileBytes).sum ≤ Limits.maxFabricStoreBytes := by
  obtain ⟨⟨records, stores, admitted⟩, size⟩ := run.admitted
  obtain ⟨recorded, last, named, known⟩ := admitted.recorded
  have reflects := recorded.reflects records.length s last
  rw [List.take_length] at reflects
  rw [← size]
  constructor
  · rintro ⟨t, header', report, opened⟩
    by_contra large
    have refused : ∃ st, readFileBounded (some s.log) Limits.maxFabricStoreBytes = .error st := by
      simp only [readFileBounded, if_pos (Nat.lt_of_not_le large)]
      exact ⟨_, rfl⟩
    obtain ⟨st, refused⟩ := refused
    simp only [openStore, named, known options, refused, bind, Except.bind, Bool.false_eq_true,
      if_false] at opened
    cases opened
  · intro small
    obtain ⟨t, report, opened, -, -⟩ := admitted.reopens small options
    exact ⟨t, _, report, opened⟩

theorem admit_runs {call : MutationCall} {s : FabricStore} (opened : s.opened = true)
    (named : call.domain.isEmpty = false) (filled : call.scope.isEmpty = false)
    (token : call.token ≠ 0) (incarnation : call.incarnation ≠ 0)
    (printable : operationValid call.operation = true)
    (passed : ExtentMarks.Admits s.owners call.token call.incarnation call.scope.extents)
    (fits : fileBytes call ≤ Limits.maxJournalRecordBytes + 8)
    (room : s.log.length + fileBytes call ≤ maxFileBytes) :
    (call.admitMutation .done).exec s = (.ok (call.record s), s.accepted (call.record s)) := by
  have frame := frame_fileBytes call s
  have size := LogFormat.frame_length fabricFormat (call.record s).encode
  have short : ¬ Limits.maxJournalRecordBytes < (call.record s).encode.length := by omega
  have narrow : ¬ Limits.maxExtentsPerScope < call.scope.size := Nat.not_lt.mpr call.scope.bounded
  have gate : gate s.owners call.token call.incarnation call.scope.extents = .ok ⟨⟩ :=
    ExtentMarks.check_ok.mpr passed
  have settled : AppendIo.done.settle s.log.length (fabricFormat.frame (call.record s).encode) =
      .done := AppendIo.done_settles (by omega)
  have written : (append (call.record s) .done).exec s = (.ok ⟨⟩, s.accepted (call.record s)) := by
    rw [append, Prog.exec_get_bind]
    simp only [settled]
    rfl
  rw [MutationCall.admitMutation, FabricStore.admitMutation, Prog.exec_get_bind,
    Prog.exec_refuseIf, if_neg (by simp [opened]), Prog.exec_refuseIf, if_neg (by simp [named]),
    Prog.exec_refuseIf, if_neg (by simp [filled]), Prog.exec_refuseIf, if_neg token,
    Prog.exec_refuseIf, if_neg incarnation, Prog.exec_refuseIf, if_neg (by simp [printable]),
    Prog.exec_refuseIf, if_neg narrow, gate, Prog.exec_ofExcept_bind, Prog.exec_refuseIf]
  exact (if_neg short).trans (Prog.exec_bind_ok written)

theorem sampleCall_fileBytes : fileBytes sampleCall = 137 := by decide +kernel

/-- Once through the gate, the same call passes it again. -/
theorem passes_again (call : MutationCall) (s : FabricStore) :
    ExtentMarks.Admits (s.accepted (call.record s)).owners call.token call.incarnation
      call.scope.extents := by
  intro e inside state found
  have mark := find_recordOwner (call.record s) s.owners e
  have here : e ∈ (call.record s).scope.extents := inside
  rw [if_pos here] at mark
  have same := Option.some.inj (found.symm.trans mark)
  rw [same]
  exact ⟨le_rfl, fun _ => rfl⟩

/-- The same admission over and over, for as long as the file has room. -/
theorem repeat_runs {call : MutationCall} {s : FabricStore} (opened : s.opened = true)
    (named : call.domain.isEmpty = false) (filled : call.scope.isEmpty = false)
    (token : call.token ≠ 0) (incarnation : call.incarnation ≠ 0)
    (printable : operationValid call.operation = true)
    (passed : ExtentMarks.Admits s.owners call.token call.incarnation call.scope.extents)
    (fits : fileBytes call ≤ Limits.maxJournalRecordBytes + 8) {P : Nat → FabricStore → Prop}
    (start : P 0 s)
    (step : ∀ n t, P n t →
      (call.admitMutation .done).exec t = (.ok (call.record t), t.accepted (call.record t)) →
      P (n + 1) (t.accepted (call.record t)))
    (n : Nat) (room : s.log.length + n * fileBytes call ≤ maxFileBytes) :
    ∃ t, P n t ∧ t.log.length = s.log.length + n * fileBytes call ∧ t.opened = true ∧
      ExtentMarks.Admits t.owners call.token call.incarnation call.scope.extents := by
  induction n with
  | zero => exact ⟨s, start, by omega, opened, passed⟩
  | succ n ih =>
    rw [Nat.succ_mul] at room
    obtain ⟨t, reached, size, opened, passed⟩ := ih (by omega)
    have ran := admit_runs opened named filled token incarnation printable passed fits
      (by omega : t.log.length + fileBytes call ≤ maxFileBytes)
    refine ⟨_, step n t reached ran, ?_, opened, passes_again call t⟩
    rw [accepted, List.length_append, frame_fileBytes, size, Nat.succ_mul]
    omega

theorem filled_many (n : Nat) (few : n ≤ 2 ^ 22) : ∃ s,
    Filled (Id.make [115]) sampleHeader (List.replicate n sampleCall) s := by
  have bytes := sampleCall_fileBytes
  have fresh : ExtentMarks.Admits emptyFabric.store.owners sampleCall.token
      sampleCall.incarnation sampleCall.scope.extents := by
    intro e _ state found
    cases found
  have fits : fileBytes sampleCall ≤ Limits.maxJournalRecordBytes + 8 := by
    rw [bytes]
    decide
  have start : Filled (Id.make [115]) sampleHeader (List.replicate 0 sampleCall)
      emptyFabric.store := @Filled.opened _ _ {} _ _ rfl
  have room : emptyFabric.store.log.length + n * fileBytes sampleCall ≤ maxFileBytes := by
    rw [bytes, maxFileBytes]
    exact (Nat.add_le_add_left (Nat.mul_le_mul_right 137 few) 0).trans (by decide)
  have step : ∀ k t, Filled (Id.make [115]) sampleHeader (List.replicate k sampleCall) t →
      (sampleCall.admitMutation .done).exec t =
        (.ok (sampleCall.record t), t.accepted (sampleCall.record t)) →
      Filled (Id.make [115]) sampleHeader (List.replicate (k + 1) sampleCall)
        (t.accepted (sampleCall.record t)) := by
    intro k t run ran
    rw [List.replicate_succ']
    exact run.admitMutation sampleCall .done ran
  obtain ⟨s, run, -, -, -⟩ := repeat_runs rfl rfl rfl (by decide) (by decide) (by decide) fresh fits
    (P := fun k t => Filled (Id.make [115]) sampleHeader (List.replicate k sampleCall) t)
    start step n room
  exact ⟨s, run⟩

/-- Four million small effects, every one acknowledged, and a file no open accepts. -/
theorem effect_log_outgrows : ¬ ∀ storeId header calls s options,
    Filled storeId header calls s → ∃ t header' report,
      openStore (some header) (some s.log) storeId options = .ok (t, header', report) := by
  intro claimed
  obtain ⟨s, run⟩ := filled_many 4000000 (by decide)
  have small := (effect_log_bounded run {}).mp (claimed _ _ _ _ {} run)
  rw [List.map_replicate, List.sum_replicate_nat, sampleCall_fileBytes] at small
  exact absurd small (by decide)

theorem effect_log_bounded_sample : ∃ s,
    Filled (Id.make [115]) sampleHeader (List.replicate 2 sampleCall) s ∧
      ((∃ t header' report, openStore (some sampleHeader) (some s.log) (Id.make [115]) {} =
        .ok (t, header', report)) ↔
      ((List.replicate 2 sampleCall).map fileBytes).sum ≤ Limits.maxFabricStoreBytes) := by
  obtain ⟨s, run⟩ := filled_many 2 (by decide)
  exact ⟨s, run, effect_log_bounded run {}⟩

end Growth

end FabricStore
end SplitBrainFabric
