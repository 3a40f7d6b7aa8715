import SplitBrainFabric.JournalRecovery
import SplitBrainFabric.Lockstep

/-! What the files of a store hold of a history: a snapshot, the records behind it, and maybe
some that it covers already. A failed append leaves a part of one record at the end, no more. -/

namespace SplitBrainFabric
open Words

namespace Store

open History (covered)

/-- What is taken for the snapshot of a directory; one that does not read is passed by. -/
def savedPoint (snapshot : Option Bytes) : Option Checkpoint :=
  match readSnapshot (fun _ => true) snapshot with
  | .ok (header, blob) => some ⟨blob, header.coversSequence⟩
  | .error _ => none

theorem savedPoint_written {s : Store} {blob : Bytes} {now : Step}
    (identified : s.storeId.isEmpty = false) (fits : blob.length ≤ Limits.maxSnapshotBytes) :
    savedPoint (some (s.snapshotBytes blob now)) = some ⟨blob, s.lastSequence⟩ := by
  obtain ⟨h, read, covers, -⟩ := @readSnapshot_written s blob now (fun _ => true) identified fits
    fun _ _ => rfl
  rw [savedPoint, read]
  simp only [covers]

/-- A snapshot that is read under some name is read under any. -/
theorem readSnapshot_any {named : SnapshotHeader → Bool} {snapshot : Option Bytes}
    {r : SnapshotHeader × Bytes} (read : readSnapshot named snapshot = .ok r) :
    readSnapshot (fun _ => true) snapshot = .ok r := by
  unfold readSnapshot at read ⊢
  cases file : readFileBounded snapshot maxSnapshotFileBytes with
  | error st => rw [file] at read; cases read
  | ok bytes =>
    rw [file] at read
    simp only [bind, Except.bind] at read ⊢
    cases decoded : decodeSnapshotHeader bytes with
    | error st => rw [decoded] at read; cases read
    | ok header =>
      rw [decoded] at read
      simp only at read ⊢
      split at read
      · cases read
      · rw [if_neg Bool.noConfusion]
        exact read

/-- An open and a load agree on what the snapshot covers. -/
theorem savedPoint_covered {storeId : StoreId} {snapshot : Option Bytes}
    {found : Option Sequence} (known : openSnapshot storeId snapshot = .ok found) :
    coveredBy storeId snapshot = covered (savedPoint snapshot) := by
  rw [coveredBy_of known]
  cases snapshot with
  | none =>
    cases known
    rfl
  | some bytes =>
    rw [openSnapshot] at known
    cases read : readSnapshot (fun h => decide (h.storeId = storeId)) (some bytes) with
    | error st => rw [read] at known; cases known
    | ok r =>
      rw [read] at known
      cases known
      rw [savedPoint, readSnapshot_any read]
      rfl

/-- A history, and the records of it that are in the file: some that the snapshot covers, then
the ones behind it, numbered on from it. -/
structure Laid (covers : Sequence) (before stale since : List JournalRecord) : Prop where
  carried : ∀ r ∈ stale ++ since, journalFormat.Carries r.encode r
  old : ∀ r ∈ before ++ stale, r.sequence ≤ covers
  numbered : since.map (·.sequence.toNat) = List.range' (covers.toNat + 1) since.length
  last : (History.lastSequence (before ++ since)).toNat = covers.toNat + since.length

section Laid

variable {covers : Sequence} {before stale since : List JournalRecord} {r : JournalRecord}

theorem lastSequence_concat (log : List JournalRecord) (r : JournalRecord) :
    History.lastSequence (log ++ [r]) = r.sequence := by
  simp [History.lastSequence]

theorem Laid.append (laid : Laid covers before stale since)
    (next : r.sequence = History.lastSequence (before ++ since) + 1) (numbered : r.sequence ≠ 0)
    (fits : r.encode.length ≤ Limits.maxJournalRecordBytes) :
    Laid covers before stale (since ++ [r]) := by
  have room : History.lastSequence (before ++ since) ≠ maxWord := by
    intro full
    rw [full, succ_maxWord] at next
    exact numbered next
  have sequence : r.sequence.toNat = covers.toNat + 1 + since.length := by
    rw [next, toNat_succ room, laid.last]
    omega
  refine ⟨?_, laid.old, ?_, ?_⟩
  · intro x member
    rw [← List.append_assoc] at member
    rcases List.mem_append.mp member with old | new
    · exact laid.carried x old
    · rw [List.mem_singleton.mp new]
      exact carries_record numbered fits
  · rw [List.length_append, List.length_singleton, List.range'_1_concat, List.map_append,
      List.map_singleton, laid.numbered, sequence]
  · rw [← List.append_assoc, lastSequence_concat, sequence, List.length_append,
      List.length_singleton]
    omega

theorem Laid.above (laid : Laid covers before stale since) (member : r ∈ since) :
    covers < r.sequence ∧ r.sequence ≤ History.lastSequence (before ++ since) := by
  have within := List.mem_map_of_mem member (f := fun r => r.sequence.toNat)
  rw [laid.numbered, List.mem_range'_1] at within
  rw [UInt64.lt_iff_toNat_lt, UInt64.le_iff_toNat_le, laid.last]
  omega

theorem Laid.level (laid : Laid covers before stale since) :
    covers ≤ History.lastSequence (before ++ since) := by
  rw [UInt64.le_iff_toNat_le, laid.last]
  exact Nat.le_add_right _ _

/-- A snapshot of the whole history makes every record in the file an old one. -/
theorem Laid.saved (laid : Laid covers before stale since) {rest : List JournalRecord}
    (part : rest.Sublist (stale ++ since)) :
    Laid (History.lastSequence (before ++ since)) (before ++ since) rest [] := by
  refine ⟨fun r member => ?_, fun r member => ?_, rfl, ?_⟩
  · rw [List.append_nil] at member
    exact laid.carried r (part.subset member)
  · have known : r ∈ before ++ stale ∨ r ∈ since := by
      rcases List.mem_append.mp member with logged | kept
      · exact (List.mem_append.mp logged).imp_left (List.mem_append_left stale)
      · exact (List.mem_append.mp (part.subset kept)).imp_left (List.mem_append_right before)
    rcases known with low | later
    · exact (laid.old r low).trans laid.level
    · exact (laid.above later).2
  · rw [List.append_nil, List.length_nil, Nat.add_zero]

/-- The scan of an open skips the old records and takes the others. -/
theorem Laid.scanned (laid : Laid covers before stale since)
    (room : History.lastSequence (before ++ since) ≠ maxWord) :
    ∃ final, LogFormat.visitAll Recovery.visit ⟨covers + 1, covers, 0, 0, 0⟩ (stale ++ since) =
      .ok final ∧ final.lastSequence = History.lastSequence (before ++ since) := by
  have top := lt_maxWord room
  rw [laid.last] at top
  have waiting : Recovery.Waiting ⟨covers + 1, covers, 0, 0, 0⟩ := by
    refine ⟨rfl, fun full => ?_⟩
    have value := congrArg UInt64.toNat full
    simp only [maxWord, UInt64.reduceToNat] at value
    omega
  have skipped := Recovery.visitAll_skip waiting fun r member =>
    laid.old r (List.mem_append_right before member)
  obtain ⟨final, visited, reached⟩ := Recovery.visitAll_next waiting laid.numbered top
  refine ⟨final, ?_, ?_⟩
  · rw [LogFormat.visitAll_append, skipped]
    exact visited
  · apply UInt64.toNat_inj.mp
    rw [reached, laid.last]

end Laid

/-- The two files, with the snapshots that were ever taken and the records of the history. -/
structure Shelved (snapshot : Option Bytes) (journal : Bytes) (points : List Checkpoint)
    (log : List JournalRecord) : Prop where
  point : ∀ c, savedPoint snapshot = some c → c ∈ points
  filed : ∃ before stale since, log = before ++ since ∧ journal = journalFrames (stale ++ since) ∧
    Laid (covered (savedPoint snapshot)) before stale since

/-- A part of one record, or nothing. -/
def Torn (tail : Bytes) : Prop := tail = [] ∨ ∃ (r : JournalRecord) (n : Nat),
  journalFormat.Carries r.encode r ∧ 0 < n ∧ n < (journalFormat.frame r.encode).length ∧
    tail = (journalFormat.frame r.encode).take n

/-- The files behind a process that may have ended while it wrote a record. -/
def Left (snapshot : Option Bytes) (journal : Bytes) (points : List Checkpoint)
    (log : List JournalRecord) : Prop :=
  ∃ whole tail, journal = whole ++ tail ∧ Torn tail ∧ Shelved snapshot whole points log

/-- A store in use. -/
structure Stocked (s : Store) (points : List Checkpoint) (log : List JournalRecord) : Prop where
  named : s.storeId.isEmpty = false
  shelved : Shelved s.snapshot s.journal points log
  last : s.lastSequence = History.lastSequence log

section Stocked

variable {s s' : Store} {points : List Checkpoint} {log : List JournalRecord} {r : JournalRecord}
  {snapshot : Option Bytes} {journal : Bytes}

theorem Stocked.left (stocked : s.Stocked points log) : Left s.snapshot s.journal points log :=
  ⟨s.journal, [], (List.append_nil _).symm, .inl rfl, stocked.shelved⟩

theorem Shelved.append (shelved : Shelved snapshot journal points log)
    (next : r.sequence = History.lastSequence log + 1) (numbered : r.sequence ≠ 0)
    (fits : r.encode.length ≤ Limits.maxJournalRecordBytes) :
    Shelved snapshot (journal ++ journalFormat.frame r.encode) points (log ++ [r]) := by
  obtain ⟨before, stale, since, rfl, rfl, laid⟩ := shelved.filed
  refine ⟨shelved.point, before, stale, since ++ [r], List.append_assoc _ _ _, ?_,
    laid.append next numbered fits⟩
  rw [← List.append_assoc, journalFrames_append]

theorem Stocked.append {io : AppendIo} (stocked : s.Stocked points log)
    (numbered : r.sequence ≠ 0) (ran : (Store.append r io).exec s = (.ok ⟨⟩, s')) :
    s'.Stocked points (log ++ [r]) := by
  obtain ⟨-, next, fits, rfl⟩ := append_ok ran
  rw [stocked.last] at next
  exact ⟨stocked.named, stocked.shelved.append next numbered fits,
    (lastSequence_concat log r).symm⟩

/-- An append that fails leaves the record in full, in part or not at all. -/
theorem Stocked.failed {io : AppendIo} {st : Status} (stocked : s.Stocked points log)
    (numbered : r.sequence ≠ 0) (ran : (Store.append r io).exec s = (.error st, s')) :
    (∃ passed, passed <+: [r] ∧ Left s'.snapshot s'.journal points (log ++ passed)) ∧
      s'.lastSequence = History.lastSequence log := by
  have none : Left s.snapshot s.journal points (log ++ []) := by
    rw [List.append_nil]
    exact stocked.left
  rcases append_failed ran with rfl | ⟨next, fits, n, rfl⟩
  · exact ⟨⟨[], List.nil_prefix, none⟩, stocked.last⟩
  refine ⟨?_, stocked.last⟩
  rw [stocked.last] at next
  by_cases short : n < (journalFormat.frame r.encode).length
  · rcases Nat.eq_zero_or_pos n with rfl | some
    · refine ⟨[], List.nil_prefix, ?_⟩
      simpa using none
    · refine ⟨[], List.nil_prefix, s.journal, _, rfl,
        .inr ⟨r, n, carries_record numbered fits, some, short, rfl⟩, ?_⟩
      rw [List.append_nil]
      exact stocked.shelved
  · rw [List.take_of_length_le (Nat.le_of_not_lt short)]
    exact ⟨[r], List.prefix_rfl, _, [], (List.append_nil _).symm, .inl rfl,
      stocked.shelved.append next numbered fits⟩

/-- A snapshot of the whole history, whether or not the journal has been emptied behind it. -/
theorem Stocked.saved {blob : Bytes} {now : Step} (stocked : s.Stocked points log)
    (fits : blob.length ≤ Limits.maxSnapshotBytes) (name : s'.storeId = s.storeId)
    (last : s'.lastSequence = s.lastSequence)
    (snapshot : s'.snapshot = some (s.snapshotBytes blob now))
    (journal : s'.journal = s.journal ∨ s'.journal = []) :
    s'.Stocked (points ++ [⟨blob, History.lastSequence log⟩]) log := by
  have point : savedPoint (some (s.snapshotBytes blob now)) = _ :=
    savedPoint_written stocked.named fits
  rw [stocked.last] at point
  obtain ⟨before, stale, since, rfl, frames, laid⟩ := stocked.shelved.filed
  refine ⟨name ▸ stocked.named, ⟨fun c found => ?_, ?_⟩, last.trans stocked.last⟩
  · rw [snapshot, point] at found
    cases found
    exact List.mem_append_right points List.mem_cons_self
  · rw [snapshot, point]
    rcases journal with same | emptied
    · refine ⟨before ++ since, stale ++ since, [], (List.append_nil _).symm, ?_,
        laid.saved (List.Sublist.refl _)⟩
      rw [same, frames, List.append_nil]
    · refine ⟨before ++ since, [], [], (List.append_nil _).symm, ?_,
        laid.saved (List.nil_sublist _)⟩
      rw [emptied]
      rfl

theorem Stocked.checkpoint {blob : Bytes} {covers : Sequence} {now : Step} {io : CheckpointIo}
    {result : Except Status PUnit} (stocked : s.Stocked points log)
    (ran : (Store.checkpoint blob covers now io).exec s = (result, s')) :
    s'.Stocked points log ∨ s'.Stocked (points ++ [⟨blob, History.lastSequence log⟩]) log := by
  rw [Store.checkpoint, Prog.exec_get_bind, Prog.exec_refuseIf] at ran
  split at ran
  · cases ran; exact .inl stocked
  rw [Prog.exec_refuseIf] at ran
  split at ran
  · cases ran; exact .inl stocked
  rw [Prog.exec_refuseIf] at ran
  split at ran
  · cases ran; exact .inl stocked
  rename_i fits
  have saved := @Stocked.saved s s' points log blob now stocked (Nat.le_of_not_lt fits)
  cases io with
  | snapshotFault fault => cases ran; exact .inl stocked
  | flushFault stage => cases ran; exact .inr (saved rfl rfl rfl (.inl rfl))
  | rotationFault fault => cases ran; exact .inr (saved rfl rfl rfl (.inl rfl))
  | reopenFault => cases ran; exact .inr (saved rfl rfl rfl (.inr rfl))
  | done => cases ran; exact .inr (saved rfl rfl rfl (.inr rfl))

theorem openStore_named {files : StoreFiles} {storeId : StoreId} {options : StoreOpenOptions}
    {header : Bytes} {report : StoreRecoveryReport}
    (ran : openStore files storeId options = .ok (s, header, report)) :
    storeId.isEmpty = false ∧ ∃ found, openSnapshot storeId files.snapshot = .ok found := by
  unfold openStore at ran
  split at ran
  · cases ran
  rename_i named
  refine ⟨by simpa using named, ?_⟩
  cases checked : openHeader files.header storeId options with
  | error st => rw [checked] at ran; cases ran
  | ok known =>
    rw [checked] at ran
    cases found : openSnapshot storeId files.snapshot with
    | error st => rw [found] at ran; cases ran
    | ok covered => exact ⟨covered, rfl⟩

/-- What an open makes of the files that a process left. -/
theorem Left.opened {files : StoreFiles} {storeId : StoreId} {options : StoreOpenOptions}
    {header : Bytes} {report : StoreRecoveryReport}
    (left : Left files.snapshot (files.journal.getD []) points log)
    (room : History.lastSequence log ≠ maxWord)
    (ran : openStore files storeId options = .ok (s, header, report)) : s.Stocked points log := by
  obtain ⟨named, found, snapshot⟩ := openStore_named ran
  obtain ⟨records, goodEnd, torn, final, contents, visited, -, rfl⟩ := openStore_ok ran
  obtain ⟨whole, tail, parts, partly, shelved⟩ := left
  obtain ⟨before, stale, since, rfl, rfl, laid⟩ := shelved.filed
  have read : ∃ isTorn, journalFormat.contents (files.journal.getD []) =
      .ok ⟨stale ++ since, (journalFrames (stale ++ since)).length, isTorn⟩ := by
    rw [parts]
    rcases partly with rfl | ⟨r, n, carries, some, short, rfl⟩
    · rw [List.append_nil]
      exact ⟨false, LogFormat.contents_frames laid.carried⟩
    · refine ⟨true, LogFormat.contents_torn (fun x member => ?_) some short⟩
      rcases List.mem_append.mp member with old | new
      · exact laid.carried x old
      · rw [List.mem_singleton.mp new]
        exact carries
  obtain ⟨isTorn, read⟩ := read
  rw [read] at contents
  cases contents
  rw [savedPoint_covered snapshot] at visited
  obtain ⟨final', scanned, last⟩ := laid.scanned room
  rw [scanned] at visited
  cases visited
  refine ⟨named, ⟨shelved.point, before, stale, since, rfl, ?_, laid⟩, last⟩
  show (files.journal.getD []).take _ = _
  rw [parts]
  exact List.take_left

/-- A replay goes through the records of the file one by one. -/
theorem Stocked.replayed {σ : Type} {visit : σ → JournalRecord → Except Status σ} {t t' : σ}
    (stocked : s.Stocked points log) (ran : s.replay visit t = .ok t') :
    ∃ before stale since, log = before ++ since ∧
      Laid (covered (savedPoint s.snapshot)) before stale since ∧
      LogFormat.visitAll visit t (stale ++ since) = .ok t' := by
  obtain ⟨before, stale, since, rfl, frames, laid⟩ := stocked.shelved.filed
  refine ⟨before, stale, since, rfl, laid, ?_⟩
  rw [replay] at ran
  cases file : readFileBounded (some s.journal) Limits.maxFabricStoreBytes with
  | error st => rw [file] at ran; cases ran
  | ok bytes =>
    obtain ⟨same, -⟩ := readFileBounded_ok file
    cases same
    rw [file] at ran
    simp only [bind, Except.bind] at ran
    cases scanned : journalFormat.read visit t s.journal with
    | error st => rw [scanned] at ran; cases ran
    | ok scan =>
      rw [scanned] at ran
      cases ran
      obtain ⟨records, all, contents⟩ := LogFormat.read_visits scanned
      rw [frames, journalFrames, LogFormat.contents_frames laid.carried] at contents
      rw [(LogFormat.Scan.mk.inj (Except.ok.inj contents)).1]
      exact all

end Stocked
end Store

namespace RegistryService

open Store (Left Stocked)

variable {s t : RegistryService} {points : List Checkpoint} {log records : List JournalRecord}
  {io : RequestIo} {result : Except Status PUnit}

/-- How far the records of an operation get: to one that is not acknowledged, or all the way and
then maybe through a checkpoint. -/
inductive Wrote (state : RegistryState) (points : List Checkpoint)
    (log records : List JournalRecord) : Store → Prop
  | stopped {done rest passed : List JournalRecord} {x : JournalRecord} {store : Store}
    (split : records = done ++ x :: rest) (front : passed <+: records)
    (left : Left store.snapshot store.journal points (log ++ passed))
    (behind : store.lastSequence = History.lastSequence (log ++ done)) :
    Wrote state points log records store
  | through {points' : List Checkpoint} {store : Store}
    (saved : points' = points ∨
      points' = points ++ [⟨state.serialize, History.lastSequence (log ++ records)⟩])
    (stocked : store.Stocked points' (log ++ records)) : Wrote state points log records store

theorem appendLoop_wrote {k : Nat} (stocked : s.store.Stocked points log)
    (numbered : ∀ r ∈ records, r.sequence ≠ 0)
    (ran : ((records.zipIdx k).forM (appendOne io)).exec s = (result, t)) :
    t.state = s.state ∧ ((result = .ok ⟨⟩ ∧ t.store.Stocked points (log ++ records)) ∨
      (∃ st, result = .error st) ∧ Wrote s.state points log records t.store) := by
  induction records generalizing s k log with
  | nil =>
    cases ran
    rw [List.append_nil]
    exact ⟨rfl, .inl ⟨rfl, stocked⟩⟩
  | cons r rest ih =>
    rw [List.zipIdx_cons, Prog.forM_cons, Prog.exec_bind, appendOne, Prog.exec_bind, onStore,
      Prog.exec_zoom] at ran
    rcases written : (Store.append r (io.journal k)).exec s.store with ⟨answer, store⟩
    simp only [written] at ran
    cases answer with
    | error st =>
      cases ran
      obtain ⟨⟨passed, front, left⟩, last⟩ := stocked.failed (numbered r List.mem_cons_self) written
      have split : r :: rest = [] ++ r :: rest := rfl
      refine ⟨rfl, .inr ⟨⟨st, rfl⟩, .stopped split ?_ left ?_⟩⟩
      · exact front.trans (List.prefix_append [r] rest)
      · rw [List.append_nil]
        exact last
    | ok u =>
      have later := stocked.append (numbered r List.mem_cons_self) written
      obtain ⟨same, either⟩ := ih (s := { s with
        store := store
        recordsSinceCheckpoint := s.recordsSinceCheckpoint + 1 }) (k := k + 1) later
        (fun x member => numbered x (List.mem_cons_of_mem r member)) ran
      rw [List.append_assoc] at either
      rcases either with all | ⟨fails, wrote⟩
      · exact ⟨same, .inl all⟩
      refine ⟨same, .inr ⟨fails, ?_⟩⟩
      cases wrote with
      | @stopped done rest passed x _ split front left behind =>
        subst split
        rw [List.append_assoc] at left behind
        have split : r :: (done ++ x :: rest) = (r :: done) ++ x :: rest := rfl
        exact .stopped split ((List.prefix_cons_inj r).mpr front) left behind
      | through saved stocked =>
        rw [List.append_assoc] at saved stocked
        exact .through saved stocked

theorem appendRecords_wrote (stocked : s.store.Stocked points log)
    (numbered : ∀ r ∈ records, r.sequence ≠ 0)
    (ran : (appendRecords io records).exec s = (result, t)) :
    Wrote s.state points log records t.store := by
  rw [appendRecords_eq, Prog.exec_bind] at ran
  rcases looped : ((records.zipIdx).forM (appendOne io)).exec s with ⟨answer, u⟩
  rw [looped] at ran
  obtain ⟨same, ⟨rfl, all⟩ | ⟨⟨st, rfl⟩, wrote⟩⟩ := appendLoop_wrote stocked numbered looped
  · simp only [Prog.exec_get_bind] at ran
    split at ran
    · rw [Prog.exec_bind, onStore, Prog.exec_zoom] at ran
      rcases saved : (Store.checkpoint u.state.serialize u.store.lastSequence u.state.clock
        io.checkpoint).exec u.store with ⟨answer, store⟩
      simp only [saved] at ran
      have after : t.store = store := by
        cases answer with
        | error st => cases ran; rfl
        | ok v => cases ran; rfl
      rw [after, ← same]
      rcases all.checkpoint saved with kept | taken
      · exact .through (.inl rfl) kept
      · exact .through (.inr rfl) taken
    · cases ran
      exact .through (.inl rfl) all
  · cases ran
    exact wrote

/-- A journal that is at the record of the registry holds everything that was handed to it. -/
theorem Wrote.settled {state : RegistryState} {store : Store}
    (wrote : Wrote state points log records store)
    (ordered : (log ++ records).Pairwise (·.sequence < ·.sequence))
    (numbered : ∀ r ∈ records, r.sequence ≠ 0)
    (latest : ∀ r ∈ records, r.sequence ≤ state.registrySequence)
    (level : state.registrySequence = store.lastSequence) :
    ∃ points', (points' = points ∨
      points' = points ++ [⟨state.serialize, History.lastSequence (log ++ records)⟩]) ∧
        store.Stocked points' (log ++ records) := by
  cases wrote with
  | @stopped done rest passed x _ split front left behind =>
    subst split
    rw [← List.append_assoc] at ordered
    have member : x ∈ done ++ x :: rest := List.mem_append_right done List.mem_cons_self
    have later := History.lastSequence_lt ordered
      (fun r inside => numbered r (List.mem_append_right done inside)) x List.mem_cons_self
    have least := latest x member
    rw [level, behind] at least
    exact absurd least (not_le.mpr later)
  | through saved stocked => exact ⟨_, saved, stocked⟩

/-- What is left of a write that may not have ended: some of the records, and no checkpoint
before they are all there. -/
theorem Wrote.left {state : RegistryState} {store : Store}
    (wrote : Wrote state points log records store) :
    ∃ passed points', passed <+: records ∧ (points' = points ∨ passed = records ∧
      points' = points ++ [⟨state.serialize, History.lastSequence (log ++ records)⟩]) ∧
        Left store.snapshot store.journal points' (log ++ passed) := by
  cases wrote with
  | stopped split front left behind => exact ⟨_, _, front, .inl rfl, left⟩
  | through saved stocked =>
    exact ⟨_, _, List.prefix_rfl, saved.imp_right fun same => ⟨rfl, same⟩, stocked.left⟩

end RegistryService
end SplitBrainFabric
