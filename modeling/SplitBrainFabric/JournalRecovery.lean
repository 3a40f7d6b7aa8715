import SplitBrainFabric.TornWrites

/-! A crash of the journal. The file may be cut at any byte, and a checkpoint may stop
between its two files; what is whole is read back, and appending goes on from there. -/

namespace SplitBrainFabric
open Words

namespace Store

/-- Successful calls from an empty store, and what was appended since the last checkpoint. -/
inductive Journaled (allowed : Store → Store → Prop) (storeId : StoreId) (header : Bytes) :
    Store → List JournalRecord → Prop
  | opened {options : StoreOpenOptions} {s : Store} {report : StoreRecoveryReport} :
      openStore {} storeId options = .ok (s, header, report) →
      Journaled allowed storeId header s []
  | append {s s' : Store} {since : List JournalRecord} {r : JournalRecord} {io : AppendIo} :
      Journaled allowed storeId header s since → (append r io).exec s = (.ok ⟨⟩, s') →
      allowed s s' → Journaled allowed storeId header s' (since ++ [r])
  | checkpoint {s s' : Store} {since : List JournalRecord} {blob : Bytes} {covers : Sequence}
      {now : Step} {io : CheckpointIo} :
      Journaled allowed storeId header s since →
      (checkpoint blob covers now io).exec s = (.ok ⟨⟩, s') → allowed s s' →
      Journaled allowed storeId header s' []

/-- What a crash leaves of the files: the journal cut at byte `k`, the snapshot old, or
new when the journal was about to be emptied. -/
inductive Crashed (header : Bytes) (s : Store) (k : Nat) : StoreFiles → Prop
  | cut : Crashed header s k
      { header := some header, snapshot := s.snapshot, journal := some (s.journal.take k) }
  | renamed {blob : Bytes} {now : Step} : blob.length ≤ Limits.maxSnapshotBytes →
      Crashed header s k {
        header := some header, snapshot := some (s.snapshotBytes blob now)
        journal := some (s.journal.take k) }

def lastOf (records : List JournalRecord) : Sequence :=
  (records.getLast?.map (·.sequence)).getD 0

/-- An open that may cut a torn tail finds exactly the whole records, and appends go on
right behind the last one covered or found. -/
def Resumes (storeId : StoreId) (files : StoreFiles) (whole : List JournalRecord) : Prop :=
  ∀ options, options.allowTornTailRecovery = true → ∃ s header report,
    openStore files storeId options = .ok (s, header, report) ∧
      s.lastSequence = max (coveredBy storeId files.snapshot) (lastOf whole) ∧
      s.replay LogFormat.collect [] = .ok whole ∧
      ∀ r : JournalRecord, r.encode.length ≤ Limits.maxJournalRecordBytes →
        (((append r .done).exec s).1 = .ok ⟨⟩ ↔ r.sequence = s.lastSequence + 1)

/-- The journal stays within what an open reads, and a sequence can follow. -/
def Bounded (_ after : Store) : Prop :=
  after.journal.length ≤ Limits.maxFabricStoreBytes ∧ after.lastSequence ≠ maxWord

/-- The journal holds the records since the last checkpoint, numbered behind it. -/
structure Filed (storeId : StoreId) (s : Store) (since : List JournalRecord) : Prop where
  identified : s.storeId = storeId
  covered : ∃ covered, openSnapshot storeId s.snapshot = .ok covered
  frames : s.journal = journalFrames since
  carried : ∀ r ∈ since, journalFormat.Carries r.encode r
  numbered : since.map (·.sequence.toNat) =
    List.range' ((coveredBy storeId s.snapshot).toNat + 1) since.length
  last : s.lastSequence.toNat = (coveredBy storeId s.snapshot).toNat + since.length
  small : s.journal.length ≤ Limits.maxFabricStoreBytes
  room : s.lastSequence ≠ maxWord

theorem coveredBy_of {storeId : StoreId} {snapshot : Option Bytes} {covered : Option Sequence}
    (known : openSnapshot storeId snapshot = .ok covered) :
    coveredBy storeId snapshot = covered.getD 0 := by
  rw [coveredBy, known]

theorem lt_maxWord {a : UInt64} (below : a ≠ maxWord) : a.toNat < 2 ^ 64 - 1 := by
  have small := a.toNat_lt
  have apart : a.toNat ≠ maxWord.toNat := fun same => below (UInt64.toNat_inj.mp same)
  simp only [maxWord, UInt64.reduceToNat] at apart
  omega

theorem Filed.append {storeId : StoreId} {s s' : Store} {since : List JournalRecord}
    {r : JournalRecord} {io : AppendIo} (filed : Filed storeId s since)
    (ran : (Store.append r io).exec s = (.ok ⟨⟩, s')) (bounded : Bounded s s') :
    Filed storeId s' (since ++ [r]) := by
  obtain ⟨-, next, fits, rfl⟩ := append_ok ran
  have sequence : r.sequence.toNat = s.lastSequence.toNat + 1 := by
    rw [next, toNat_succ filed.room]
  have numbered : r.sequence ≠ 0 := by rw [next]; exact succ_ne_zero filed.room
  refine ⟨filed.identified, filed.covered, ?_, ?_, ?_, ?_, bounded.1, bounded.2⟩
  · simp only [appended, filed.frames, journalFrames_append]
  · intro x member
    rcases List.mem_append.mp member with old | new
    · exact filed.carried x old
    · rw [List.mem_singleton.mp new]
      exact carries_record numbered fits
  · have size : (since ++ [r]).length = since.length + 1 := by simp
    rw [size, List.range'_1_concat, List.map_append, List.map_singleton, sequence, filed.last]
    simp only [appended, filed.numbered, Nat.add_assoc, Nat.add_comm 1]
  · simp only [appended, sequence, filed.last, List.length_append, List.length_singleton,
      Nat.add_assoc]

theorem Filed.checkpoint {storeId : StoreId} {s s' : Store} {since : List JournalRecord}
    {blob : Bytes} {covers : Sequence} {now : Step} {io : CheckpointIo}
    (filed : Filed storeId s since) (named : storeId.isEmpty = false)
    (ran : (Store.checkpoint blob covers now io).exec s = (.ok ⟨⟩, s')) (bounded : Bounded s s') :
    Filed storeId s' [] := by
  obtain ⟨-, fits, rfl⟩ := checkpoint_ok ran
  have same := filed.identified
  subst same
  have written : openSnapshot s.storeId (some (s.snapshotBytes blob now)) =
      .ok (some s.lastSequence) := openSnapshot_written named fits
  refine ⟨rfl, ⟨_, written⟩, rfl, by simp, rfl, ?_, bounded.1, bounded.2⟩
  simp only [coveredBy_of written, Option.getD_some, List.length_nil, Nat.add_zero]

theorem Journaled.filed {storeId : StoreId} {header : Bytes} {s : Store}
    {since : List JournalRecord} (run : Journaled Bounded storeId header s since) :
    Filed storeId s since ∧ storeId.isEmpty = false ∧
      ∀ options, openHeader (some header) storeId options = .ok (header, false) := by
  induction run with
  | opened ran =>
    obtain ⟨named, rfl, created, made⟩ := openStore_fresh ran
    refine ⟨⟨rfl, ⟨none, rfl⟩, rfl, by simp, rfl, rfl, Nat.zero_le _, ?_⟩, named,
      fun options => openHeader_again named made⟩
    show (0 : Sequence) ≠ maxWord
    decide
  | append _ ran bounded ih => exact ⟨ih.1.append ran bounded, ih.2⟩
  | checkpoint _ ran bounded ih => exact ⟨ih.1.checkpoint ih.2.1 ran bounded, ih.2⟩

/-- Consecutive records behind the last one taken are all taken. -/
theorem Recovery.visitAll_next {t : Recovery} {records : List JournalRecord} (waiting : t.Waiting)
    (numbered : records.map (·.sequence.toNat) =
      List.range' (t.lastSequence.toNat + 1) records.length)
    (room : t.lastSequence.toNat + records.length < 2 ^ 64 - 1) :
    ∃ final, LogFormat.visitAll Recovery.visit t records = .ok final ∧
      final.lastSequence.toNat = t.lastSequence.toNat + records.length := by
  induction records generalizing t with
  | nil => exact ⟨t, rfl, rfl⟩
  | cons r rest ih =>
    rw [List.length_cons] at room
    rw [List.map_cons, List.length_cons, List.range'_succ] at numbered
    obtain ⟨head, tail⟩ := List.cons.inj numbered
    have next : r.sequence = t.lastSequence + 1 := by
      apply UInt64.toNat_inj.mp
      rw [toNat_succ waiting.room]
      exact head
    have bounded : r.sequence ≠ maxWord := by
      intro full
      rw [full] at head
      simp only [maxWord, UInt64.reduceToNat] at head
      omega
    obtain ⟨t', visited, waiting', last⟩ := Recovery.visit_next waiting next bounded
    obtain ⟨final, all, reached⟩ := ih waiting' (by rw [last, head]; exact tail)
      (by rw [last, head]; omega)
    refine ⟨final, ?_, ?_⟩
    · rw [LogFormat.visitAll, visited]
      exact all
    · rw [reached, last, head, List.length_cons]
      omega

theorem lastOf_numbered {records : List JournalRecord} {covers : Nat}
    (numbered : records.map (·.sequence.toNat) = List.range' (covers + 1) records.length) :
    (lastOf records).toNat = if records = [] then 0 else covers + records.length := by
  rcases List.eq_nil_or_concat records with rfl | ⟨front, r, rfl⟩
  · rfl
  · rw [List.concat_eq_append] at numbered ⊢
    rw [List.length_append, List.length_singleton, List.map_append, List.range'_1_concat]
      at numbered
    have tail := List.append_inj_right' numbered rfl
    have last : lastOf (front ++ [r]) = r.sequence := by simp [lastOf]
    rw [last, if_neg (by simp), List.length_append, List.length_singleton]
    have value : r.sequence.toNat = covers + 1 + front.length := (List.cons.inj tail).1
    omega

/-- The whole records of a cut journal are numbered like the journal itself. -/
theorem Filed.numbered_prefix {storeId : StoreId} {s : Store} {since whole : List JournalRecord}
    (filed : Filed storeId s since) (front : whole <+: since) :
    whole.map (·.sequence.toNat) =
      List.range' ((coveredBy storeId s.snapshot).toNat + 1) whole.length := by
  obtain ⟨rest, rfl⟩ := front
  have all := filed.numbered
  rw [List.length_append, ← List.range'_append_1, List.map_append] at all
  exact List.append_inj_left all (by simp)

/-- Whatever the scan of an open gets through, the open reports and appends follow. -/
theorem resumes_of {storeId : StoreId} {files : StoreFiles} {header journal : Bytes}
    {covered : Option Sequence} {whole : List JournalRecord} {goodEnd : Nat} {torn : Bool}
    {final : Recovery} (named : storeId.isEmpty = false)
    (known : ∀ options, openHeader files.header storeId options = .ok (header, false))
    (snapshot : openSnapshot storeId files.snapshot = .ok covered)
    (file : files.journal = some journal) (small : journal.length ≤ Limits.maxFabricStoreBytes)
    (contents : journalFormat.contents journal = .ok ⟨whole, goodEnd, torn⟩)
    (visited : LogFormat.visitAll Recovery.visit ⟨covered.getD 0 + 1, covered.getD 0, 0, 0, 0⟩
      whole = .ok final)
    (reached : final.lastSequence = max (covered.getD 0) (lastOf whole)) :
    Resumes storeId files whole := by
  intro options allowed
  have reads := openStore_reads named (known options) snapshot file small
    (LogFormat.read_contents contents visited) allowed
  obtain ⟨s, report, opened⟩ := reads
  have replayed := replay_opened opened
  have inFile : journalFormat.contents (files.journal.getD []) = .ok ⟨whole, goodEnd, torn⟩ := by
    rw [file]
    exact contents
  rw [recordsIn_of inFile] at replayed
  obtain ⟨records, goodEnd', torn', final', contents', visited', small', rfl⟩ := openStore_ok opened
  rw [inFile] at contents'
  cases contents'
  rw [coveredBy_of snapshot, visited] at visited'
  cases visited'
  refine ⟨_, header, report, opened, ?_, replayed, fun r fits => ⟨fun done => ?_, fun next => ?_⟩⟩
  · rw [coveredBy_of snapshot]
    exact reached
  · exact (append_ok (Prod.ext done rfl)).2.1
  · have size := journalFormat.frame_length r.encode
    have room : ((files.journal.getD []).take goodEnd).length +
        (journalFormat.frame r.encode).length ≤ maxFileBytes := by
      simp only [Limits.maxFabricStoreBytes, Limits.maxJournalRecordBytes] at small' fits
      rw [List.length_take, size]
      simp only [maxFileBytes]
      omega
    exact congrArg Prod.fst (append_runs rfl next fits room)

theorem Filed.resumes {storeId : StoreId} {header : Bytes} {s : Store}
    {since : List JournalRecord} {k : Nat} {files : StoreFiles} (filed : Filed storeId s since)
    (named : storeId.isEmpty = false)
    (known : ∀ options, openHeader (some header) storeId options = .ok (header, false))
    (crashed : Crashed header s k files) :
    Resumes storeId files (journalFormat.fitting JournalRecord.encode k since) := by
  have front := LogFormat.fitting_prefix journalFormat JournalRecord.encode k since
  have numbered := filed.numbered_prefix front
  have last := filed.last
  have top := lt_maxWord filed.room
  have short := front.length_le
  have small : (s.journal.take k).length ≤ Limits.maxFabricStoreBytes :=
    Nat.le_trans (by rw [List.length_take]; omega) filed.small
  have contents := LogFormat.contents_cut filed.carried k
  rw [← journalFrames, ← filed.frames] at contents
  cases crashed with
  | cut =>
    obtain ⟨covered, snapshot⟩ := filed.covered
    rw [coveredBy_of snapshot] at numbered last
    have waiting : Recovery.Waiting ⟨covered.getD 0 + 1, covered.getD 0, 0, 0, 0⟩ := by
      refine ⟨rfl, fun full => ?_⟩
      have value := congrArg UInt64.toNat full
      simp only [maxWord, UInt64.reduceToNat] at value
      omega
    obtain ⟨final, visited, reached⟩ := Recovery.visitAll_next waiting numbered
      (by simp only; omega)
    refine resumes_of named known snapshot rfl small contents visited ?_
    -- Everything whole is numbered behind what the snapshot covers.
    have value := lastOf_numbered numbered
    apply UInt64.toNat_inj.mp
    rw [reached]
    split at value
    · rename_i none
      have zero : lastOf (journalFormat.fitting JournalRecord.encode k since) ≤ covered.getD 0 := by
        rw [UInt64.le_iff_toNat_le, value]
        exact Nat.zero_le _
      rw [max_eq_left zero, none, List.length_nil, Nat.add_zero]
    · have above : covered.getD 0 ≤ lastOf (journalFormat.fitting JournalRecord.encode k since) := by
        rw [UInt64.le_iff_toNat_le, value]
        omega
      rw [max_eq_right above, value]
  | @renamed blob now fits =>
    have same := filed.identified
    subst same
    have written : openSnapshot s.storeId (some (s.snapshotBytes blob now)) =
        .ok (some s.lastSequence) := openSnapshot_written named fits
    have low : ∀ r ∈ journalFormat.fitting JournalRecord.encode k since,
        r.sequence ≤ s.lastSequence := by
      intro r member
      have within := List.mem_map_of_mem member (f := fun r => r.sequence.toNat)
      rw [numbered, List.mem_range'_1] at within
      rw [UInt64.le_iff_toNat_le]
      omega
    have waiting : Recovery.Waiting ⟨s.lastSequence + 1, s.lastSequence, 0, 0, 0⟩ :=
      ⟨rfl, filed.room⟩
    refine resumes_of named known written rfl small contents
      (Recovery.visitAll_skip waiting low) ?_
    have least : lastOf (journalFormat.fitting JournalRecord.encode k since) ≤ s.lastSequence := by
      rcases List.eq_nil_or_concat (journalFormat.fitting JournalRecord.encode k since)
        with none | ⟨rest, r, some⟩
      · rw [none]
        exact UInt64.zero_le
      · have tail : lastOf (journalFormat.fitting JournalRecord.encode k since) = r.sequence := by
          simp [some, lastOf]
        rw [tail]
        exact low r (by simp [some])
    exact (max_eq_left least).symm

/-- Every crash of a run of successful calls resumes, as long as the journal stays
within what an open reads and the sequence below its largest value. -/
theorem journal_recovery {storeId : StoreId} {header : Bytes} {s : Store}
    {since : List JournalRecord} {k : Nat} {files : StoreFiles}
    (run : Journaled Bounded storeId header s since) (crashed : Crashed header s k files) :
    Resumes storeId files (journalFormat.fitting JournalRecord.encode k since) := by
  obtain ⟨filed, named, known⟩ := run.filed
  exact filed.resumes named known crashed

section Samples

def recorded : Store := emptyJournal.store.appended (sampleRecord 1)

def checkpointed : Store :=
  { recorded with snapshot := some (recorded.snapshotBytes [1] 1), journal := [] }

def continued : Store := (checkpointed.appended (sampleRecord 2)).appended (sampleRecord 3)

/-- A checkpoint of one record, two records behind it, and a crash nine bytes into the last. -/
theorem journal_recovery_cut :
    Resumes (Id.make [115]) {
      header := some sampleHeader, snapshot := some (recorded.snapshotBytes [1] 1)
      journal := some (continued.journal.take 51) } [sampleRecord 2] := by
  have fresh : openStore {} (Id.make [115]) {} = .ok (emptyJournal.store, sampleHeader, _) := rfl
  have first : (append (sampleRecord 1) .done).exec emptyJournal.store = (.ok ⟨⟩, recorded) :=
    append_runs rfl rfl (by decide) (by decide +kernel)
  have saved : (checkpoint [1] 1 1 .done).exec recorded = (.ok ⟨⟩, checkpointed) := rfl
  have second : (append (sampleRecord 2) .done).exec checkpointed =
      (.ok ⟨⟩, checkpointed.appended (sampleRecord 2)) :=
    append_runs rfl rfl (by decide) (by decide +kernel)
  have third : (append (sampleRecord 3) .done).exec (checkpointed.appended (sampleRecord 2)) =
      (.ok ⟨⟩, continued) := append_runs rfl rfl (by decide) (by decide +kernel)
  have before : Journaled Bounded (Id.make [115]) sampleHeader checkpointed [] :=
    .checkpoint (.append (.opened fresh) first ⟨by decide +kernel, by decide⟩) saved
      ⟨by decide +kernel, by decide⟩
  have run : Journaled Bounded (Id.make [115]) sampleHeader continued
      (([] ++ [sampleRecord 2]) ++ [sampleRecord 3]) :=
    .append (.append before second ⟨by decide +kernel, by decide⟩) third
      ⟨by decide +kernel, by decide⟩
  have crashed : Crashed sampleHeader continued 51 _ := .cut
  have whole : journalFormat.fitting JournalRecord.encode 51
      (([] ++ [sampleRecord 2]) ++ [sampleRecord 3]) = [sampleRecord 2] := by
    decide +kernel
  exact whole ▸ journal_recovery run crashed

def fullRecord (sequence : Sequence) : JournalRecord :=
  { kind := .commitRecord, sequence := sequence, payload := List.replicate 262110 0 }

theorem fullRecord_length (sequence : Sequence) :
    (fullRecord sequence).encode.length = Limits.maxJournalRecordBytes := by
  rw [JournalRecord.encode_length]
  simp only [fullRecord, List.length_replicate, Limits.maxJournalRecordBytes]

/-- Records of the largest size go in one after another. -/
theorem journaled_full (n : Nat) (small : n ≤ 2048) : ∃ s since,
    Journaled (fun _ _ => True) (Id.make [115]) sampleHeader s since ∧ s.opened = true ∧
      s.lastSequence.toNat = n ∧ s.journal.length = n * 262152 := by
  induction n with
  | zero => exact ⟨emptyJournal.store, [], @Journaled.opened _ _ _ {} _ _ rfl, rfl, rfl, rfl⟩
  | succ n ih =>
    obtain ⟨s, since, run, opened, last, size⟩ := ih (by omega)
    have room : s.lastSequence ≠ maxWord := by
      intro full
      rw [full] at last
      simp only [maxWord, UInt64.reduceToNat] at last
      omega
    have length := fullRecord_length (s.lastSequence + 1)
    have frame : (journalFormat.frame (fullRecord (s.lastSequence + 1)).encode).length = 262152 := by
      rw [LogFormat.frame_length, length]
      rfl
    have within : s.journal.length +
        (journalFormat.frame (fullRecord (s.lastSequence + 1)).encode).length ≤ maxFileBytes := by
      rw [frame, size]
      simp only [maxFileBytes]
      omega
    have ran := append_runs opened rfl (Nat.le_of_eq length) within
    refine ⟨_, _, .append run ran trivial, opened, ?_, ?_⟩
    · exact (toNat_succ room).trans (congrArg (· + 1) last)
    · simp only [appended, List.length_append, frame, size]
      omega

/-- After 2048 records of the largest size the journal is longer than an open reads. -/
theorem journal_recovery_fails : ¬ ∀ storeId header s since k files,
    Journaled (fun _ _ => True) storeId header s since → Crashed header s k files →
      Resumes storeId files (journalFormat.fitting JournalRecord.encode k since) := by
  intro claimed
  obtain ⟨s, since, run, -, -, size⟩ := journaled_full 2048 le_rfl
  have crashed : Crashed sampleHeader s s.journal.length _ := .cut
  obtain ⟨s', header, report, opened, -⟩ := claimed _ _ _ _ _ _ run crashed {} rfl
  obtain ⟨-, -, -, -, -, -, small, -⟩ := openStore_ok opened
  rw [Option.getD_some, List.take_length, size] at small
  simp only [Limits.maxFabricStoreBytes] at small
  omega

end Samples

end Store
end SplitBrainFabric
