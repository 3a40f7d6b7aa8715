import SplitBrainFabric.Store

/-! What an accepted journal looks like, for any bytes. The open skips whatever is below
the sequence it expects, so a journal is in order exactly when nothing after the first
record of its own falls back. -/

namespace SplitBrainFabric
open Words

namespace Store

/-- From the first record the snapshot does not cover, sequences rise, and none is the
largest word. -/
structure Steady (covers : Sequence) (records : List JournalRecord) : Prop where
  rising : (records.dropWhile (·.sequence ≤ covers)).Pairwise (·.sequence < ·.sequence)
  bounded : ∀ r ∈ records.dropWhile (·.sequence ≤ covers), r.sequence ≠ maxWord

/-- Covered records first, then one contiguous run up to the last sequence. -/
def Disciplined (covers last : Sequence) (records : List JournalRecord) : Prop :=
  ∃ covered run, records = covered ++ run ∧ (∀ r ∈ covered, r.sequence ≤ covers) ∧
    run.map (·.sequence.toNat) =
      List.range' (covers.toNat + 1) (last.toNat - covers.toNat)

namespace Recovery

variable {s t : Recovery} {r : JournalRecord} {records : List JournalRecord}

/-- The open waits for the sequence after the last one it took. -/
structure Waiting (s : Recovery) : Prop where
  next : s.expected = s.lastSequence + 1
  room : s.lastSequence ≠ maxWord

theorem visit_skip (waiting : s.Waiting) (low : r.sequence ≤ s.lastSequence) :
    s.visit r = .ok s := by
  have below : r.sequence ≠ maxWord := by
    rintro full
    have top := s.lastSequence.toNat_lt
    rw [full, UInt64.le_iff_toNat_le] at low
    exact waiting.room (UInt64.toNat_inj.mp (by simp only [maxWord] at low ⊢; simp at low ⊢; omega))
  have skipped : r.sequence + 1 ≤ s.expected := by
    rw [waiting.next, UInt64.le_iff_toNat_le, toNat_succ below, toNat_succ waiting.room]
    rw [UInt64.le_iff_toNat_le] at low
    omega
  rw [visit, if_pos skipped]

/-- A record that is not skipped is the one expected. -/
theorem visit_above (waiting : s.Waiting) (above : s.lastSequence < r.sequence)
    (bounded : r.sequence ≠ maxWord) (ran : s.visit r = .ok t) :
    r.sequence = s.lastSequence + 1 ∧ t.Waiting ∧ t.lastSequence = r.sequence := by
  have later : ¬ r.sequence + 1 ≤ s.expected := by
    rw [waiting.next, UInt64.le_iff_toNat_le, toNat_succ bounded, toNat_succ waiting.room]
    rw [UInt64.lt_iff_toNat_lt] at above
    omega
  rw [visit, if_neg later] at ran
  split at ran
  · cases ran
  · rename_i same
    cases ran
    have last : max s.lastSequence r.sequence = r.sequence := max_eq_right (le_of_lt above)
    refine ⟨by rw [← waiting.next]; exact not_not.mp same, ⟨?_, ?_⟩, last⟩
    · exact congrArg (· + 1) last.symm
    · exact fun full => bounded (last.symm.trans full)

theorem visit_next (waiting : s.Waiting) (next : r.sequence = s.lastSequence + 1)
    (bounded : r.sequence ≠ maxWord) :
    ∃ t, s.visit r = .ok t ∧ t.Waiting ∧ t.lastSequence = r.sequence := by
  have above : s.lastSequence < r.sequence := by rw [next]; exact lt_succ waiting.room
  have later : ¬ r.sequence + 1 ≤ s.expected := by
    rw [waiting.next, ← next]
    exact not_le.mpr (lt_succ bounded)
  have same : ¬ r.sequence ≠ s.expected := not_not.mpr (next.trans waiting.next.symm)
  have ran : ∃ t, s.visit r = .ok t := ⟨_, by rw [visit, if_neg later, if_neg same]⟩
  obtain ⟨t, ran⟩ := ran
  obtain ⟨-, kept, last⟩ := visit_above waiting above bounded ran
  exact ⟨t, ran, kept, last⟩

theorem visit_waiting (waiting : s.Waiting) (ran : s.visit r = .ok t) : t.Waiting := by
  rw [visit] at ran
  split at ran
  · cases ran; exact waiting
  · rename_i later
    split at ran
    · cases ran
    · rename_i same
      cases ran
      have sequence : r.sequence = s.lastSequence + 1 := by rw [← waiting.next]; exact not_not.mp same
      have above : s.lastSequence ≤ r.sequence := by
        rw [sequence]
        exact le_of_lt (lt_succ waiting.room)
      have last : max s.lastSequence r.sequence = r.sequence := max_eq_right above
      refine ⟨congrArg (· + 1) last.symm, fun full => later ?_⟩
      have wrapped : r.sequence = maxWord := last.symm.trans full
      rw [wrapped, succ_maxWord]
      exact UInt64.zero_le

theorem visitAll_waiting (waiting : s.Waiting)
    (ran : LogFormat.visitAll visit s records = .ok t) : t.Waiting := by
  induction records generalizing s with
  | nil => cases ran; exact waiting
  | cons r rest ih =>
    rw [LogFormat.visitAll] at ran
    cases step : s.visit r with
    | error st => rw [step] at ran; cases ran
    | ok s' => rw [step] at ran; exact ih (visit_waiting waiting step) ran

theorem visitAll_skip (waiting : s.Waiting) (low : ∀ r ∈ records, r.sequence ≤ s.lastSequence) :
    LogFormat.visitAll visit s records = .ok s := by
  induction records with
  | nil => rfl
  | cons r rest ih =>
    rw [LogFormat.visitAll, visit_skip waiting (low r List.mem_cons_self)]
    exact ih fun x member => low x (List.mem_cons_of_mem r member)

/-- Rising records that are all accepted are consecutive. -/
theorem visitAll_rising (waiting : s.Waiting) (rising : records.Pairwise (·.sequence < ·.sequence))
    (bounded : ∀ r ∈ records, r.sequence ≠ maxWord)
    (above : ∀ r ∈ records, s.lastSequence < r.sequence)
    (ran : LogFormat.visitAll visit s records = .ok t) :
    s.lastSequence ≤ t.lastSequence ∧ records.map (·.sequence.toNat) =
      List.range' (s.lastSequence.toNat + 1) (t.lastSequence.toNat - s.lastSequence.toNat) := by
  induction records generalizing s with
  | nil =>
    cases ran
    rw [Nat.sub_self]
    exact ⟨le_rfl, rfl⟩
  | cons r rest ih =>
    rw [LogFormat.visitAll] at ran
    cases step : s.visit r with
    | error st => rw [step] at ran; cases ran
    | ok s' =>
      rw [step] at ran
      obtain ⟨head, tail⟩ := List.pairwise_cons.mp rising
      obtain ⟨next, waiting', last⟩ := visit_above waiting (above r List.mem_cons_self)
        (bounded r List.mem_cons_self) step
      obtain ⟨reached, run⟩ := ih waiting' tail
        (fun x member => bounded x (List.mem_cons_of_mem r member))
        (fun x member => last ▸ head x member) ran
      have sequence : r.sequence.toNat = s.lastSequence.toNat + 1 := by
        rw [next, toNat_succ waiting.room]
      rw [last] at reached run
      have size := UInt64.le_iff_toNat_le.mp reached
      refine ⟨le_trans (le_of_lt (above r List.mem_cons_self)) reached, ?_⟩
      have count : t.lastSequence.toNat - s.lastSequence.toNat =
          (t.lastSequence.toNat - r.sequence.toNat) + 1 := by omega
      rw [List.map_cons, run, count, List.range'_succ, sequence]

end Recovery

theorem dropWhile_of_covered {covers : Sequence} {covered run : List JournalRecord}
    (low : ∀ r ∈ covered, r.sequence ≤ covers) (high : ∀ r ∈ run, covers < r.sequence) :
    (covered ++ run).dropWhile (·.sequence ≤ covers) = run := by
  induction covered with
  | nil =>
    cases run with
    | nil => rfl
    | cons r rest =>
      have above := not_le.mpr (high r List.mem_cons_self)
      rw [List.nil_append, List.dropWhile_cons, if_neg (by simpa using above)]
  | cons r rest ih =>
    have below : r.sequence ≤ covers := low r List.mem_cons_self
    rw [List.cons_append, List.dropWhile_cons, if_pos (by simpa using below)]
    exact ih fun x member => low x (List.mem_cons_of_mem r member)

/-- At the largest word nothing but the largest word is accepted, and all of it skipped. -/
theorem visitAll_full {s t : Recovery} {records : List JournalRecord} (wrapped : s.expected = 0)
    (numbered : ∀ r ∈ records, r.sequence ≠ 0)
    (ran : LogFormat.visitAll Recovery.visit s records = .ok t) :
    t = s ∧ ∀ r ∈ records, r.sequence = maxWord := by
  induction records with
  | nil => cases ran; exact ⟨rfl, by simp⟩
  | cons r rest ih =>
    rw [LogFormat.visitAll, Recovery.visit, wrapped] at ran
    by_cases full : r.sequence = maxWord
    · rw [if_pos (by rw [full, succ_maxWord])] at ran
      obtain ⟨same, all⟩ := ih (fun x member => numbered x (List.mem_cons_of_mem r member)) ran
      refine ⟨same, fun x member => ?_⟩
      rcases List.mem_cons.mp member with rfl | later
      · exact full
      · exact all x later
    · have later : ¬ r.sequence + 1 ≤ 0 := fun zero =>
        succ_ne_zero full (le_antisymm zero UInt64.zero_le)
      rw [if_neg later, if_pos (numbered r List.mem_cons_self)] at ran
      cases ran

theorem steady_iff {covers : Sequence} {final : Recovery} {records : List JournalRecord}
    (numbered : ∀ r ∈ records, r.sequence ≠ 0)
    (ran : LogFormat.visitAll Recovery.visit ⟨covers + 1, covers, 0, 0, 0⟩ records = .ok final) :
    Disciplined covers final.lastSequence records ↔ Steady covers records := by
  by_cases full : covers = maxWord
  · subst full
    obtain ⟨rfl, all⟩ := visitAll_full succ_maxWord numbered ran
    have covered : ∀ r ∈ records, r.sequence ≤ maxWord := fun r member => le_of_eq (all r member)
    have none : records.dropWhile (·.sequence ≤ maxWord) = [] := by
      have h := @dropWhile_of_covered maxWord records [] covered (by simp)
      rwa [List.append_nil] at h
    refine ⟨fun _ => ⟨?_, ?_⟩, fun _ => ⟨records, [], (List.append_nil _).symm, covered, ?_⟩⟩
    · rw [none]; exact List.Pairwise.nil
    · rw [none]; simp
    · simp only [Nat.sub_self, List.map_nil, List.range'_zero]
  have waiting : Recovery.Waiting ⟨covers + 1, covers, 0, 0, 0⟩ := ⟨rfl, full⟩
  constructor
  · rintro ⟨covered, run, parts, low, contiguous⟩
    have last := (Recovery.visitAll_waiting waiting ran).room
    have within : ∀ r ∈ run, covers < r.sequence ∧ r.sequence ≤ final.lastSequence := by
      intro r member
      have inside : r.sequence.toNat ∈ run.map (·.sequence.toNat) := List.mem_map_of_mem member
      rw [contiguous, List.mem_range'_1] at inside
      rw [UInt64.lt_iff_toNat_lt, UInt64.le_iff_toNat_le]
      omega
    have later := dropWhile_of_covered low fun r member => (within r member).1
    rw [← parts] at later
    refine ⟨?_, ?_⟩
    · rw [later]
      have sorted : (run.map (·.sequence.toNat)).Pairwise (· < ·) := by
        rw [contiguous]
        exact List.pairwise_lt_range'
      exact (List.pairwise_map.mp sorted).imp UInt64.lt_iff_toNat_lt.mpr
    · rw [later]
      intro r member top
      have below := (within r member).2
      rw [top, UInt64.le_iff_toNat_le] at below
      have small := final.lastSequence.toNat_lt
      exact last (UInt64.toNat_inj.mp (by simp only [maxWord] at below ⊢; simp at below ⊢; omega))
  · rintro ⟨rising, bounded⟩
    have parts := (List.takeWhile_append_dropWhile (p := (·.sequence ≤ covers)) (l := records)).symm
    have low : ∀ r ∈ records.takeWhile (·.sequence ≤ covers), r.sequence ≤ covers :=
      fun r member => by simpa using List.all_eq_true.mp List.all_takeWhile r member
    have above : ∀ r ∈ records.dropWhile (·.sequence ≤ covers), covers < r.sequence := by
      intro r member
      cases later : records.dropWhile (·.sequence ≤ covers) with
      | nil => rw [later] at member; cases member
      | cons first rest =>
        have beyond : covers < first.sequence := by
          have head := List.head?_dropWhile_not (·.sequence ≤ covers) records
          rw [later] at head
          simpa using head
        rw [later] at member rising
        rcases List.mem_cons.mp member with rfl | inside
        · exact beyond
        · exact beyond.trans ((List.pairwise_cons.mp rising).1 r inside)
    rw [parts, LogFormat.visitAll_append, Recovery.visitAll_skip waiting low] at ran
    obtain ⟨-, run⟩ := Recovery.visitAll_rising waiting rising bounded above ran
    exact ⟨_, _, parts, low, run⟩

theorem recordsIn_numbered {journal : Option Bytes} : ∀ r ∈ recordsIn journal, r.sequence ≠ 0 := by
  unfold recordsIn
  cases known : journalFormat.contents (journal.getD []) with
  | error st => simp
  | ok scan => exact LogFormat.contents_decoded known fun _ _ => JournalRecord.decode_numbered

/-- An opened journal is one contiguous run above what the snapshot covers, replayed as
it stands in the file, exactly when from its first own record on nothing falls back. -/
theorem sequence_discipline (files : StoreFiles) (storeId : StoreId) (options : StoreOpenOptions)
    (s : Store) (header : Bytes) (report : StoreRecoveryReport)
    (opened : openStore files storeId options = .ok (s, header, report)) :
    (Disciplined (coveredBy storeId files.snapshot) s.lastSequence (recordsIn files.journal) ∧
        s.replay LogFormat.collect [] = .ok (recordsIn files.journal)) ↔
      Steady (coveredBy storeId files.snapshot) (recordsIn files.journal) := by
  have replayed := replay_opened opened
  obtain ⟨records, goodEnd, torn, final, contents, visited, -, rfl⟩ := openStore_ok opened
  have numbered := @recordsIn_numbered files.journal
  rw [recordsIn_of contents] at replayed numbered ⊢
  rw [and_iff_left replayed]
  exact steady_iff numbered visited

/-- A journal of records with the given sequences. -/
def journalOf (sequences : List Sequence) : Bytes :=
  sequences.flatMap fun q =>
    journalFormat.frame (JournalRecord.encode { kind := .commitRecord, sequence := q })

def sampleOpen (sequences : List Sequence) : Except Status (Store × Bytes × StoreRecoveryReport) :=
  openStore { journal := some (journalOf sequences) } (Id.make [115]) {}

/-- Records one to three, each above the one before. -/
theorem sequence_discipline_run : ∃ s header report,
    sampleOpen [1, 2, 3] = .ok (s, header, report) ∧
    (Disciplined (coveredBy (Id.make [115]) none) s.lastSequence
          (recordsIn (some (journalOf [1, 2, 3]))) ∧
        s.replay LogFormat.collect [] = .ok (recordsIn (some (journalOf [1, 2, 3])))) := by
  have fine : (sampleOpen [1, 2, 3]).isOk = true := by decide +kernel
  have sequences : ((recordsIn (some (journalOf [1, 2, 3]))).dropWhile
      (·.sequence ≤ coveredBy (Id.make [115]) none)).map (·.sequence) = [1, 2, 3] := by
    decide +kernel
  have steady : Steady (coveredBy (Id.make [115]) none) (recordsIn (some (journalOf [1, 2, 3]))) := by
    constructor
    · refine List.pairwise_map.mp ?_
      rw [sequences]
      decide
    · intro r member
      have small : ∀ q ∈ ([1, 2, 3] : List Sequence), q ≠ maxWord := by
        intro q listed
        simp only [List.mem_cons, List.not_mem_nil, or_false] at listed
        rcases listed with rfl | rfl | rfl <;> decide
      exact small r.sequence (sequences ▸ List.mem_map_of_mem member)
  cases ran : sampleOpen [1, 2, 3] with
  | error st => rw [ran] at fine; cases fine
  | ok result =>
    obtain ⟨s, header, report⟩ := result
    exact ⟨s, header, report, rfl, (sequence_discipline { journal := some (journalOf [1, 2, 3]) }
      (Id.make [115]) {} s header report ran).mpr steady⟩

/-- A journal that repeats its first record at the end is opened all the same. -/
theorem sequence_discipline_fails : ¬ ∀ files storeId options s header report,
    openStore files storeId options = .ok (s, header, report) →
      Disciplined (coveredBy storeId files.snapshot) s.lastSequence (recordsIn files.journal) ∧
        s.replay LogFormat.collect [] = .ok (recordsIn files.journal) := by
  intro claimed
  have fine : (sampleOpen [1, 2, 1]).isOk = true := by decide +kernel
  have sequences : (recordsIn (some (journalOf [1, 2, 1]))).map (·.sequence) = [1, 2, 1] := by
    decide +kernel
  cases ran : sampleOpen [1, 2, 1] with
  | error st => rw [ran] at fine; cases fine
  | ok result =>
    obtain ⟨s, header, report⟩ := result
    obtain ⟨covered, run, parts, low, contiguous⟩ := (claimed _ _ _ _ _ _ ran).1
    rw [parts] at sequences
    have nothing : coveredBy (Id.make [115]) none = 0 := rfl
    cases covered with
    | cons r rest =>
      have first : r.sequence ≤ 0 := low r List.mem_cons_self
      rw [List.cons_append, List.map_cons] at sequences
      rw [(List.cons.inj sequences).1] at first
      exact absurd first (by decide)
    | nil =>
      rw [List.nil_append] at sequences
      have numbers : run.map (·.sequence.toNat) = [1, 2, 1] := by
        have h := congrArg (List.map UInt64.toNat) sequences
        rwa [List.map_map] at h
      rw [numbers] at contiguous
      have sorted : ([1, 2, 1] : List Nat).Pairwise (· < ·) := by
        rw [contiguous]
        exact List.pairwise_lt_range'
      exact absurd sorted (by decide)

end Store
end SplitBrainFabric
