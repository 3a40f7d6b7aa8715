import SplitBrainFabric.EffectBoundary
import SplitBrainFabric.JournalOrder

/-! Writes that fail half way. A failed call may leave any part of its record in the
file; the file stays readable as long as nothing is written behind such a part. -/

namespace SplitBrainFabric
open Words

/-- One handle, and what its calls have acknowledged. -/
structure Attempts (σ α : Type) where
  store : σ
  acknowledged : List α := []

def Attempts.after {σ α : Type} (m : Prog Status σ α) (a : Attempts σ α) : Attempts σ α :=
  match m.exec a.store with
  | (.ok r, s) => ⟨s, a.acknowledged ++ [r]⟩
  | (.error _, s) => ⟨s, a.acknowledged⟩

theorem Attempts.after_ok {σ α : Type} {m : Prog Status σ α} {a : Attempts σ α} {r : α} {s : σ}
    (ran : m.exec a.store = (.ok r, s)) : a.after m = ⟨s, a.acknowledged ++ [r]⟩ := by
  rw [after, ran]

theorem Attempts.after_error {σ α : Type} {m : Prog Status σ α} {a : Attempts σ α} {st : Status}
    {s : σ} (ran : m.exec a.store = (.error st, s)) : a.after m = ⟨s, a.acknowledged⟩ := by
  rw [after, ran]

namespace MutationCall

theorem append_failed {s s' : FabricStore} {r : MutationRecord} {io : AppendIo} {st : Status}
    (ran : (FabricStore.append r io).exec s = (.error st, s')) :
    ∃ n, s' = { s with log := s.log ++ (fabricFormat.frame r.encode).take n } := by
  rw [FabricStore.append, Prog.exec_get_bind] at ran
  cases fate : io.settle s.log.length (fabricFormat.frame r.encode) with
  | done => simp only [fate] at ran; cases ran
  | headShort n => simp only [fate] at ran; cases ran; exact ⟨n, rfl⟩
  | payloadShort n => simp only [fate] at ran; cases ran; exact ⟨n, rfl⟩
  | flushFailed n stage => simp only [fate] at ran; cases ran; exact ⟨n, rfl⟩

/-- A failed call has done nothing, or has left a part of a record that passed the gate. -/
theorem admit_failed {call : MutationCall} {io : AppendIo} {s s' : FabricStore} {st : Status}
    (ran : (call.admitMutation io).exec s = (.error st, s')) :
    s' = s ∨ (call.record s).Sealed ∧
      ExtentMarks.Admits s.owners call.token call.incarnation call.scope.extents ∧
      ∃ n, s' = { s with log := s.log ++ (fabricFormat.frame (call.record s).encode).take n } := by
  rw [admitMutation, FabricStore.admitMutation, Prog.exec_get_bind, Prog.exec_refuseIf] at ran
  split at ran
  · cases ran; exact .inl rfl
  rw [Prog.exec_refuseIf] at ran
  split at ran
  · cases ran; exact .inl rfl
  rename_i named
  rw [Prog.exec_refuseIf] at ran
  split at ran
  · cases ran; exact .inl rfl
  rw [Prog.exec_refuseIf] at ran
  split at ran
  · cases ran; exact .inl rfl
  rw [Prog.exec_refuseIf] at ran
  split at ran
  · cases ran; exact .inl rfl
  rw [Prog.exec_refuseIf] at ran
  split at ran
  · cases ran; exact .inl rfl
  rename_i printable
  rw [Prog.exec_refuseIf] at ran
  split at ran
  · cases ran; exact .inl rfl
  rw [Prog.exec_ofExcept_bind] at ran
  cases passed : FabricStore.gate s.owners call.token call.incarnation call.scope.extents with
  | error st => rw [passed] at ran; cases ran; exact .inl rfl
  | ok u =>
    rw [passed] at ran
    simp only [Prog.exec_refuseIf] at ran
    split at ran
    · cases ran; exact .inl rfl
    rename_i fits
    rw [Prog.exec_bind] at ran
    rcases appended : (FabricStore.append (call.record s) io).exec s with ⟨result, t⟩
    have written : (FabricStore.append (s.candidate call.domain call.token call.scope call.epoch
        call.incarnation call.grant call.operation call.payloadDigest call.now) io).exec s =
      (result, t) := appended
    rw [written] at ran
    cases result with
    | ok u => cases ran
    | error st =>
      cases ran
      have domain : call.domain.isEmpty = false := by simpa using named
      have operation : operationValid call.operation = true := by simpa using printable
      exact .inr ⟨⟨domain, operation, rfl, Nat.le_of_not_lt fits⟩,
        ExtentMarks.check_ok.mp passed, append_failed appended⟩

end MutationCall

namespace FabricStore

/-- Calls on a log created empty, whatever becomes of their writes. -/
inductive Attempted (allowed : Attempts FabricStore MutationRecord →
    Attempts FabricStore MutationRecord → Prop) (storeId : StoreId) (header : Bytes) :
    Attempts FabricStore MutationRecord → Prop
  | opened {options : StoreOpenOptions} {s : FabricStore} {report : StoreRecoveryReport} :
      openStore none none storeId options = .ok (s, header, report) →
      Attempted allowed storeId header ⟨s, []⟩
  | admitMutation {a : Attempts FabricStore MutationRecord} (call : MutationCall) (io : AppendIo) :
      Attempted allowed storeId header a → allowed a (a.after (call.admitMutation io)) →
      Attempted allowed storeId header (a.after (call.admitMutation io))

/-- The file opens again and everything acknowledged is in it, in order. -/
def Recovers (storeId : StoreId) (header : Bytes) (a : Attempts FabricStore MutationRecord) : Prop :=
  ∀ options, options.allowTornTailRecovery = true → ∃ s header' report records,
    openStore (some header) (some a.store.log) storeId options = .ok (s, header', report) ∧
      s.load LogFormat.collect [] = .ok records ∧ a.acknowledged.Sublist records

/-- Nothing is written behind the remains of a failed call, and the file stays within
what an open reads. -/
def Quiet (before after : Attempts FabricStore MutationRecord) : Prop :=
  (before.store.log = framesOf before.acknowledged ∨ after.store.log = before.store.log) ∧
    after.store.log.length ≤ Limits.maxFabricStoreBytes

/-- The log is the acknowledged history and at most a part of one more record. -/
structure Interrupted (a : Attempts FabricStore MutationRecord) : Prop where
  durable : Durable a.acknowledged
  owners : a.store.owners = ownersOf a.acknowledged
  last : a.store.lastSequence = UInt64.ofNat a.acknowledged.length
  small : a.store.log.length ≤ Limits.maxFabricStoreBytes
  log : a.store.log = framesOf a.acknowledged ∨ ∃ (r : MutationRecord) (n : Nat), r.Sealed ∧
    r.storeSequence = UInt64.ofNat a.acknowledged.length + 1 ∧
    ExtentMarks.Admits (ownersOf a.acknowledged) r.fenceToken r.incarnation r.scope.extents ∧
    a.store.log = framesOf a.acknowledged ++ (fabricFormat.frame r.encode).take n

theorem frame_ne_nil (r : MutationRecord) : fabricFormat.frame r.encode ≠ [] := by
  intro none
  have size := fabricFormat.frame_length r.encode
  rw [none, List.length_nil] at size
  omega

theorem Interrupted.admitMutation {a : Attempts FabricStore MutationRecord} {call : MutationCall}
    {io : AppendIo} (interrupted : Interrupted a) (quiet : Quiet a (a.after (call.admitMutation io))) :
    Interrupted (a.after (call.admitMutation io)) := by
  obtain ⟨clean, small⟩ := quiet
  rcases ran : (call.admitMutation io).exec a.store with ⟨result, s⟩
  have next : (call.record a.store).storeSequence =
      UInt64.ofNat a.acknowledged.length + 1 := by
    rw [← interrupted.last]
    rfl
  cases result with
  | ok r =>
    obtain ⟨-, rfl, good, passed, rfl, size⟩ := MutationCall.admit_ok ran
    rw [Attempts.after_ok ran] at clean small ⊢
    have written : a.store.log = framesOf a.acknowledged := by
      rcases clean with whole | same
      · exact whole
      · exact absurd (List.append_right_eq_self.mp same) (frame_ne_nil _)
    rw [interrupted.owners] at passed
    rw [written] at size
    refine ⟨interrupted.durable.append good next passed size, ?_, ?_, small, .inl ?_⟩
    · simp only [accepted, interrupted.owners, ownersOf_append]
    · simp only [accepted, List.length_append, List.length_singleton]
      rw [ofNat_succ interrupted.durable.length_lt]
      exact next
    · simp only [accepted, written, framesOf_append]
  | error st =>
    rw [Attempts.after_error ran] at clean small ⊢
    rcases MutationCall.admit_failed ran with rfl | ⟨good, passed, n, rfl⟩
    · exact interrupted
    · rcases clean with whole | same
      · refine ⟨interrupted.durable, interrupted.owners, interrupted.last, small, .inr ?_⟩
        rw [interrupted.owners] at passed
        exact ⟨_, n, good, next, passed, by simp only [whole]⟩
      · exact ⟨interrupted.durable, interrupted.owners, interrupted.last, small,
          by rw [same]; exact interrupted.log⟩

theorem openStore_fresh {storeId : StoreId} {options : StoreOpenOptions} {s : FabricStore}
    {header : Bytes} {report : StoreRecoveryReport}
    (opened : openStore none none storeId options = .ok (s, header, report)) :
    storeId.isEmpty = false ∧ s = { opened := true, storeId := storeId } ∧
      ∃ created, openHeader none storeId options = .ok (header, created) := by
  obtain ⟨named, made, -, scan, read, same⟩ := openStore_ok opened
  cases read
  exact ⟨named, same, made⟩

/-- An open that may cut a torn tail succeeds wherever its scan does. -/
theorem openStore_reads {file : Option Bytes} {storeId : StoreId} {options : StoreOpenOptions}
    {header log : Bytes} {created torn : Bool} {final : Recovery} {goodEnd : Nat}
    (named : storeId.isEmpty = false)
    (known : openHeader file storeId options = .ok (header, created))
    (small : log.length ≤ Limits.maxFabricStoreBytes)
    (scanned : fabricFormat.read Recovery.visit {} log = .ok ⟨final, goodEnd, torn⟩)
    (allowed : options.allowTornTailRecovery = true) :
    ∃ report, openStore file (some log) storeId options =
      .ok ({ opened := true, storeId := storeId, log := log.take goodEnd, owners := final.owners
             records := retained final.records, lastSequence := final.lastSequence
             tornTailRecovered := torn }, header, report) := by
  simp only [openStore, named, known, readFileBounded, if_neg (Nat.not_lt.mpr small), bind,
    Except.bind, scanned, allowed, Bool.not_true, Bool.and_false, Bool.false_eq_true, if_false]
  exact ⟨_, rfl⟩

theorem Attempted.interrupted {storeId : StoreId} {header : Bytes}
    {a : Attempts FabricStore MutationRecord} (run : Attempted Quiet storeId header a) :
    Interrupted a := by
  induction run with
  | opened ran =>
    obtain ⟨-, rfl, -⟩ := openStore_fresh ran
    exact ⟨Durable.empty, rfl, rfl, Nat.zero_le _, .inl rfl⟩
  | admitMutation call io _ quiet ih => exact ih.admitMutation quiet

theorem Attempted.header {allowed : Attempts FabricStore MutationRecord →
    Attempts FabricStore MutationRecord → Prop} {storeId : StoreId} {header : Bytes}
    {a : Attempts FabricStore MutationRecord} (run : Attempted allowed storeId header a) :
    storeId.isEmpty = false ∧ ∀ options, openHeader (some header) storeId options =
      .ok (header, false) := by
  induction run with
  | opened ran =>
    obtain ⟨named, -, created, made⟩ := openStore_fresh ran
    exact ⟨named, fun options => openHeader_again named made⟩
  | admitMutation _ _ _ _ ih => exact ih

/-- A visit that counts the records of a numbered log never meets a gap. -/
theorem visitAll_numbered {σ : Type} {visit : σ → MutationRecord → Except Status σ}
    {counted : Sequence × σ → MutationRecord → Except Status (Sequence × σ)}
    (counts : ∀ expected t r, counted (expected, t) r =
      if r.storeSequence ≠ expected then
        .error (Status.make .corrupt .sequenceRegression r.storeSequence)
      else (visit t r).map (r.storeSequence + 1, ·)) (rest done : List MutationRecord) (t : σ)
    (whole : Durable (done ++ rest)) :
    LogFormat.visitAll counted (UInt64.ofNat done.length + 1, t) rest =
      (LogFormat.visitAll visit t rest).map (UInt64.ofNat (done ++ rest).length + 1, ·) := by
  induction rest generalizing done t with
  | nil =>
    rw [List.append_nil]
    rfl
  | cons r rest ih =>
    obtain ⟨sequence, grown⟩ := whole.counts
    rw [List.append_cons] at whole ⊢
    simp only [LogFormat.visitAll, counts, sequence, ne_eq, not_true_eq_false, if_false]
    cases visit t r with
    | error st => rfl
    | ok t' =>
      simp only [Except.map]
      rw [← grown]
      exact ih (done ++ [r]) t' whole

/-- What the load of an intact log does to a visitor's state. -/
theorem load_visits {σ : Type} {history : List MutationRecord} {s : FabricStore}
    (durable : Durable history) (small : s.log.length ≤ Limits.maxFabricStoreBytes)
    (log : s.log = framesOf history) (visit : σ → MutationRecord → Except Status σ) (t : σ) :
    s.load visit t = LogFormat.visitAll visit t history := by
  rw [log] at small
  have bounded : readFileBounded (some (framesOf history)) Limits.maxFabricStoreBytes =
      .ok (framesOf history) := by
    simp only [readFileBounded, if_neg (Nat.not_lt.mpr small)]
  have start : (1 : Sequence) = UInt64.ofNat ([] : List MutationRecord).length + 1 := rfl
  rw [load, log, bounded]
  simp only [bind, Except.bind]
  rw [framesOf, LogFormat.read_frames history
    (fun r member => carries_sealed (durable.intact r member)), start,
    visitAll_numbered (fun _ _ _ => rfl) history [] t durable]
  cases LogFormat.visitAll visit t history with
  | error st => rfl
  | ok t' => rfl

/-- Records numbered from one load as they stand. -/
theorem load_history {history : List MutationRecord} {s : FabricStore} (durable : Durable history)
    (small : s.log.length ≤ Limits.maxFabricStoreBytes) (log : s.log = framesOf history) :
    s.load LogFormat.collect [] = .ok history := by
  rw [load_visits durable small log, LogFormat.visitAll_collect]
  rfl

theorem Interrupted.recovers {storeId : StoreId} {header : Bytes}
    {a : Attempts FabricStore MutationRecord} (interrupted : Interrupted a)
    (named : storeId.isEmpty = false)
    (known : ∀ options, openHeader (some header) storeId options = .ok (header, false)) :
    Recovers storeId header a := by
  intro options torn
  have small := interrupted.small
  -- The file reads back as the acknowledged history, or that and one whole record more.
  have readable : ∃ history isTorn, Durable history ∧ a.acknowledged.Sublist history ∧
      fabricFormat.contents a.store.log = .ok ⟨history, (framesOf history).length, isTorn⟩ ∧
      framesOf history <+: a.store.log := by
    have cut : ∀ l k, Durable l → ∃ isTorn, fabricFormat.contents ((framesOf l).take k) =
        .ok ⟨fabricFormat.fitting MutationRecord.encode k l,
          (framesOf (fabricFormat.fitting MutationRecord.encode k l)).length, isTorn⟩ :=
      fun l k durable => ⟨_, LogFormat.contents_cut
        (fun r member => carries_sealed (durable.intact r member)) k⟩
    rcases interrupted.log with whole | ⟨r, n, good, next, passed, partly⟩
    · obtain ⟨isTorn, contents⟩ := cut a.acknowledged (framesOf a.acknowledged).length
        interrupted.durable
      have all : fabricFormat.fitting MutationRecord.encode (framesOf a.acknowledged).length
          a.acknowledged = a.acknowledged := LogFormat.fitting_all _ _ le_rfl
      rw [all, List.take_length] at contents
      exact ⟨a.acknowledged, isTorn, interrupted.durable, List.Sublist.refl _, whole ▸ contents,
        whole ▸ List.prefix_rfl⟩
    · have longer : (framesOf a.acknowledged).length ≤ Limits.maxFabricStoreBytes := by
        rw [partly, List.length_append] at small
        omega
      have frame : (fabricFormat.frame r.encode).length ≤ 8 + Limits.maxJournalRecordBytes := by
        rw [LogFormat.frame_length]
        exact Nat.add_le_add_left good.fits 8
      have durable : Durable (a.acknowledged ++ [r]) := by
        refine interrupted.durable.append good next passed ?_
        simp only [Limits.maxFabricStoreBytes, Limits.maxJournalRecordBytes] at longer frame
        simp only [maxFileBytes]
        omega
      have taken : a.store.log = (framesOf (a.acknowledged ++ [r])).take
          ((framesOf a.acknowledged).length + n) := by
        rw [partly, framesOf_append, List.take_length_add_append]
      obtain ⟨isTorn, contents⟩ := cut _ ((framesOf a.acknowledged).length + n) durable
      rw [← taken] at contents
      rcases @LogFormat.fitting_one _ _ fabricFormat MutationRecord.encode a.acknowledged r
        ((framesOf a.acknowledged).length + n) (Nat.le_add_right _ _) with same | ⟨same, fits⟩
      · rw [same] at contents
        exact ⟨a.acknowledged, isTorn, interrupted.durable, List.Sublist.refl _, contents,
          partly ▸ List.prefix_append _ _⟩
      · rw [same] at contents
        refine ⟨a.acknowledged ++ [r], isTorn, durable, List.sublist_append_left _ _, contents, ?_⟩
        have whole : (framesOf (a.acknowledged ++ [r])).length ≤
            (framesOf a.acknowledged).length + n := fits
        have exactly : a.store.log = framesOf (a.acknowledged ++ [r]) := by
          rw [taken, List.take_of_length_le whole]
        exact exactly ▸ List.prefix_rfl
  obtain ⟨history, isTorn, durable, kept, contents, front⟩ := readable
  obtain ⟨count, step, visited⟩ := visitAll_history durable
  have scanned := LogFormat.read_contents contents visited
  have log : a.store.log.take (framesOf history).length = framesOf history :=
    (List.prefix_iff_eq_take.mp front).symm
  have within : (framesOf history).length ≤ Limits.maxFabricStoreBytes :=
    front.length_le.trans small
  obtain ⟨report, opened⟩ := openStore_reads named (known options) small scanned torn
  have read : (a.store.log.take (framesOf history).length).length ≤ Limits.maxFabricStoreBytes := by
    rwa [log]
  exact ⟨_, header, report, history, opened, load_history durable read log, kept⟩

end FabricStore

namespace Store

/-- The call, answered with the record it was given. -/
def acknowledge (r : JournalRecord) (io : AppendIo) : Prog Status Store JournalRecord := do
  append r io
  pure r

/-- Appends to a journal created empty, whatever becomes of their writes. -/
inductive Attempted (allowed : Attempts Store JournalRecord → Attempts Store JournalRecord → Prop)
    (storeId : StoreId) (header : Bytes) : Attempts Store JournalRecord → Prop
  | opened {options : StoreOpenOptions} {s : Store} {report : StoreRecoveryReport} :
      openStore {} storeId options = .ok (s, header, report) →
      Attempted allowed storeId header ⟨s, []⟩
  | append {a : Attempts Store JournalRecord} (r : JournalRecord) (io : AppendIo) :
      Attempted allowed storeId header a → allowed a (a.after (acknowledge r io)) →
      Attempted allowed storeId header (a.after (acknowledge r io))

/-- The file opens again and a replay yields everything acknowledged, in order. -/
def Recovers (storeId : StoreId) (header : Bytes) (a : Attempts Store JournalRecord) : Prop :=
  ∀ options, options.allowTornTailRecovery = true → ∃ s header' report records,
    openStore { header := some header, journal := some a.store.journal } storeId options =
        .ok (s, header', report) ∧
      s.replay LogFormat.collect [] = .ok records ∧ a.acknowledged.Sublist records

/-- No part of a record stands at the end of the file. -/
def Intact (journal : Bytes) : Prop :=
  ∃ records goodEnd, journalFormat.contents journal = .ok ⟨records, goodEnd, false⟩

/-- Nothing is written behind a part of a record, and the file stays within what an
open reads. A whole record that was not acknowledged does no harm. -/
def Quiet (before after : Attempts Store JournalRecord) : Prop :=
  (Intact before.store.journal ∨ after.store.journal = before.store.journal) ∧
    after.store.journal.length ≤ Limits.maxFabricStoreBytes

def journalFrames (records : List JournalRecord) : Bytes :=
  records.flatMap fun r => journalFormat.frame r.encode

theorem journalFrames_append (records : List JournalRecord) (r : JournalRecord) :
    journalFrames (records ++ [r]) = journalFrames records ++ journalFormat.frame r.encode := by
  simp [journalFrames]

theorem journalFrames_length (records : List JournalRecord) :
    8 * records.length ≤ (journalFrames records).length := by
  induction records with
  | nil => exact Nat.zero_le _
  | cons r rest ih =>
    simp only [journalFrames, List.flatMap_cons, List.length_append, LogFormat.frame_length,
      List.length_cons] at ih ⊢
    omega

/-- The whole records of the file, which an open gets through. -/
structure Readable (s : Store) (whole : List JournalRecord) (final : Recovery) : Prop where
  carried : ∀ r ∈ whole, journalFormat.Carries r.encode r
  visited : LogFormat.visitAll Recovery.visit ⟨1, 0, 0, 0, 0⟩ whole = .ok final
  waiting : final.Waiting
  least : s.lastSequence.toNat ≤ final.lastSequence.toNat
  most : final.lastSequence.toNat ≤ s.lastSequence.toNat + 1
  counted : s.lastSequence.toNat ≤ whole.length

/-- Whole records, those acknowledged among them, and at most a part of one more. -/
structure Interrupted (a : Attempts Store JournalRecord) : Prop where
  small : a.store.journal.length ≤ Limits.maxFabricStoreBytes
  written : ∃ whole final, Readable a.store whole final ∧ a.acknowledged.Sublist whole ∧
    (a.store.journal = journalFrames whole ∨ ∃ (r : JournalRecord) (n : Nat),
      journalFormat.Carries r.encode r ∧ 0 < n ∧ n < (journalFormat.frame r.encode).length ∧
        a.store.journal = journalFrames whole ++ (journalFormat.frame r.encode).take n)

/-- The next record goes through whether or not its sequence is already in the file. -/
theorem Readable.grow {s t : Store} {whole : List JournalRecord} {final : Recovery}
    {r : JournalRecord} (readable : Readable s whole final)
    (small : (journalFrames whole).length ≤ Limits.maxFabricStoreBytes)
    (next : r.sequence = s.lastSequence + 1)
    (fits : r.encode.length ≤ Limits.maxJournalRecordBytes)
    (last : t.lastSequence = s.lastSequence ∨ t.lastSequence = r.sequence) :
    ∃ final', Readable t (whole ++ [r]) final' := by
  have bound := journalFrames_length whole
  have counted := readable.counted
  have most := readable.most
  have least := readable.least
  simp only [Limits.maxFabricStoreBytes] at small
  have room : s.lastSequence ≠ maxWord := by
    intro full
    rw [full] at counted
    simp only [maxWord, UInt64.reduceToNat] at counted
    omega
  have sequence : r.sequence.toNat = s.lastSequence.toNat + 1 := by rw [next, toNat_succ room]
  have bounded : r.sequence ≠ maxWord := by
    intro full
    rw [full] at sequence
    simp only [maxWord, UInt64.reduceToNat] at sequence
    omega
  have numbered : r.sequence ≠ 0 := by rw [next]; exact succ_ne_zero room
  have step : ∃ final', final.visit r = .ok final' ∧ final'.Waiting ∧
      final'.lastSequence.toNat = s.lastSequence.toNat + 1 := by
    rcases Nat.lt_or_ge s.lastSequence.toNat final.lastSequence.toNat with ahead | level
    · refine ⟨final, Recovery.visit_skip readable.waiting ?_, readable.waiting, by omega⟩
      rw [UInt64.le_iff_toNat_le]
      omega
    · have same : final.lastSequence = s.lastSequence := UInt64.toNat_inj.mp (by omega)
      obtain ⟨final', visited, waiting, reached⟩ :=
        Recovery.visit_next readable.waiting (same ▸ next) bounded
      exact ⟨final', visited, waiting, by rw [reached, sequence]⟩
  obtain ⟨final', visited, waiting, reached⟩ := step
  have bounds : t.lastSequence.toNat = s.lastSequence.toNat ∨
      t.lastSequence.toNat = s.lastSequence.toNat + 1 := by
    rcases last with same | same
    · exact .inl (congrArg UInt64.toNat same)
    · exact .inr (by rw [same, sequence])
  refine ⟨final', ?_, ?_, waiting, by omega, by omega, ?_⟩
  · intro x member
    rcases List.mem_append.mp member with old | new
    · exact readable.carried x old
    · rw [List.mem_singleton.mp new]
      exact carries_record numbered fits
  · rw [LogFormat.visitAll_append, readable.visited]
    simp only [Except.bind, LogFormat.visitAll, visited]
  · rw [List.length_append, List.length_singleton]
    omega

theorem Readable.refl {s s' : Store} {whole : List JournalRecord} {final : Recovery}
    (readable : Readable s whole final) (same : s'.lastSequence = s.lastSequence) :
    Readable s' whole final :=
  ⟨readable.carried, readable.visited, readable.waiting, same ▸ readable.least,
    same ▸ readable.most, same ▸ readable.counted⟩

theorem Interrupted.append {a : Attempts Store JournalRecord} {r : JournalRecord} {io : AppendIo}
    (interrupted : Interrupted a) (quiet : Quiet a (a.after (acknowledge r io))) :
    Interrupted (a.after (acknowledge r io)) := by
  obtain ⟨clean, small⟩ := quiet
  obtain ⟨whole, final, readable, kept, written⟩ := interrupted.written
  -- An intact file has no part of a record at its end.
  have intact : Intact a.store.journal → a.store.journal = journalFrames whole := by
    rintro ⟨records, goodEnd, contents⟩
    rcases written with all | ⟨x, n, carries, some, short, partly⟩
    · exact all
    · have torn : journalFormat.contents a.store.journal =
          .ok ⟨whole, (journalFrames whole).length, true⟩ := by
        rw [partly]
        refine LogFormat.contents_torn (fun y member => ?_) some short
        rcases List.mem_append.mp member with old | new
        · exact readable.carried y old
        · rw [List.mem_singleton.mp new]
          exact carries
      rw [torn] at contents
      cases contents
  have nonempty : journalFormat.frame r.encode ≠ [] := by
    intro none
    have size := journalFormat.frame_length r.encode
    rw [none, List.length_nil] at size
    omega
  rcases ran : (Store.append r io).exec a.store with ⟨result, s⟩
  cases result with
  | ok u =>
    have answered : (acknowledge r io).exec a.store = (.ok r, s) := by
      rw [acknowledge, Prog.exec_bind_ok ran]
      rfl
    obtain ⟨-, next, fits, rfl⟩ := append_ok ran
    rw [Attempts.after_ok answered] at clean small ⊢
    have all : a.store.journal = journalFrames whole := by
      rcases clean with whole | same
      · exact intact whole
      · exact absurd (List.append_right_eq_self.mp same) nonempty
    obtain ⟨final', grown⟩ := readable.grow (t := a.store.appended r)
      (all ▸ interrupted.small) next fits (.inr rfl)
    refine ⟨small, whole ++ [r], final', grown, kept.append (List.Sublist.refl [r]), .inl ?_⟩
    simp only [appended, all, journalFrames_append]
  | error st =>
    have answered : (acknowledge r io).exec a.store = (.error st, s) := by
      rw [acknowledge, Prog.exec_bind_error ran]
    rw [Attempts.after_error answered] at clean small ⊢
    rcases append_failed ran with rfl | ⟨next, fits, n, rfl⟩
    · exact interrupted
    rcases clean with untorn | same
    · have all := intact untorn
      by_cases none : n = 0
      · subst none
        refine ⟨small, whole, final, readable.refl rfl, kept, .inl ?_⟩
        simp only [List.take_zero, List.append_nil, all]
      by_cases short : n < (journalFormat.frame r.encode).length
      · obtain ⟨_, grown⟩ := readable.grow (t := a.store) (all ▸ interrupted.small) next fits
          (.inl rfl)
        refine ⟨small, whole, final, readable.refl rfl, kept,
          .inr ⟨r, n, grown.carried r (by simp), by omega, short, by simp only [all]⟩⟩
      · obtain ⟨final', grown⟩ := readable.grow (t := { a.store with
          journal := a.store.journal ++ (journalFormat.frame r.encode).take n })
          (all ▸ interrupted.small) next fits (.inl rfl)
        refine ⟨small, whole ++ [r], final', grown, kept.trans (List.sublist_append_left _ _),
          .inl ?_⟩
        simp only [all, journalFrames_append, List.take_of_length_le (Nat.le_of_not_lt short)]
    · refine ⟨small, whole, final, readable.refl rfl, kept, ?_⟩
      rw [same]
      exact written

theorem openStore_fresh {storeId : StoreId} {options : StoreOpenOptions} {s : Store}
    {header : Bytes} {report : StoreRecoveryReport}
    (opened : openStore {} storeId options = .ok (s, header, report)) :
    storeId.isEmpty = false ∧ s = { opened := true, storeId := storeId } ∧
      ∃ created, openHeader none storeId options = .ok (header, created) := by
  unfold openStore at opened
  split at opened
  · cases opened
  · rename_i named
    cases made : openHeader none storeId options with
    | error st => rw [made] at opened; cases opened
    | ok h =>
      rw [made] at opened
      cases opened
      exact ⟨by simpa using named, rfl, _, rfl⟩

theorem Attempted.interrupted {storeId : StoreId} {header : Bytes}
    {a : Attempts Store JournalRecord} (run : Attempted Quiet storeId header a) :
    Interrupted a := by
  induction run with
  | opened ran =>
    obtain ⟨-, rfl, -⟩ := openStore_fresh ran
    exact ⟨Nat.zero_le _, [], ⟨1, 0, 0, 0, 0⟩,
      ⟨by simp, rfl, ⟨rfl, by decide⟩, le_rfl, Nat.zero_le _, le_rfl⟩, List.Sublist.refl _,
      .inl rfl⟩
  | append r io _ quiet ih => exact ih.append quiet

theorem Attempted.header {allowed : Attempts Store JournalRecord → Attempts Store JournalRecord →
    Prop} {storeId : StoreId} {header : Bytes} {a : Attempts Store JournalRecord}
    (run : Attempted allowed storeId header a) :
    storeId.isEmpty = false ∧ ∀ options, openHeader (some header) storeId options =
      .ok (header, false) := by
  induction run with
  | opened ran =>
    obtain ⟨named, -, created, made⟩ := openStore_fresh ran
    exact ⟨named, fun options => openHeader_again named made⟩
  | append _ _ _ _ ih => exact ih

theorem Interrupted.recovers {storeId : StoreId} {header : Bytes}
    {a : Attempts Store JournalRecord} (interrupted : Interrupted a)
    (named : storeId.isEmpty = false)
    (known : ∀ options, openHeader (some header) storeId options = .ok (header, false)) :
    Recovers storeId header a := by
  intro options torn
  obtain ⟨whole, final, readable, kept, written⟩ := interrupted.written
  have contents : ∃ goodEnd isTorn,
      journalFormat.contents a.store.journal = .ok ⟨whole, goodEnd, isTorn⟩ := by
    rcases written with all | ⟨x, n, carries, some, short, partly⟩
    · refine ⟨(journalFrames whole).length, false, ?_⟩
      rw [all]
      exact LogFormat.contents_frames readable.carried
    · refine ⟨(journalFrames whole).length, true, ?_⟩
      rw [partly]
      refine LogFormat.contents_torn (fun y member => ?_) some short
      rcases List.mem_append.mp member with old | new
      · exact readable.carried y old
      · rw [List.mem_singleton.mp new]
        exact carries
  obtain ⟨goodEnd, isTorn, contents⟩ := contents
  have reads : ∃ s report, openStore { header := some header, journal := some a.store.journal }
      storeId options = .ok (s, header, report) :=
    openStore_reads named (known options) rfl rfl interrupted.small
      (LogFormat.read_contents contents readable.visited) torn
  obtain ⟨s, report, opened⟩ := reads
  have replayed := replay_opened opened
  rw [@recordsIn_of (some a.store.journal) _ _ _ contents] at replayed
  exact ⟨s, header, report, whole, opened, replayed, kept⟩

end Store

/-- A failed write poisons neither file as long as nothing is written behind a part of
a record it left: the file opens, and everything acknowledged is read back in order. -/
theorem interrupted_writes_recover (storeId : StoreId) (header : Bytes)
    (fabric : Attempts FabricStore MutationRecord) (journal : Attempts Store JournalRecord) :
    (FabricStore.Attempted FabricStore.Quiet storeId header fabric →
      FabricStore.Recovers storeId header fabric) ∧
    (Store.Attempted Store.Quiet storeId header journal →
      Store.Recovers storeId header journal) := by
  constructor
  · intro run
    obtain ⟨named, known⟩ := run.header
    exact run.interrupted.recovers named known
  · intro run
    obtain ⟨named, known⟩ := run.header
    exact run.interrupted.recovers named known

section Samples

theorem paintedExtent_named : (Id.make [120] : ExtentId).isEmpty = false := by decide

def sampleCall : MutationCall :=
  ⟨Id.make [100], 5, Scope.single (Id.make [120]) paintedExtent_named, 1, 2, 1, [111], .zero, 1⟩

def sampleRecord (sequence : Sequence) : JournalRecord :=
  { kind := .commitRecord, sequence := sequence }

def emptyFabric : Attempts FabricStore MutationRecord :=
  ⟨{ opened := true, storeId := Id.make [115] }, []⟩

def emptyJournal : Attempts Store JournalRecord :=
  ⟨{ opened := true, storeId := Id.make [115] }, []⟩

def sampleHeader : Bytes := encodeStoreHeader { storeId := Id.make [115], createdAt := 1 }

theorem emptyFabric_attempted (allowed : Attempts FabricStore MutationRecord →
    Attempts FabricStore MutationRecord → Prop) :
    FabricStore.Attempted allowed (Id.make [115]) sampleHeader emptyFabric :=
  @FabricStore.Attempted.opened allowed _ _ {} _ _ rfl

theorem emptyJournal_attempted (allowed : Attempts Store JournalRecord →
    Attempts Store JournalRecord → Prop) :
    Store.Attempted allowed (Id.make [115]) sampleHeader emptyJournal :=
  @Store.Attempted.opened allowed _ _ {} _ _ rfl

def fabricOnce : Attempts FabricStore MutationRecord :=
  emptyFabric.after (sampleCall.admitMutation .done)

def fabricTorn : Attempts FabricStore MutationRecord :=
  fabricOnce.after (sampleCall.admitMutation (.headShort 3))

def journalOnce : Attempts Store JournalRecord :=
  emptyJournal.after (Store.acknowledge (sampleRecord 1) .done)

def journalTorn : Attempts Store JournalRecord :=
  journalOnce.after (Store.acknowledge (sampleRecord 2) (.headShort 3))

/-- One acknowledged record and three bytes of another, in both files. -/
theorem interrupted_writes_recover_torn :
    (fabricTorn.acknowledged.length = 1 ∧
      FabricStore.Recovers (Id.make [115]) sampleHeader fabricTorn) ∧
    journalTorn.acknowledged.length = 1 ∧ Store.Recovers (Id.make [115]) sampleHeader journalTorn := by
  have intact : ∀ journal, (journalFormat.contents journal).map (·.torn) = .ok false →
      Store.Intact journal := by
    intro journal known
    cases contents : journalFormat.contents journal with
    | error st => rw [contents] at known; cases known
    | ok scan =>
      rw [contents] at known
      obtain ⟨records, goodEnd, torn⟩ := scan
      cases known
      exact ⟨records, goodEnd, contents⟩
  have fabric : FabricStore.Attempted FabricStore.Quiet (Id.make [115]) sampleHeader fabricTorn := by
    refine .admitMutation _ _ (.admitMutation _ _ (emptyFabric_attempted _) ⟨.inl rfl, ?_⟩)
      ⟨.inl ?_, ?_⟩
    · decide +kernel
    · decide +kernel
    · decide +kernel
  have journal : Store.Attempted Store.Quiet (Id.make [115]) sampleHeader journalTorn := by
    refine .append _ _ (.append _ _ (emptyJournal_attempted _) ⟨.inl ?_, ?_⟩) ⟨.inl ?_, ?_⟩
    · exact intact _ rfl
    · decide +kernel
    · exact intact _ (by decide +kernel)
    · decide +kernel
  obtain ⟨recovers, replays⟩ := interrupted_writes_recover _ _ fabricTorn journalTorn
  exact ⟨⟨by decide +kernel, recovers fabric⟩, by decide +kernel, replays journal⟩

/-- A record behind three bytes of a failed one makes the log unreadable. -/
theorem interrupted_writes_poison : ¬
    ((∀ storeId header a, FabricStore.Attempted (fun _ _ => True) storeId header a →
      FabricStore.Recovers storeId header a) ∧
    ∀ storeId header a, Store.Attempted (fun _ _ => True) storeId header a →
      Store.Recovers storeId header a) := by
  rintro ⟨claimed, -⟩
  have run : FabricStore.Attempted (fun _ _ => True) (Id.make [115]) sampleHeader
      ((emptyFabric.after (sampleCall.admitMutation (.headShort 3))).after
        (sampleCall.admitMutation .done)) :=
    .admitMutation _ _ (.admitMutation _ _ (emptyFabric_attempted _) trivial) trivial
  obtain ⟨s, header, report, records, opened, -⟩ := claimed _ _ _ run {} rfl
  have refused : (FabricStore.openStore (some sampleHeader)
      (some ((emptyFabric.after (sampleCall.admitMutation (.headShort 3))).after
        (sampleCall.admitMutation .done)).store.log) (Id.make [115]) {}).isOk = false := by
    decide +kernel
  rw [opened] at refused
  cases refused

end Samples

end SplitBrainFabric
