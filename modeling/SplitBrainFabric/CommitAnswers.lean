import SplitBrainFabric.LateWriters
import SplitBrainFabric.Lockstep
import SplitBrainFabric.Refusals

/-! What the answer to a commit says about its effect. The effect is in the fabric log before
the record of it is numbered and written, so a refusal that comes later comes too late. -/

namespace SplitBrainFabric
open Words

namespace RegistryState

/-- What a commit writes to a registry takes the same room in a snapshot. -/
theorem serialize_length_same (s : RegistryState) (clock lastStep : Step) (sequence : Sequence)
    (generation : Generation) (commits : UInt64) (fabric : FabricStore) :
    ({ s with
      clock := clock, lastStep := lastStep, registrySequence := sequence
      generation := generation, commits := commits, fabric := fabric } :
        RegistryState).serialize.length = s.serialize.length := by
  simp [serialize, body, scopeOf]

end RegistryState

namespace Work

open RegistryState (observe bumpGeneration)

variable {w w' : Work} {request : CommitRequest} {now : Step}

/-- A commit that passes every check puts its effect into the fabric log. -/
theorem commit_effect {r : Except CommitResponse CommitResponse}
    (commits : Commits w.state request now)
    (written : AppendIo.done.settle w.state.fabric.log.length
      (fabricFormat.frame ((effectCall request now).record w.state.fabric).encode) = .done)
    (ran : (commit request now .done).exec w = (r, w')) :
    w'.state.fabric.log ≠ w.state.fabric.log ∧
      (w.state.registrySequence = maxWord ∧ w'.emitted = w.emitted ∧
          r = .error { status := .make .corrupt .valueOutOfRange } ∨
        w.state.registrySequence ≠ maxWord ∧ ∃ record response, r = .ok response ∧
          response.status = .ok ∧ w'.emitted = w.emitted ++ [record] ∧
          record.sequence = w.state.registrySequence + 1 ∧
          w'.state.serialize.length = w.state.serialize.length) := by
  have admits := commits.allowed.runs written
  cases commit_mutates ran with
  | refused refusal fails => exact absurd ⟨commits.names, commits.worded, commits.held⟩ fails
  | barred names worded holds admitted => cases admits.symm.trans admitted
  | written names worded holds admitted emitted =>
    cases admits.symm.trans admitted
    have grown : (w.state.fabric.accepted ((effectCall request now).record w.state.fabric)).log ≠
        w.state.fabric.log := by
      intro same
      have size := congrArg List.length same
      simp only [FabricStore.accepted, List.length_append, LogFormat.frame_length] at size
      omega
    by_cases full : w.state.registrySequence = maxWord
    · have none : ∀ fabric, (w.update fun s =>
          { s with fabric := fabric }).state.registrySequence = maxWord := fun _ => full
      rw [emit_full (none _)] at emitted
      cases emitted
      exact ⟨grown, .inl ⟨full, rfl, rfl⟩⟩
    · have room : ∀ fabric, (w.update fun s =>
          { s with fabric := fabric }).state.registrySequence ≠ maxWord := fun _ => full
      rw [@emit_runs _ _ _ _ _ .commitRecord _ (room _) rfl rfl] at emitted
      cases emitted
      refine ⟨grown, .inr ⟨full, _, _, rfl, rfl, rfl, rfl, ?_⟩⟩
      exact RegistryState.serialize_length_same w.state _ _ _ _ _ _

end Work

namespace Store

theorem append_outcome {s s' : Store} {r : JournalRecord} {st : Status}
    (ran : (append r .done).exec s = (.error st, s')) : st.outcome ≠ .unknown := by
  rw [append, Prog.exec_get_bind, Prog.exec_refuseIf] at ran
  split at ran
  · cases ran; rintro ⟨⟩
  rw [Prog.exec_refuseIf] at ran
  split at ran
  · cases ran; rintro ⟨⟩
  rw [Prog.exec_refuseIf] at ran
  split at ran
  · cases ran; rintro ⟨⟩
  cases fate : AppendIo.done.settle s.journal.length (journalFormat.frame r.encode) with
  | done => simp only [fate] at ran; cases ran
  | headShort n => simp only [fate] at ran; cases ran; rintro ⟨⟩
  | payloadShort n => simp only [fate] at ran; cases ran; rintro ⟨⟩
  | flushFailed n stage => simp only [fate] at ran; cases ran; rintro ⟨⟩

theorem checkpoint_outcome {s s' : Store} {blob : Bytes} {covers : Sequence} {now : Step}
    {st : Status} (ran : (checkpoint blob covers now .done).exec s = (.error st, s')) :
    st.outcome ≠ .unknown := by
  rw [checkpoint, Prog.exec_get_bind, Prog.exec_refuseIf] at ran
  split at ran
  · cases ran; rintro ⟨⟩
  rw [Prog.exec_refuseIf] at ran
  split at ran
  · cases ran; rintro ⟨⟩
  rw [Prog.exec_refuseIf] at ran
  split at ran
  · cases ran; rintro ⟨⟩
  · cases ran

/-- Behind an append a checkpoint of what was appended fails for the size of the snapshot alone. -/
theorem checkpoint_ok_iff {s : Store} (blob : Bytes) (now : Step) (opened : s.opened = true) :
    (∃ s', (checkpoint blob s.lastSequence now .done).exec s = (.ok ⟨⟩, s')) ↔
      blob.length ≤ Limits.maxSnapshotBytes := by
  rw [checkpoint, Prog.exec_get_bind, Prog.exec_refuseIf, if_neg (by simp [opened]),
    Prog.exec_refuseIf, if_neg (not_not.mpr rfl), Prog.exec_refuseIf]
  by_cases large : Limits.maxSnapshotBytes < blob.length
  · rw [if_pos large]
    constructor
    · rintro ⟨_, ⟨⟩⟩
    · exact fun fits => absurd fits (not_le.mpr large)
  · rw [if_neg large]
    exact ⟨fun _ => not_lt.mp large, fun _ => ⟨_, rfl⟩⟩

end Store

namespace RegistryService

variable {s s' : RegistryService} {frame : Frame} {binding : SessionBinding}

theorem onStore_keeps {α : Type} {m : Prog Status Store α} {t : RegistryState} :
    (onStore m).Keeps (·.state = t) := .of_run fun s r s' before ran => by
  rw [onStore, Prog.exec_zoom] at ran
  cases ran
  exact before

/-- The records are written from the registry as it is. -/
theorem appendRecords_state {io : RequestIo} {records : List JournalRecord}
    {r : Except Status PUnit} (ran : (appendRecords io records).exec s = (r, s')) :
    s'.state = s.state := by
  have keeps : (appendRecords io records).Keeps (·.state = s.state) := by
    rw [appendRecords_eq]
    have turns : ∀ turn, (appendOne io turn).Keeps (·.state = s.state) := fun _ =>
      .bind onStore_keeps fun _ => .modify fun _ same => same
    refine .bind (.forM turns _) fun _ => .get fun t _ => .ite ?_ (.pure _)
    exact .bind onStore_keeps fun _ => .modify fun _ same => same
  exact keeps.run rfl ran

theorem onStore_outcome {α : Type} {m : Prog Status Store α}
    (definite : ∀ {s s' : Store} {st : Status}, m.exec s = (.error st, s') →
      st.outcome ≠ .unknown) :
    Prog.Ensures (fun _ => True) (onStore m) (fun _ _ => True) fun st _ => st.outcome ≠ .unknown :=
  Prog.Ensures.intro (fun _ _ _ _ _ => trivial) fun s st s' _ failed => by
    rw [onStore, Prog.exec_zoom, Prod.mk.injEq] at failed
    rcases ran : m.exec s.store with ⟨result, t⟩
    rw [ran] at failed
    obtain rfl : result = .error st := failed.1
    exact definite ran

/-- On a sound disk a record is refused for what it is. -/
theorem appendRecords_outcome {records : List JournalRecord} {st : Status}
    (ran : (appendRecords {} records).exec s = (.error st, s')) : st.outcome ≠ .unknown := by
  have spec : Prog.Ensures (fun _ => True) (appendRecords {} records) (fun _ _ => True)
      fun st _ => st.outcome ≠ .unknown := by
    have turn : ∀ turn, Prog.Ensures (fun _ => True) (appendOne {} turn) (fun _ _ => True)
        fun st _ => st.outcome ≠ .unknown := fun _ =>
      .bind (onStore_outcome Store.append_outcome) fun _ => .intro (fun _ _ _ _ _ => trivial)
        fun _ _ _ _ failed => by cases failed
    have looped : Prog.Ensures (fun _ => True) (records.zipIdx.forM (appendOne {}))
        (fun _ _ => True) fun st _ => st.outcome ≠ .unknown :=
      Prog.Ensures.forM (fun _ _ => True) (fun x _ => turn x) _
    rw [appendRecords_eq]
    refine .bind looped fun _ => .get fun t => .ite (fun _ => ?_) fun _ => .pure fun _ _ => trivial
    refine .bind (.consequence (onStore_outcome Store.checkpoint_outcome) (fun _ _ => trivial)
      (fun _ _ _ => trivial) fun _ _ definite => definite) fun _ => ?_
    exact .intro (fun _ _ _ _ _ => trivial) fun _ _ _ _ failed => by cases failed
  exact spec.error trivial ran

/-- One record goes through exactly if it continues the journal and no checkpoint fails. -/
theorem appendRecords_one_iff {record : JournalRecord}
    (fits : record.encode.length ≤ Limits.maxJournalRecordBytes)
    (room : s.store.journal.length + (journalFormat.frame record.encode).length ≤ maxFileBytes) :
    (∃ s', (appendRecords {} [record]).exec s = (.ok ⟨⟩, s')) ↔
      s.store.opened = true ∧ record.sequence = s.store.lastSequence + 1 ∧
        (s.config.checkpointEveryRecords ≤ s.recordsSinceCheckpoint + 1 →
          s.state.serialize.length ≤ Limits.maxSnapshotBytes) := by
  have looped : ([record].zipIdx.forM (appendOne {})).exec s =
      (appendOne {} (record, 0)).exec s := by
    rw [List.zipIdx_cons, Prog.forM_cons, Prog.exec_bind]
    rcases (appendOne {} (record, 0)).exec s with ⟨result, t⟩
    cases result with
    | error st => rfl
    | ok u => rfl
  rcases appended : (Store.append record .done).exec s.store with ⟨result, store⟩
  cases result with
  | error st =>
    have failed : (appendOne {} (record, 0)).exec s =
        (.error st, { s with store := store }) := by
      rw [appendOne, Prog.exec_bind, onStore, Prog.exec_zoom]
      simp only [appended]
    rw [appendRecords_eq, Prog.exec_bind_error (looped.trans failed)]
    constructor
    · rintro ⟨_, ⟨⟩⟩
    · rintro ⟨opened, next, -⟩
      rw [Store.append_runs opened next fits room] at appended
      cases appended
  | ok u =>
    obtain ⟨opened, next, -, rfl⟩ := Store.append_ok appended
    have turn : (appendOne {} (record, 0)).exec s = (.ok ⟨⟩, { s with
        store := s.store.appended record
        recordsSinceCheckpoint := s.recordsSinceCheckpoint + 1 }) := by
      rw [appendOne, Prog.exec_bind, onStore, Prog.exec_zoom]
      simp only [appended]
      rfl
    rw [appendRecords_eq, Prog.exec_bind_ok (looped.trans turn), Prog.exec_get_bind]
    have saves := Store.checkpoint_ok_iff (s := s.store.appended record) s.state.serialize
      s.state.clock opened
    simp only [opened, next, true_and]
    split
    · rename_i due
      rw [← saves, forall_prop_of_true due, Prog.exec_bind, onStore, Prog.exec_zoom]
      rcases (Store.checkpoint s.state.serialize (s.store.appended record).lastSequence
        s.state.clock .done).exec (s.store.appended record) with ⟨result, store⟩
      cases result with
      | error st => simp
      | ok u => simp
    · rename_i rests
      exact ⟨fun _ due => absurd due rests, fun _ => ⟨_, rfl⟩⟩

theorem asked_commit {io : RequestIo} {op : Op} (type : frame.header.type = .commitRequest)
    (asks : asked io frame binding = some op) : ∃ request, op = .commit request io.fabric := by
  unfold asked at asks
  split at asks
  · cases asks
  rw [type] at asks
  obtain ⟨request, -, asks⟩ := Option.bind_eq_some_iff.mp asks
  split at asks
  · cases asks
  · cases asks
    exact ⟨request, rfl⟩

/-- An answer that is neither a success nor an unknown outcome. -/
structure Declined (r : Except Status (MessageType × Option WireValue)) : Prop where
  answered : ∀ response : CommitResponse,
    r = .ok (.commitResponse, some ⟨.commitResponse, response⟩) →
      response.status.isOk = false ∧ response.status.outcome ≠ .unknown
  failed : ∀ st, r = .error st → st.outcome ≠ .unknown

theorem Declined.error {st : Status} (definite : st.outcome ≠ .unknown) :
    Declined (.error st) := by
  refine ⟨fun _ same => ?_, fun _ same => ?_⟩
  · cases same
  · cases same
    exact definite

/-- The disk has room for an effect and for the record of it. -/
structure Roomy (s : RegistryService) (request : CommitRequest) : Prop where
  effect : AppendIo.done.settle s.work.state.fabric.log.length (fabricFormat.frame
    ((Work.effectCall request (s.state.clock + 1)).record s.work.state.fabric).encode) = .done
  record : s.store.journal.length + journalBytes (s.produced (.commit request .done)) ≤ maxFileBytes

/-- The record of an effect has a number, continues the journal and needs no checkpoint, or
one that fits. -/
structure Recordable (s : RegistryService) : Prop where
  numbered : s.state.registrySequence ≠ maxWord
  opened : s.store.opened = true
  last : s.store.lastSequence = s.state.registrySequence
  saved : s.config.checkpointEveryRecords ≤ s.recordsSinceCheckpoint + 1 →
    s.state.serialize.length ≤ Limits.maxSnapshotBytes

theorem committed_declined_iff {request : CommitRequest} (disk : Roomy s request)
    (commits : Work.Commits s.work.state request (s.state.clock + 1))
    {r : Except Status PUnit}
    (appended : (appendRecords {} (s.produced (.commit request .done))).exec
      (s.performed (.commit request .done)) = (r, s')) :
    Declined (r.map fun _ => Op.reply (s.state.clock + 1) s.work (.commit request .done)) ↔
      ¬ Recordable s := by
  obtain ⟨-, ended⟩ := Work.commit_effect commits disk.effect
    (Prod.eta ((Work.commit request (s.state.clock + 1) .done).exec s.work)).symm
  rcases ended with ⟨full, -, refused⟩ | ⟨room, record, response, accepted, fine, emitted, next,
    size⟩
  · refine iff_of_true ?_ fun recordable => recordable.numbered full
    cases r with
    | error st => exact .error (appendRecords_outcome appended)
    | ok u =>
      refine ⟨fun _ same => ?_, fun _ same => ?_⟩
      · simp only [Except.map, Op.reply, refused] at same
        cases same
        exact ⟨rfl, by rintro ⟨⟩⟩
      · cases same
  · have brief : ∀ r ∈ s.produced (.commit request .done),
        r.encode.length ≤ Limits.maxJournalRecordBytes := Op.after_brief (by simp [Op.kinds])
    have produced : s.produced (.commit request .done) = [record] := emitted
    have width := disk.record
    rw [produced] at appended width brief
    rw [journalBytes, List.map_cons, List.map_nil, List.sum_singleton] at width
    have written := appendRecords_one_iff (s := s.performed (.commit request .done))
      (brief record List.mem_cons_self) width
    have bytes : (s.performed (.commit request .done)).state.serialize.length =
        s.state.serialize.length := size.trans (RegistryState.serialize_length_same s.state
      (s.state.clock + 1) s.state.lastStep s.state.registrySequence s.state.generation
      s.state.commits s.state.fabric)
    have recorded : (∃ s', (appendRecords {} [record]).exec (s.performed (.commit request .done)) =
        (.ok ⟨⟩, s')) ↔ Recordable s := by
      rw [written, bytes]
      have continues : record.sequence = s.store.lastSequence + 1 ↔
          s.store.lastSequence = s.state.registrySequence := by
        rw [next]
        exact (UInt64.add_left_inj 1).trans eq_comm
      constructor
      · rintro ⟨opened, last, saved⟩
        exact ⟨room, opened, continues.mp last, saved⟩
      · rintro ⟨-, opened, last, saved⟩
        exact ⟨opened, continues.mpr last, saved⟩
    cases r with
    | error st =>
      refine iff_of_true (.error (appendRecords_outcome appended)) fun recordable => ?_
      obtain ⟨t, runs⟩ := recorded.mpr recordable
      cases runs.symm.trans appended
    | ok u =>
      refine iff_of_false (fun declined => ?_) (not_not.mpr (recorded.mp ⟨s', appended⟩))
      have answer : Op.reply (s.state.clock + 1) s.work (.commit request .done) =
          (.commitResponse, some ⟨.commitResponse, response⟩) := by
        simp only [Op.reply, accepted]
        rfl
      have ok := (declined.answered response (congrArg Except.ok answer)).1
      rw [fine] at ok
      cases ok

/-- A commit that is declined leaves the effect log alone exactly if it is turned away before
its effect or the record of the effect goes through. -/
theorem declined_effectless_iff (s : RegistryService) (frame : Frame) (binding : SessionBinding)
    (type : frame.header.type = .commitRequest)
    (disk : ∀ request, asked {} frame binding = some (.commit request .done) →
      Work.Commits s.work.state request (s.state.clock + 1) → Roomy s request) :
    (Declined ((handleFrame {} frame binding).exec s).1 →
      ((handleFrame {} frame binding).exec s).2.state.fabric.log = s.state.fabric.log) ↔
    ∀ request, asked {} frame binding = some (.commit request .done) →
      s.state.clock ≠ maxWord →
      Work.Commits s.work.state request (s.state.clock + 1) → Recordable s := by
  rcases ran : (handleFrame {} frame binding).exec s with ⟨r, s'⟩
  have attempted : ∀ {op : Op} {result : Except Status PUnit} {t : RegistryService},
      asked {} frame binding = some op → s.state.clock ≠ maxWord →
      (appendRecords {} (s.produced op)).exec (s.performed op) = (result, t) →
      ((Declined (result.map fun _ => Op.reply (s.state.clock + 1) s.work op) →
        t.state.fabric.log = s.state.fabric.log) ↔
      ∀ request, asked {} frame binding = some (.commit request .done) →
        s.state.clock ≠ maxWord → Work.Commits s.work.state request (s.state.clock + 1) →
          Recordable s) := by
    intro op result t asks room appended
    obtain ⟨request, rfl⟩ := asked_commit type asks
    have state := appendRecords_state appended
    by_cases commits : Work.Commits s.work.state request (s.state.clock + 1)
    · obtain ⟨moved, -⟩ := Work.commit_effect commits (disk request asks commits).effect
        (Prod.eta ((Work.commit request (s.state.clock + 1) .done).exec s.work)).symm
      have changed : t.state.fabric.log ≠ s.state.fabric.log := state ▸ moved
      have declined := committed_declined_iff (disk request asks commits) commits appended
      constructor
      · intro effectless other known _ _
        by_contra lacks
        exact changed (effectless (declined.mpr lacks))
      · intro recordable refused
        exact absurd (recordable request asks room commits) (declined.mp refused)
    · obtain ⟨-, same⟩ := Work.commit_refused commits
        (Prod.eta ((Work.commit request (s.state.clock + 1) .done).exec s.work)).symm
      refine iff_of_true (fun _ => ?_) fun other known _ commits' => ?_
      · rw [state]
        exact congrArg (·.state.fabric.log) same
      · cases asks.symm.trans known
        exact absurd commits' commits
  cases handleFrame_handled ran with
  | idle silent =>
    refine iff_of_true (fun _ => rfl) fun request asks => ?_
    rw [silent] at asks
    cases asks
  | timeless asks full => exact iff_of_true (fun _ => rfl) fun request _ room => absurd full room
  | unrecorded asks room aside =>
    obtain ⟨request, rfl⟩ := asked_commit type asks
    cases aside
  | written asks room records appended => exact attempted asks room appended
  | unwritten asks room records appended => exact attempted asks room appended

theorem Roomy.of_small {request : CommitRequest}
    (commits : Work.Commits s.work.state request (s.state.clock + 1))
    (log : s.state.fabric.log.length ≤ 1000000) (journal : s.store.journal.length ≤ 1000000) :
    Roomy s request := by
  have fits : ((Work.effectCall request (s.state.clock + 1)).record
      s.work.state.fabric).encode.length ≤ Limits.maxJournalRecordBytes :=
    History.mutationRecord_fits commits.allowed.printable
  have effect : AppendIo.done.settle s.work.state.fabric.log.length (fabricFormat.frame
      ((Work.effectCall request (s.state.clock + 1)).record s.work.state.fabric).encode) =
        .done := by
    refine AppendIo.done_settles ?_
    rw [LogFormat.frame_length]
    have log : s.work.state.fabric.log.length ≤ 1000000 := log
    simp only [Limits.maxJournalRecordBytes] at fits
    simp only [maxFileBytes]
    omega
  refine ⟨effect, ?_⟩
  have brief : ∀ r ∈ s.produced (.commit request .done),
      r.encode.length ≤ Limits.maxJournalRecordBytes := Op.after_brief (by simp [Op.kinds])
  obtain ⟨-, ended⟩ := Work.commit_effect commits effect
    (Prod.eta ((Work.commit request (s.state.clock + 1) .done).exec s.work)).symm
  rcases ended with ⟨-, none, -⟩ | ⟨-, record, _, -, -, one, -⟩
  · have produced : s.produced (.commit request .done) = [] := none
    rw [produced]
    simp only [journalBytes, List.map_nil, List.sum_nil, maxFileBytes]
    omega
  · have produced : s.produced (.commit request .done) = [record] := one
    rw [produced] at brief ⊢
    have short := brief record List.mem_cons_self
    simp only [Limits.maxJournalRecordBytes] at short
    simp only [journalBytes, List.map_cons, List.map_nil, List.sum_singleton,
      LogFormat.frame_length, maxFileBytes]
    omega

section Samples

open History (servedStart guarded sampleDomain sampleAllocation firstCommit sampleConfig)

def coordinatorBinding : SessionBinding where
  session := 1
  node := Id.make [110]
  boot := 1
  incarnation := 1

def commitFrame : Frame where
  header := { type := .commitRequest, requestId := 1 }
  payload := CommitRequest.encode { firstCommit 1 1 1 1 with envelope := {
    session := 1, node := Id.make [110], boot := 1, incarnation := 1 } }

/-- One grant, and a journal at the given record. -/
def servedAt (h : History) (last : Sequence) : RegistryService where
  config := sampleConfig
  store := { opened := true, lastSequence := last }
  state := h.live

/-- An error of a definite outcome. -/
def definite : Except Status (MessageType × Option WireValue) → Bool
  | .error st => decide (st.outcome ≠ .unknown)
  | .ok _ => false

theorem Declined.of_definite {r : Except Status (MessageType × Option WireValue)}
    (known : definite r = true) : Declined r := by
  cases r with
  | error st => exact .error (of_decide_eq_true known)
  | ok answer => cases known

def grantedRun : Option History := servedStart.bind (guarded (fun _ _ => true) · [
  .call (.defineDomain (sampleDomain 100 120)) 1, .call .allocateIncarnation 2,
  .call (.allocateEpoch (sampleAllocation 100 120 1 1)) 3])

theorem declined_effectless_iff_granted : ∃ (s : RegistryService) (frame : Frame)
    (binding : SessionBinding), ((handleFrame {} frame binding).exec s).2.state.fabric.log ≠
      s.state.fabric.log ∧
    ((Declined ((handleFrame {} frame binding).exec s).1 →
      ((handleFrame {} frame binding).exec s).2.state.fabric.log = s.state.fabric.log) ↔
    ∀ request, asked {} frame binding = some (.commit request .done) →
      s.state.clock ≠ maxWord →
      Work.Commits s.work.state request (s.state.clock + 1) → Recordable s) := by
  have evaluated : grantedRun.map (fun h => (((handleFrame {} commitFrame coordinatorBinding).exec
      (servedAt h 4)).2.state.fabric.log.length, h.live.fabric.log.length)) = some (137, 0) := by
    decide +kernel
  obtain ⟨h, -, lengths⟩ := Option.map_eq_some_iff.mp evaluated
  obtain ⟨after, before⟩ := Prod.mk.inj lengths
  refine ⟨servedAt h 4, commitFrame, coordinatorBinding, fun same => ?_,
    declined_effectless_iff _ _ _ rfl fun request asks commits => .of_small commits ?_ ?_⟩
  · have size := congrArg List.length same
    rw [after] at size
    cases before.symm.trans size.symm
  · exact before.trans_le (Nat.zero_le _)
  · exact Nat.zero_le _

/-- A journal that lags behind refuses the record of an effect that is there already. -/
theorem declined_not_effectless : ¬ ∀ (s : RegistryService) (frame : Frame)
    (binding : SessionBinding), frame.header.type = .commitRequest →
    (∀ request, asked {} frame binding = some (.commit request .done) →
      Work.Commits s.work.state request (s.state.clock + 1) → Roomy s request) →
    Declined ((handleFrame {} frame binding).exec s).1 →
      ((handleFrame {} frame binding).exec s).2.state.fabric.log = s.state.fabric.log := by
  intro claim
  have evaluated : grantedRun.map (fun h =>
      let ran := (handleFrame {} commitFrame coordinatorBinding).exec (servedAt h 3)
      (definite ran.1, ran.2.state.fabric.log.length, h.live.fabric.log.length)) =
      some (true, 137, 0) := by
    decide +kernel
  obtain ⟨h, -, both⟩ := Option.map_eq_some_iff.mp evaluated
  obtain ⟨failed, lengths⟩ := Prod.mk.inj both
  obtain ⟨after, before⟩ := Prod.mk.inj lengths
  have same := claim (servedAt h 3) commitFrame coordinatorBinding rfl
    (fun request asks commits => .of_small commits (before.trans_le (Nat.zero_le _))
      (Nat.zero_le _)) (.of_definite failed)
  have size := congrArg List.length same
  rw [after] at size
  cases before.symm.trans size.symm

end Samples

end RegistryService
end SplitBrainFabric
