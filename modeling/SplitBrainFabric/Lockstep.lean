import Mathlib.Algebra.GroupWithZero.Nat
import SplitBrainFabric.Handling
import SplitBrainFabric.OperationEnds

/-! The registry and its journal at the same record. A record that is refused after it has
taken its number leaves the registry ahead of the journal, and nothing is written any more. -/

namespace SplitBrainFabric
open Words

/-- Records that carry a journal from one sequence to another. -/
def Follows : Sequence → List JournalRecord → Sequence → Prop
  | last, [], next => last = next
  | last, r :: rest, next => r.sequence = last + 1 ∧ Follows r.sequence rest next

theorem Follows.concat {last next : Sequence} {l : List JournalRecord} {r : JournalRecord}
    (follows : Follows last l next) (above : r.sequence = next + 1) :
    Follows last (l ++ [r]) r.sequence := by
  induction l generalizing last with
  | nil =>
    have same : last = next := follows
    subst same
    exact ⟨above, rfl⟩
  | cons x rest ih => exact ⟨follows.1, ih follows.2⟩

namespace Work

open RegistryState (Footing)

variable {w w' : Work} {now : Step} {kinds : List RecordKind}

/-- If no number was wasted, the records carry a journal to where the registry is. -/
def Unbroken (last : Sequence) (w : Work) : Prop :=
  (∀ r ∈ w.refused, r.sequence = 0) → Follows last w.emitted w.state.registrySequence

theorem frame_unbroken (now : Step) (kinds : List RecordKind) (last : Sequence) :
    Frame now kinds (Unbroken last) := by
  refine ⟨fun kind _ payload status => .of_run fun w r w' before ran => ?_,
    fun _ _ _ _ before => before⟩
  rcases emit_cases ran with ⟨s, -, rfl, applied⟩ | ⟨st, s, -, rfl, applied⟩
  · intro unset
    obtain ⟨-, -, entry, -, enacted⟩ := RegistryState.apply_ok applied
    have follows : Follows last (w.emitted ++ [w.nextRecord kind payload status now])
        (w.nextRecord kind payload status now).sequence := (before unset).concat rfl
    rwa [← show s.registrySequence = (w.nextRecord kind payload status now).sequence from
      RegistryState.enact_sequence enacted] at follows
  · intro unset
    have missing : (w.nextRecord kind payload status now).sequence = 0 :=
      unset _ (by simp [Work.lost])
    have same : s = w.state := by
      rcases RegistryState.apply_cases applied with ⟨same, -⟩ | ⟨set, -⟩
      · exact same
      · exact absurd missing set
    subst same
    exact before fun r member => unset r (List.mem_append_left _ member)

/-- Every record fits the journal. -/
def Brief (w : Work) : Prop := ∀ r ∈ w.emitted, r.encode.length ≤ Limits.maxJournalRecordBytes

theorem written_length {kind : RecordKind} {payload : Bytes} (written : Written kind payload)
    (plain : kind ≠ .policyDefine) : payload.length ≤ 20000 := by
  cases written with
  | policyDefine policy => exact absurd rfl plain
  | bootBegin boot | bootEnd boot =>
    have size := boot.node.length_le
    simp [encodeBootRecord]
    omega
  | domainDefine d =>
    have domain := d.domain.length_le
    have node := d.node.length_le
    have policy := d.policy.length_le
    have scope := d.scope.encode_length
    simp [encodeDomain]
    omega
  | grantOpen g | grantClose g =>
    have domain := g.domain.length_le
    have scope := g.extents.encode_length
    simp [encodeGrant]
    omega
  | fence record scope | extentAdopt record scope =>
    have domain := record.domain.length_le
    have size := scope.encode_length
    simp [encodeFencePayload]
    omega
  | commitRecord sequence effect => simp
  | incarnationAllocate value => simp
  | interruptMark mark =>
    have domain := mark.domain.length_le
    simp [encodeInterrupt]
    omega

theorem wording_brief (plain : .policyDefine ∉ kinds) : Wording now kinds Brief := by
  refine ⟨fun kind emits payload status written => .of_run fun w r w' before ran => ?_,
    fun _ _ _ _ before => before⟩
  have short := written_length written fun same => plain (same ▸ emits)
  rcases emit_cases ran with ⟨s, -, rfl, applied⟩ | ⟨st, s, -, rfl, applied⟩
  · intro r member
    rcases List.mem_append.mp member with old | last
    · exact before r old
    · rw [List.mem_singleton.mp last]
      simp [JournalRecord.encode, nextRecord, Limits.maxJournalRecordBytes]
      omega
  · exact before

/-- A commit takes a number only for a record that is accepted. -/
theorem commit_clean {request : CommitRequest} {io : AppendIo}
    {r : Except CommitResponse CommitResponse}
    (ran : (commit request now io).exec w = (r, w')) : Clean w w' := by
  cases commit_mutates ran with
  | refused refusal fails => exact Clean.refl w
  | barred names worded holds admitted => exact clean_of_same rfl
  | written names worded holds admitted emitted =>
    have aside : ∀ fabric, Clean w (w.update fun s => { s with fabric := fabric }) :=
      fun _ => clean_of_same rfl
    exact (aside _).trans (emit_clean_of emitted
      (show _ = Except.ok Entry.commitRecord from rfl) fun record => ⟨_, rfl⟩)

/-- A record that is refused is not handed out. -/
theorem emit_unwritten {kind : RecordKind} {payload : Bytes} {status st : Status}
    (ran : (emit kind payload status now).exec w = (.error st, w')) : w'.emitted = w.emitted := by
  rcases emit_cases ran with ⟨s, failed, -, -⟩ | ⟨_, s, -, rfl, -⟩
  · cases failed
  · rfl

theorem allocateIncarnation_unwritten {st : Status}
    (ran : (allocateIncarnation now).exec w = (.error st, w')) : w'.emitted = w.emitted := by
  rw [allocateIncarnation, Prog.exec_get_bind, Prog.exec_refuseIf] at ran
  split at ran
  · cases ran
    rfl
  rw [Prog.exec_bind] at ran
  rcases emitted : (emit .incarnationAllocate (Writer.u64 (w.state.incarnationCounter + 1)) .ok
    now).exec w with ⟨result, w₁⟩
  rw [emitted] at ran
  cases result with
  | error refusal =>
    cases ran
    exact emit_unwritten emitted
  | ok u => cases ran

theorem defineDomain_unwritten {d : DomainDefinition} {st : Status}
    (ran : (defineDomain d now).exec w = (.error st, w')) : w'.emitted = w.emitted := by
  by_cases definable : Definable w.state d
  · rw [defineDomain_exec definable] at ran
    exact emit_unwritten ran
  · rw [defineDomain_idle definable ran]

end Work

namespace Op

open Work (Admissible Blocked Definable Names Starved)
open RegistryState (Footing)

/-- A definition that is to be written names its policy, and the fence table has room for every
scope that the call comes to raise or adopt. -/
def Fed (s : RegistryState) : Op → Prop
  | .defineDomain d => Definable s d → s.registrySequence ≠ maxWord → d.policy.isEmpty = false
  | .allocateEpoch request => Admissible s request →
      ({ state := s } : Work).repeatedAttempt request = none → ¬ Starved s request
  | .fence request => Names s request.domain request.scope →
      ¬ Blocked s 2 (Work.raised s request)
  | .release request => ∀ g, s.lineage.find request.grant = some g → g.isOpen = true →
      ¬ Blocked s 2 [g.extents]
  | .allocateIncarnation | .decide _ _ | .commit _ _ => True
  | .definePolicy _ | .recoverAfterRestart => False

theorem after_clean {s : RegistryState} {now : Step} {op : Op} (footing : Footing s)
    (fed : op.Fed s) : Work.Clean { state := s } (op.after now { state := s }) := by
  cases op with
  | defineDomain d =>
    by_cases definable : Definable s d
    · by_cases full : s.registrySequence = maxWord
      · exact Work.clean_of_full full
          ((Work.defineDomain_exec (w := { state := s }) definable).symm.trans (Prod.eta _).symm)
      · exact Work.defineDomain_clean (fed definable full) (Prod.eta _).symm
    · exact Work.clean_of_same
        (congrArg Work.refused (Work.defineDomain_idle definable (Prod.eta _).symm))
  | definePolicy p => exact fed.elim
  | allocateIncarnation => exact Work.allocateIncarnation_clean (Prod.eta _).symm
  | allocateEpoch request => exact Work.allocateEpoch_clean footing fed (Prod.eta _).symm
  | decide request sorting =>
    exact Work.clean_of_same (congrArg Work.refused (Work.decide_spec (Prod.eta _).symm))
  | commit request io => exact Work.commit_clean (Prod.eta _).symm
  | fence request => exact Work.fence_clean footing fed (Prod.eta _).symm
  | release request => exact Work.release_clean footing fed (Prod.eta _).symm
  | recoverAfterRestart => exact fed.elim

/-- Whatever an operation of a session hands to the journal fits it. -/
theorem after_brief {now : Step} {op : Op} {s : RegistryState}
    (plain : RecordKind.policyDefine ∉ op.kinds) : Work.Brief (op.after now { state := s }) :=
  Op.keeps_worded (Work.wording_brief plain)
    (fun _ _ _ => Work.onFabric_keeps fun _ _ before => before) (by simp [Work.Brief])

/-- What an operation that wastes no number hands to the journal. -/
theorem after_records {s : RegistryState} {now : Step} {op : Op} (footing : Footing s)
    (fed : op.Fed s) :
    Follows s.registrySequence (op.after now { state := s }).emitted
        (op.after now { state := s }).state.registrySequence ∧
      Work.Brief (op.after now { state := s }) := by
  constructor
  · have unbroken : Work.Unbroken s.registrySequence (op.after now { state := s }) :=
      Op.keeps (Work.frame_unbroken now op.kinds s.registrySequence)
        (fun _ _ _ => Work.onFabric_keeps fun _ _ before => before) fun _ => rfl
    refine unbroken fun r member => ?_
    rcases after_clean footing fed r member with old | unset
    · cases old
    · exact unset
  · refine after_brief ?_
    cases op with
    | definePolicy p => exact fed.elim
    | _ => simp [kinds]

end Op

namespace Store

/-- A checkpoint that the disk does not fail leaves the journal where it is. -/
theorem checkpoint_stays {s s' : Store} {blob : Bytes} {covers : Sequence} {now : Step}
    {r : Except Status PUnit} (ran : (checkpoint blob covers now .done).exec s = (r, s')) :
    s'.opened = s.opened ∧ s'.lastSequence = s.lastSequence := by
  rw [checkpoint, Prog.exec_get_bind, Prog.exec_refuseIf] at ran
  split at ran
  · cases ran; exact ⟨rfl, rfl⟩
  rw [Prog.exec_refuseIf] at ran
  split at ran
  · cases ran; exact ⟨rfl, rfl⟩
  rw [Prog.exec_refuseIf] at ran
  split at ran
  · cases ran; exact ⟨rfl, rfl⟩
  · cases ran; exact ⟨rfl, rfl⟩

end Store

namespace RegistryService

variable {s s' : RegistryService} {records : List JournalRecord}

/-- The bytes that records take in the journal. -/
def journalBytes (records : List JournalRecord) : Nat :=
  (records.map fun r => (journalFormat.frame r.encode).length).sum

/-- One turn of the loop that writes the records. -/
def appendOne (io : RequestIo) (turn : JournalRecord × Nat) :
    Prog Status RegistryService PUnit := do
  onStore (Store.append turn.1 (io.journal turn.2))
  modify fun s => { s with recordsSinceCheckpoint := s.recordsSinceCheckpoint + 1 }

theorem appendRecords_eq (io : RequestIo) (records : List JournalRecord) :
    appendRecords io records = (records.zipIdx.forM (appendOne io) >>= fun _ => do
      let s ← get
      if s.config.checkpointEveryRecords ≤ s.recordsSinceCheckpoint then do
        onStore (Store.checkpoint s.state.serialize s.store.lastSequence s.state.clock
          io.checkpoint)
        modify fun s => { s with recordsSinceCheckpoint := 0 }
      else pure ⟨⟩) := rfl

theorem appendLoop_runs {k : Nat} {next : Sequence} (opened : s.store.opened = true)
    (follows : Follows s.store.lastSequence records next)
    (brief : ∀ r ∈ records, r.encode.length ≤ Limits.maxJournalRecordBytes)
    (room : s.store.journal.length + journalBytes records ≤ maxFileBytes) :
    ∃ store count, ((records.zipIdx k).forM (appendOne {})).exec s =
        (.ok ⟨⟩, { s with store := store, recordsSinceCheckpoint := count }) ∧
      store.opened = true ∧ store.lastSequence = next := by
  induction records generalizing s k with
  | nil => exact ⟨s.store, s.recordsSinceCheckpoint, rfl, opened, follows⟩
  | cons r rest ih =>
    obtain ⟨above, later⟩ := follows
    have width : journalBytes (r :: rest) =
        (journalFormat.frame r.encode).length + journalBytes rest := List.sum_cons
    have written := Store.append_runs opened above (brief r List.mem_cons_self) (by omega)
    have turn : (appendOne {} (r, k)).exec s = (.ok ⟨⟩, { s with
        store := s.store.appended r
        recordsSinceCheckpoint := s.recordsSinceCheckpoint + 1 }) := by
      rw [appendOne, Prog.exec_bind, onStore, Prog.exec_zoom]
      simp only [written]
      rfl
    obtain ⟨store, count, ran, still, last⟩ := ih (s := { s with
      store := s.store.appended r
      recordsSinceCheckpoint := s.recordsSinceCheckpoint + 1 }) (k := k + 1) opened later
      (fun x member => brief x (List.mem_cons_of_mem r member)) (by
        simp only [Store.appended, List.length_append]
        omega)
    refine ⟨store, count, ?_, still, last⟩
    rw [List.zipIdx_cons, Prog.forM_cons, Prog.exec_bind_ok turn]
    exact ran

/-- A service whose journal is open and at the record of the registry. -/
structure InStep (s : RegistryService) : Prop where
  opened : s.store.opened = true
  last : s.state.registrySequence = s.store.lastSequence

/-- Whether or not the checkpoint behind the records goes through. -/
theorem appendRecords_in_step {r : Except Status PUnit} (opened : s.store.opened = true)
    (follows : Follows s.store.lastSequence records s.state.registrySequence)
    (brief : ∀ r ∈ records, r.encode.length ≤ Limits.maxJournalRecordBytes)
    (room : s.store.journal.length + journalBytes records ≤ maxFileBytes)
    (ran : (appendRecords {} records).exec s = (r, s')) : InStep s' ∧ s'.state = s.state := by
  obtain ⟨store, count, looped, still, last⟩ := appendLoop_runs (k := 0) opened follows brief room
  rw [appendRecords_eq, Prog.exec_bind_ok looped, Prog.exec_get_bind] at ran
  split at ran
  · rw [Prog.exec_bind, onStore, Prog.exec_zoom] at ran
    rcases saved : (Store.checkpoint s.state.serialize store.lastSequence s.state.clock
      .done).exec store with ⟨result, store'⟩
    obtain ⟨same, stays⟩ := Store.checkpoint_stays saved
    simp only [saved] at ran
    cases result with
    | error st =>
      cases ran
      exact ⟨⟨same.trans still, last.symm.trans stays.symm⟩, rfl⟩
    | ok u =>
      cases ran
      exact ⟨⟨same.trans still, last.symm.trans stays.symm⟩, rfl⟩
  · cases ran
    exact ⟨⟨still, last.symm⟩, rfl⟩

/-- A service whose registry is one that a run comes to, an open or a restart included. -/
def Backed (s : RegistryService) : Prop :=
  ∃ h : History, History.Reachable (fun _ _ => True) h ∧ h.live = s.state

theorem Backed.ticked (backed : Backed s) (room : s.state.clock ≠ maxWord) : Backed s.ticked := by
  obtain ⟨h, reached, live⟩ := backed
  refine ⟨{ h with live := { h.live with clock := h.live.clock + 1 } }, ?_, ?_⟩
  · refine reached.turns (.single ⟨.tick, trivial, ?_⟩)
    rw [History.step, if_neg (live ▸ room)]
  · rw [RegistryService.ticked, live]

theorem Backed.performed (backed : Backed s) (room : s.state.clock ≠ maxWord) (op : Op) :
    Backed (s.performed op) := by
  obtain ⟨h, reached, live⟩ := backed.ticked room
  refine ⟨h.called op (s.state.clock + 1), ?_, ?_⟩
  · exact reached.turns (.single ⟨.call op (s.state.clock + 1), trivial, rfl⟩)
  · have found : h.work = s.work := congrArg (fun t => ({ state := t } : Work)) live
    rw [RegistryService.performed, History.called, found]

theorem Backed.congr (backed : Backed s) (same : s'.state = s.state) : Backed s' := by
  obtain ⟨h, reached, live⟩ := backed
  exact ⟨h, reached, live.trans same.symm⟩

theorem Backed.footing (backed : Backed s) : s.state.Footing := by
  obtain ⟨h, reached, live⟩ := backed
  exact live ▸ reached.footing

/-- An operation that wastes no number leaves the journal at the record of the registry. -/
theorem InStep.written {op : Op} {r : Except Status PUnit} (inStep : InStep s) (backed : Backed s)
    (room : s.state.clock ≠ maxWord) (fed : op.Fed s.ticked.state)
    (disk : s.store.journal.length + journalBytes (s.produced op) ≤ maxFileBytes)
    (appended : (appendRecords {} (s.produced op)).exec (s.performed op) = (r, s')) :
    InStep s' ∧ Backed s' := by
  obtain ⟨follows, brief⟩ : Follows s.state.registrySequence (s.produced op)
      (s.performed op).state.registrySequence ∧ (∀ r ∈ s.produced op,
        r.encode.length ≤ Limits.maxJournalRecordBytes) :=
    Op.after_records (backed.ticked room).footing fed
  rw [inStep.last] at follows
  have opened : (s.performed op).store.opened = true := inStep.opened
  obtain ⟨after, same⟩ := appendRecords_in_step opened follows brief disk appended
  exact ⟨after, (backed.performed room op).congr same⟩

/-- An operation that emitted nothing has nothing to write. -/
theorem InStep.unwritten {op : Op} (inStep : InStep s) (backed : Backed s)
    (room : s.state.clock ≠ maxWord) (fed : op.Fed s.ticked.state) (none : s.produced op = []) :
    InStep (s.performed op) ∧ Backed (s.performed op) := by
  obtain ⟨follows, -⟩ : Follows s.state.registrySequence (s.produced op)
      (s.performed op).state.registrySequence ∧ _ :=
    Op.after_records (backed.ticked room).footing fed
  rw [none] at follows
  exact ⟨⟨inStep.opened, follows.symm.trans inStep.last⟩, backed.performed room op⟩

/-- What a registry in service is asked, with the binding of the session that asks. -/
inductive ServiceCall where
  | hello (request : HelloRequest)
  | request (frame : Frame) (binding : SessionBinding)
  | define (definition : DomainDefinition)
  | leave (session : SessionId)

/-- The service behind a call, whatever it was answered. -/
def after (s : RegistryService) : ServiceCall → RegistryService
  | .hello request => ((handleHello {} request).exec s).2
  | .request frame binding => ((handleFrame {} frame binding).exec s).2
  | .define definition => ((defineDomain {} definition).exec s).2
  | .leave session => s.releaseSession session

/-- The operation that a call comes to if nothing is in the way. -/
def ServiceCall.op : ServiceCall → Option Op
  | .hello _ => some .allocateIncarnation
  | .request frame binding => asked {} frame binding
  | .define definition => some (.defineDomain definition)
  | .leave _ => none

/-- The disk has room for what the call writes. -/
def Unfailing (s : RegistryService) (call : ServiceCall) : Prop := ∀ op, call.op = some op →
  s.store.journal.length + journalBytes (s.produced op) ≤ maxFileBytes

/-- The call wastes no sequence number. -/
def Fed (s : RegistryService) (call : ServiceCall) : Prop := ∀ op, call.op = some op →
  op.Fed s.ticked.state

theorem handleHello_in_step {request : HelloRequest} {r : Except Status SessionBinding}
    (inStep : InStep s) (backed : Backed s)
    (disk : s.store.journal.length + journalBytes (s.produced .allocateIncarnation) ≤ maxFileBytes)
    (ran : (handleHello {} request).exec s = (r, s')) : InStep s' ∧ Backed s' := by
  rw [handleHello, Prog.exec_refuseIf] at ran
  split at ran
  · cases ran; exact ⟨inStep, backed⟩
  rw [Prog.exec_refuseIf] at ran
  split at ran
  · cases ran; exact ⟨inStep, backed⟩
  rw [Prog.exec_get_bind, Prog.exec_refuseIf] at ran
  split at ran
  · cases ran; exact ⟨inStep, backed⟩
  rw [Prog.exec_bind, advance_exec] at ran
  by_cases full : s.state.clock = maxWord
  · rw [if_pos full] at ran
    cases ran
    exact ⟨inStep, backed⟩
  rw [if_neg full] at ran
  simp only [exec_perform, Prog.exec_ofExcept_bind] at ran
  rcases allocated : (Work.allocateIncarnation (s.state.clock + 1)).exec s.work with ⟨result, w⟩
  have found : Op.allocateIncarnation.after (s.state.clock + 1) s.work = w :=
    congrArg Prod.snd allocated
  have start : ({ state := s.ticked.state } : Work) = s.work := rfl
  have fed : Op.allocateIncarnation.Fed s.ticked.state := trivial
  rw [start, allocated] at ran
  cases result with
  | error st =>
    cases ran
    have none : s.produced .allocateIncarnation = [] := by
      rw [produced, found]
      exact Work.allocateIncarnation_unwritten allocated
    have kept := inStep.unwritten backed full fed none
    rwa [performed, found] at kept
  | ok incarnation =>
    simp only [Prog.exec_bind] at ran
    rcases appended : (appendRecords {} (s.produced .allocateIncarnation)).exec
      (s.performed .allocateIncarnation) with ⟨result, t⟩
    obtain ⟨inStep', backed'⟩ := inStep.written backed full fed disk appended
    rw [produced, performed, found] at appended
    rw [show ({ s.ticked with state := w.state } : RegistryService) =
      { s with state := w.state } from rfl, appended] at ran
    cases result with
    | error st =>
      cases ran
      exact ⟨inStep', backed'⟩
    | ok u =>
      cases ran
      exact ⟨⟨inStep'.opened, inStep'.last⟩, backed'.congr rfl⟩

theorem defineDomain_in_step {d : DomainDefinition} {r : Except Status PUnit} (inStep : InStep s)
    (backed : Backed s) (fed : (Op.defineDomain d).Fed s.ticked.state)
    (disk : s.store.journal.length + journalBytes (s.produced (.defineDomain d)) ≤ maxFileBytes)
    (ran : (defineDomain {} d).exec s = (r, s')) : InStep s' ∧ Backed s' := by
  rw [defineDomain, Prog.exec_bind, advance_exec] at ran
  by_cases full : s.state.clock = maxWord
  · rw [if_pos full] at ran
    cases ran
    exact ⟨inStep, backed⟩
  rw [if_neg full] at ran
  simp only [exec_perform, Prog.exec_ofExcept_bind] at ran
  rcases defined : (Work.defineDomain d (s.state.clock + 1)).exec s.work with ⟨result, w⟩
  have found : (Op.defineDomain d).after (s.state.clock + 1) s.work = w :=
    congrArg Prod.snd defined
  have start : ({ state := s.ticked.state } : Work) = s.work := rfl
  rw [start, defined] at ran
  cases result with
  | error st =>
    cases ran
    have none : s.produced (.defineDomain d) = [] := by
      rw [produced, found]
      exact Work.defineDomain_unwritten defined
    have kept := inStep.unwritten backed full fed none
    rwa [performed, found] at kept
  | ok u =>
    have appended : (appendRecords {} (s.produced (.defineDomain d))).exec
        (s.performed (.defineDomain d)) = (r, s') := by
      rw [produced, performed, found]
      exact ran
    exact inStep.written backed full fed disk appended

theorem handleFrame_in_step {frame : Frame} {binding : SessionBinding}
    {r : Except Status (MessageType × Option WireValue)} (inStep : InStep s) (backed : Backed s)
    (fed : Fed s (.request frame binding)) (disk : Unfailing s (.request frame binding))
    (ran : (handleFrame {} frame binding).exec s = (r, s')) : InStep s' ∧ Backed s' := by
  cases handleFrame_handled ran with
  | idle silent => exact ⟨inStep, backed⟩
  | timeless asks full => exact ⟨inStep, backed⟩
  | @unrecorded op asks room aside =>
    refine inStep.unwritten backed room (fed op asks) ?_
    cases op with
    | decide request sorting =>
      have same : (Op.decide request sorting).after (s.state.clock + 1) s.work = s.work :=
        Work.decide_spec (Prod.eta _).symm
      rw [produced, same]
      rfl
    | _ => cases aside
  | @written op t asks room records appended =>
    exact inStep.written backed room (fed op asks) (disk op asks) appended
  | @unwritten op st t asks room records appended =>
    exact inStep.written backed room (fed op asks) (disk op asks) appended

theorem after_in_step (call : ServiceCall) (inStep : InStep s) (backed : Backed s)
    (fed : Fed s call) (disk : Unfailing s call) :
    InStep (s.after call) ∧ Backed (s.after call) := by
  cases call with
  | hello request => exact handleHello_in_step inStep backed (disk _ rfl) (Prod.eta _).symm
  | request frame binding => exact handleFrame_in_step inStep backed fed disk (Prod.eta _).symm
  | define d => exact defineDomain_in_step inStep backed (fed _ rfl) (disk _ rfl) (Prod.eta _).symm
  | leave session => exact ⟨⟨inStep.opened, inStep.last⟩, backed.congr rfl⟩

/-- Behind calls that waste no number the registry and its journal are at the same record, and
the records of the next such call continue the journal. -/
theorem journal_in_step (s : RegistryService) (backed : Backed s) (inStep : InStep s)
    (calls : List ServiceCall) (disk : Runs.Each after Unfailing s calls)
    (fed : Runs.Each after Fed s calls) :
    let t := Runs.run after s calls
    t.state.registrySequence = t.store.lastSequence ∧
      ∀ op : Op, t.state.clock ≠ maxWord → op.Fed t.ticked.state →
        Follows t.store.lastSequence (t.produced op) (t.performed op).state.registrySequence := by
  have kept : InStep (Runs.run after s calls) ∧ Backed (Runs.run after s calls) := by
    induction calls generalizing s with
    | nil => exact ⟨inStep, backed⟩
    | cons call rest ih =>
      obtain ⟨inStep', backed'⟩ := after_in_step call inStep backed fed.1 disk.1
      exact ih (s.after call) backed' inStep' disk.2 fed.2
  obtain ⟨inStep', backed'⟩ := kept
  refine ⟨inStep'.last, fun op room fed => ?_⟩
  rw [← inStep'.last]
  exact (Op.after_records (backed'.ticked room).footing fed).1

section Samples

open History (sampleConfig sampleStart sampleDomain)

/-- A service on an empty directory. -/
def emptyService (h : History) : RegistryService where
  config := sampleConfig
  store := { opened := true }
  state := h.live

theorem emptyService_ready {h : History} (begun : sampleStart = some h) :
    Backed (emptyService h) ∧ InStep (emptyService h) := by
  have unmoved : sampleStart.map (·.live.registrySequence) = some 0 := by decide
  rw [begun] at unmoved
  exact ⟨⟨h, ⟨_, _, _, _, h, begun, .refl⟩, rfl⟩, rfl, Option.some.inj unmoved⟩

/-- Whether the disk has room for what an operation writes. -/
def roomy (s : RegistryService) (op : Op) : Bool :=
  decide (s.store.journal.length + journalBytes (s.produced op) ≤ maxFileBytes)

def sampleCalls : List ServiceCall := [.define (sampleDomain 100 120), .hello {
  node := Id.make [110], clientProtocol := frameVersion }]

theorem journal_in_step_greeted : ∃ s : RegistryService, Backed s ∧ InStep s ∧
    let t := Runs.run after s sampleCalls
    t.state.registrySequence = t.store.lastSequence ∧
      ∀ op : Op, t.state.clock ≠ maxWord → op.Fed t.ticked.state →
        Follows t.store.lastSequence (t.produced op) (t.performed op).state.registrySequence := by
  have evaluated : sampleStart.map (fun h =>
      roomy (emptyService h) (.defineDomain (sampleDomain 100 120)) &&
        roomy ((emptyService h).after (.define (sampleDomain 100 120))) .allocateIncarnation) =
      some true := by
    decide +kernel
  obtain ⟨h, begun, both⟩ := Option.map_eq_some_iff.mp evaluated
  obtain ⟨backed, inStep⟩ := emptyService_ready begun
  rw [Bool.and_eq_true, roomy, decide_eq_true_eq, roomy, decide_eq_true_eq] at both
  refine ⟨emptyService h, backed, inStep, journal_in_step _ backed inStep sampleCalls
    ⟨fun op asks => ?_, fun op asks => ?_, trivial⟩ ⟨fun op asks => ?_, fun op asks => ?_, trivial⟩⟩
  · cases asks
    exact both.1
  · cases asks
    exact both.2
  · cases asks
    exact fun _ _ => rfl
  · cases asks
    trivial

/-- A definition without a policy takes a number and is not written. -/
theorem journal_falls_behind : ¬ ∀ s : RegistryService, Backed s → InStep s →
    ∀ calls, Runs.Each after Unfailing s calls →
      (Runs.run after s calls).state.registrySequence =
        (Runs.run after s calls).store.lastSequence := by
  intro claim
  have evaluated : sampleStart.map (fun h =>
      let d : DomainDefinition := { sampleDomain 100 120 with policy := Id.empty }
      let s := (emptyService h).after (.define d)
      (roomy (emptyService h) (.defineDomain d), s.state.registrySequence, s.store.lastSequence)) =
      some (true, 1, 0) := by
    decide +kernel
  obtain ⟨h, begun, both⟩ := Option.map_eq_some_iff.mp evaluated
  obtain ⟨backed, inStep⟩ := emptyService_ready begun
  simp only [Prod.mk.injEq, roomy, decide_eq_true_eq] at both
  obtain ⟨room, ahead, behind⟩ := both
  have same := claim (emptyService h) backed inStep
    [.define { sampleDomain 100 120 with policy := Id.empty }] ⟨fun op asks => ?_, trivial⟩
  · rw [show Runs.run after (emptyService h) [.define { sampleDomain 100 120 with
      policy := Id.empty }] = (emptyService h).after (.define { sampleDomain 100 120 with
        policy := Id.empty }) from rfl, ahead, behind] at same
    cases same
  · cases asks
    exact room

end Samples

end RegistryService
end SplitBrainFabric
