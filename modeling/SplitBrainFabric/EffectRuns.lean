import SplitBrainFabric.OperationFrames
import SplitBrainFabric.Audit
import SplitBrainFabric.LogReopen
import SplitBrainFabric.Replay

/-! The effect log over whole histories of a registry: commits of any outcome, crashes in
the middle of a write, reopens. Its file always reads back as a lawful history, and the
audit of that is quiet exactly when epochs never fall from one owner to the next. -/

namespace SplitBrainFabric
open Words FabricStore

theorem Chained.front {whole records : List MutationRecord} (chained : Chained records)
    (front : whole <+: records) : Chained whole := by
  obtain ⟨rest, rfl⟩ := front
  refine ⟨fun r member => chained.intact r (List.mem_append_left _ member), ?_,
    chained.lawful.sublist (List.sublist_append_left _ _)⟩
  have numbered := chained.numbered
  rw [List.map_append, List.length_append, ← List.range'_append_1] at numbered
  exact List.append_inj_left numbered (by simp)

/-- A file of lawful records, cut anywhere. -/
def Readable (file : Bytes) : Prop :=
  ∃ records k, Chained records ∧ file = (framesOf records).take k

/-- Memory is the history of the file: no failed write has left bytes behind. -/
def Clean (s : FabricStore) : Prop := ∃ records, Durable records ∧ Reflects s records

theorem Readable.cut {file : Bytes} (readable : Readable file) (k : Nat) :
    Readable (file.take k) := by
  obtain ⟨records, bound, chained, rfl⟩ := readable
  exact ⟨records, min k bound, chained, List.take_take⟩

theorem Clean.readable {s : FabricStore} (clean : Clean s) : Readable s.log := by
  obtain ⟨records, durable, reflects⟩ := clean
  exact ⟨records, (framesOf records).length, durable.chained, by rw [List.take_length, reflects.log]⟩

theorem Readable.contents {file : Bytes} (readable : Readable file) :
    ∃ records torn, Chained records ∧ framesOf records <+: file ∧
      fabricFormat.contents file = .ok ⟨records, (framesOf records).length, torn⟩ := by
  obtain ⟨records, k, chained, rfl⟩ := readable
  have carries : ∀ r ∈ records, fabricFormat.Carries r.encode r :=
    fun r member => carries_sealed (chained.intact r member)
  have front := LogFormat.fitting_prefix fabricFormat MutationRecord.encode k records
  refine ⟨_, _, chained.front front, ?_, LogFormat.contents_cut carries k⟩
  have short : (framesOf (fabricFormat.fitting MutationRecord.encode k records)).length ≤ k :=
    LogFormat.fitting_fits records k
  exact (List.prefix_take_iff).mpr ⟨framesOf_mono front, short⟩

theorem Readable.recordsIn {file : Bytes} (readable : Readable file) :
    ∃ records, Boundary.recordsIn file = .ok records ∧ Chained records := by
  obtain ⟨records, torn, chained, -, contents⟩ := readable.contents
  have scanned : fabricFormat.read (fun seen r => .ok (seen ++ [r])) [] file =
      .ok ⟨records, (framesOf records).length, torn⟩ := contents
  refine ⟨records, ?_, chained⟩
  rw [Boundary.recordsIn, scanned]
  rfl

theorem clean_fresh {storeId : StoreId} {options : StoreOpenOptions} {s : FabricStore}
    {header : Bytes} {report : StoreRecoveryReport}
    (opened : openStore none none storeId options = .ok (s, header, report)) : Clean s := by
  obtain ⟨-, rfl, -⟩ := openStore_fresh opened
  exact ⟨[], Durable.empty, rfl, rfl, rfl, rfl⟩

/-- Whatever an open accepts, memory is the history of the file again. -/
theorem clean_opened {header : Option Bytes} {file header' : Bytes} {storeId : StoreId}
    {options : StoreOpenOptions} {s : FabricStore} {report : StoreRecoveryReport}
    (readable : Readable file)
    (opened : openStore header (some file) storeId options = .ok (s, header', report)) :
    Clean s := by
  obtain ⟨records, torn, chained, front, contents⟩ := readable.contents
  obtain ⟨-, -, small, scan, read, rfl⟩ := openStore_ok opened
  have durable : Durable records := by
    refine ⟨chained.intact, chained.numbered, chained.lawful, ?_⟩
    have within := front.length_le
    have bounded : file.length ≤ Limits.maxFabricStoreBytes := small
    simp only [Limits.maxFabricStoreBytes] at bounded
    simp only [maxFileBytes]
    omega
  obtain ⟨count, step, visited⟩ := visitAll_history durable
  have scanned := (LogFormat.read_contents contents visited).symm.trans read
  obtain rfl := Except.ok.inj scanned
  have log : file.take (framesOf records).length = framesOf records :=
    (List.prefix_iff_eq_take.mp front).symm
  refine ⟨records, durable, log, rfl, rfl, ?_⟩
  simp only

/-- However a write at the end of a clean log ends, the file stays readable. -/
theorem admit_readable {call : MutationCall} {io : AppendIo} {s s' : FabricStore}
    {r : Except Status MutationRecord} (clean : Clean s)
    (ran : (call.admitMutation io).exec s = (r, s')) : Readable s'.log := by
  obtain ⟨records, durable, reflects⟩ := clean
  have next : (call.record s).storeSequence = UInt64.ofNat records.length + 1 := by
    rw [← reflects.last]
    rfl
  cases r with
  | ok r =>
    obtain ⟨-, rfl, good, passed, rfl, -⟩ := MutationCall.admit_ok ran
    rw [reflects.owners] at passed
    refine ⟨records ++ [call.record s], (framesOf (records ++ [call.record s])).length,
      durable.next good next passed, ?_⟩
    rw [List.take_length, framesOf_append]
    simp only [accepted, reflects.log]
  | error st =>
    rcases MutationCall.admit_failed ran with rfl | ⟨good, passed, n, rfl⟩
    · exact Clean.readable ⟨records, durable, reflects⟩
    · rw [reflects.owners] at passed
      refine ⟨records ++ [call.record s], (framesOf records).length + n,
        durable.next good next passed, ?_⟩
      rw [framesOf_append, List.take_length_add_append]
      simp only [reflects.log]

/-- An admitted write leaves a clean log clean. -/
theorem admit_clean {call : MutationCall} {io : AppendIo} {s s' : FabricStore}
    {r : MutationRecord} (clean : Clean s) (ran : (call.admitMutation io).exec s = (.ok r, s')) :
    Clean s' := by
  obtain ⟨records, durable, reflects⟩ := clean
  obtain ⟨-, rfl, good, passed, rfl, size⟩ := MutationCall.admit_ok ran
  have next : (call.record s).storeSequence = UInt64.ofNat records.length + 1 := by
    rw [← reflects.last]
    rfl
  rw [reflects.owners] at passed
  rw [reflects.log] at size
  exact ⟨_, durable.append good next passed size, Reflects.accepted durable reflects next⟩

/-- A record takes every extent it changes hands with at an epoch no lower than before. -/
def Handover (records : List MutationRecord) : Prop :=
  ∀ done r rest, records = done ++ r :: rest → ∀ e ∈ r.scope.extents, ∀ v,
    LastWriter.latest touches e done = some v → v.incarnation ≠ r.incarnation → v.epoch ≤ r.epoch

theorem handover_append {done : List MutationRecord} {r : MutationRecord} :
    Handover (done ++ [r]) ↔ Handover done ∧ ∀ e ∈ r.scope.extents, ∀ v,
      LastWriter.latest touches e done = some v → v.incarnation ≠ r.incarnation →
        v.epoch ≤ r.epoch := by
  constructor
  · intro handover
    refine ⟨fun front x rest split => ?_, handover done r [] rfl⟩
    refine handover front x (rest ++ [r]) ?_
    rw [split, List.append_assoc]
    rfl
  · rintro ⟨before, last⟩ front x rest split
    rcases List.eq_nil_or_concat rest with rfl | ⟨rest, y, rfl⟩
    · obtain ⟨rfl, same⟩ := List.append_inj' split rfl
      cases same
      exact last
    · rw [List.concat_eq_append, ← List.cons_append, ← List.append_assoc] at split
      obtain ⟨same, -⟩ := List.append_inj' split rfl
      exact before front x rest same

/-- Under the token law only the epoch can put a record behind its successor. -/
theorem succeeds_iff {v r : MutationRecord}
    (follows : LastWriter.Follows (·.fenceToken) (·.incarnation) v r) :
    FabricAudit.Succeeds v r ↔ (v.incarnation ≠ r.incarnation → v.epoch ≤ r.epoch) := by
  constructor
  · intro succeeds differ
    have ordered := succeeds.order differ
    by_contra later
    have apart : r.epoch ≠ v.epoch := ne_of_lt (not_le.mp later)
    rw [successionPrecedes, if_pos apart] at ordered
    exact later (not_lt.mp (of_decide_eq_false ordered))
  · intro epochs
    refine ⟨follows.1, follows.2, fun differ => ?_⟩
    have above := epochs differ
    unfold successionPrecedes
    split
    · exact decide_eq_false (not_lt.mpr above)
    · split
      · exact decide_eq_false (not_lt.mpr follows.1)
      · rename_i same
        exact absurd (follows.2 (not_not.mp same).symm) differ

/-- On a lawful log the audit finds something exactly when an epoch falls. -/
theorem Chained.quiet_iff {records : List MutationRecord} (chained : Chained records) :
    ((FabricAudit.audited records).report.violations = 0 ∧
      (FabricAudit.audited records).report.findingsTotal = 0) ↔ Handover records := by
  induction records using List.reverseRecOn with
  | nil =>
    refine ⟨fun _ done r rest split => ?_, fun _ => ⟨rfl, rfl⟩⟩
    cases done <;> cases split
  | append_singleton done r ih =>
    have before := chained.front (List.prefix_append done [r])
    have digest := (chained.intact r (by simp)).digest
    have sequence : r.storeSequence = FabricAudit.nextSequence done := by
      have numbers : done.map (·.storeSequence) =
          (List.range' 1 done.length).map UInt64.ofNat := by
        rw [← before.numbered, List.map_map]
        exact List.map_congr_left fun x _ => UInt64.ofNat_toNat.symm
      have number := chained.numbered
      rw [List.length_append, List.length_singleton, List.range'_concat, List.map_append,
        Nat.one_mul] at number
      have last := (List.cons.inj (List.append_inj_right' number rfl)).1
      rw [nextSequence_numbered done numbers, Nat.add_comm, ← last, UInt64.ofNat_toNat]
    have follows : ∀ e ∈ r.scope.extents, ∀ v, LastWriter.latest touches e done = some v →
        LastWriter.Follows (·.fenceToken) (·.incarnation) v r := by
      intro e inside v latest
      have hit : touches r e = true := by simpa [touches, Scope.containsExtent] using inside
      obtain ⟨member, touched⟩ := LastWriter.latest_mem latest
      exact (List.pairwise_append.mp chained.lawful).2.2 v member r (by simp) e touched hit
    have accepts : FabricAudit.Accepts done r ↔ ∀ e ∈ r.scope.extents, ∀ v,
        LastWriter.latest touches e done = some v → v.incarnation ≠ r.incarnation →
          v.epoch ≤ r.epoch :=
      ⟨fun accepted e inside v latest =>
          (succeeds_iff (follows e inside v latest)).mp (accepted.prior e inside v latest),
        fun epochs => ⟨sequence, fun e inside v latest =>
          (succeeds_iff (follows e inside v latest)).mpr (epochs e inside v latest)⟩⟩
    rw [FabricAudit.quiet_append, FabricAudit.silent_append, handover_append, ← ih before, accepts]
    constructor
    · rintro ⟨⟨quiet, epochs⟩, silent, -, -⟩
      exact ⟨⟨quiet, silent⟩, epochs⟩
    · rintro ⟨⟨quiet, silent⟩, epochs⟩
      exact ⟨⟨quiet, epochs⟩, silent, epochs, digest⟩

namespace Work

theorem emit_setup {kind : RecordKind} {payload : Bytes} {status : Status} {now : Step}
    {w w' : Work} {r : Except Status PUnit} (ran : (emit kind payload status now).exec w = (r, w')) :
    RegistryState.Setup w.state w'.state := by
  rcases emit_cases ran with ⟨s, rfl, rfl, applied⟩ | ⟨st, s, rfl, rfl, applied⟩
  · exact { RegistryState.apply_setup applied with }
  · exact { RegistryState.apply_setup applied with }

/-- No record touches the effect store. -/
theorem frame_fabric (now : Step) (kinds : List RecordKind) (fabric : FabricStore) :
    Frame now kinds (·.state.fabric = fabric) :=
  ⟨fun _ _ _ _ => .of_run fun _ _ _ before ran => (emit_setup ran).fabric.trans before,
    fun _ _ _ _ same => same⟩

def effectCall (request : CommitRequest) (now : Step) : MutationCall :=
  ⟨request.domain, request.fenceToken, request.scope, request.epoch, request.incarnation,
    request.grant, request.operation, request.payloadDigest, now⟩

/-- A commit makes one call at the effect boundary or none. -/
theorem commit_fabric {request : CommitRequest} {now : Step} {io : AppendIo} {w w' : Work}
    {r : Except CommitResponse CommitResponse} (ran : (commit request now io).exec w = (r, w')) :
    (w'.state.fabric = w.state.fabric ∧ r.isOk = false) ∨ ∃ result,
      ((effectCall request now).admitMutation io).exec w.state.fabric =
        (result, w'.state.fabric) ∧ (r.isOk = true → result.isOk = true) := by
  cases commit_mutates ran with
  | refused refusal fails => exact .inl ⟨rfl, rfl⟩
  | barred names worded holds admitted => exact .inr ⟨_, admitted, id⟩
  | written names worded holds admitted emitted =>
    rename_i g record fabric result
    have same : w'.state.fabric = fabric := (emit_setup emitted).fabric
    refine .inr ⟨.ok record, ?_, fun _ => rfl⟩
    rw [same]
    exact admitted

end Work

namespace RegistryState

/-- Loading a registry leaves the effect store it was given alone. -/
theorem reload_fabric {config : RegistryConfig} {clock : Step} {boot : BootRecord}
    {base : Option Checkpoint} {log : List JournalRecord} {fabric : FabricStore} :
    (reload config clock boot base log).Keeps (·.fabric = fabric) := by
  have applied : ∀ record, (apply record).Keeps (·.fabric = fabric) := fun _ =>
    .of_run fun _ _ _ before ran => (apply_setup ran).fabric.trans before
  have replayed : ∀ covers, (replay covers log).Keeps (·.fabric = fabric) := fun _ =>
    .forM (fun record => .ite (.pure _) (applied record)) _
  have rebuilt : rebuild.Keeps (·.fabric = fabric) := by
    refine .get fun _ _ => .bind .ofExcept fun _ => .bind .ofExcept fun _ => ?_
    exact .bind (.modify fun _ same => same) fun _ => .ofExcept
  have restored : ∀ blob, (deserialize blob).Keeps (·.fabric = fabric) := by
    intro blob
    refine .refuseIf fun _ => .refuseIf fun _ => .bind .ofExcept fun image => ?_
    refine .bind .ofExcept fun fences => .bind .ofExcept fun lineage => ?_
    refine .bind (.modify fun _ same => same) fun _ => .bind rebuilt fun _ => ?_
    exact .get fun _ _ => .check
  refine .bind ?_ fun _ => ?_
  · refine .refuseIf fun _ => .bind .ofExcept fun _ => .refuseIf fun _ => ?_
    exact .modify fun _ same => same
  · cases base with
    | none => exact replayed 0
    | some c =>
      refine .bind (restored c.blob) fun _ => .get fun _ _ => .refuseIf fun _ => ?_
      exact replayed c.covers

end RegistryState

/-- Only a commit writes to the effect store. -/
theorem Op.after_fabric {op : Op} {now : Step} {w : Work}
    (silent : ¬ ∃ request io, op = .commit request io) :
    (op.after now w).state.fabric = w.state.fabric :=
  Op.keeps (Work.frame_fabric now op.kinds w.state.fabric)
    (fun request io known => absurd ⟨request, io, known⟩ silent) rfl

theorem Op.after_readable {op : Op} {now : Step} {w : Work}
    (clean : ∀ request io, op = .commit request io → Clean w.state.fabric)
    (readable : Readable w.state.fabric.log) : Readable (op.after now w).state.fabric.log := by
  by_cases commits : ∃ request io, op = .commit request io
  · obtain ⟨request, io, rfl⟩ := commits
    rcases ran : (Work.commit request now io).exec w with ⟨r, w'⟩
    have after : (Op.commit request io).after now w = w' := congrArg Prod.snd ran
    rw [after]
    rcases Work.commit_fabric ran with ⟨same, -⟩ | ⟨result, called, -⟩
    · rwa [same]
    · exact admit_readable (clean request io rfl) called
  · rwa [Op.after_fabric commits]

namespace History

/-- The call writes only behind a log whose last write is not in doubt. -/
def WritesClean (h : History) (op : Op) : Prop :=
  ∀ request io, op = .commit request io → Clean h.live.fabric

/-- The effect store as the process leaves it, the call in flight included. -/
def leftFabric (h : History) (files : Restart) : FabricStore :=
  match files.inFlight with
  | none => h.live.fabric
  | some (op, now, _) => (op.after now h.work).state.fabric

/-- A registry opens its own effect log again, cut anywhere. -/
def Reopens (h : History) (files : Restart) : Prop :=
  ∃ header k options header' report, openStore header (some ((h.leftFabric files).log.take k))
    files.config.storeId options = .ok (files.fabric, header', report)

def Faithful (h : History) : Event → Prop
  | .call op _ => h.WritesClean op
  | .restart files => (∀ op now k, files.inFlight = some (op, now, k) → h.WritesClean op) ∧
      h.Reopens files
  | .checkpoint | .rebuild | .tick => True

/-- Runs of a registry on one effect log, from an empty directory on. -/
inductive EffectRun : History → Prop
  | start {config : RegistryConfig} {clock : Step} {boot : BootRecord} {fabric : FabricStore}
      {options : StoreOpenOptions} {header : Bytes} {report : StoreRecoveryReport} {h : History} :
      openStore none none config.storeId options = .ok (fabric, header, report) →
      start config clock boot fabric = some h → EffectRun h
  | step {h h' : History} {event : Event} : EffectRun h → h.Faithful event →
      h.step event = some h' → EffectRun h'

theorem start_fabric {config : RegistryConfig} {clock : Step} {boot : BootRecord}
    {fabric : FabricStore} {h : History} (begun : start config clock boot fabric = some h) :
    h.live.fabric = fabric := by
  obtain ⟨s, ran, rfl⟩ := start_ok begun
  rw [RegistryState.initialise_ok ran]

theorem EffectRun.readable {h : History} (run : EffectRun h) : Readable h.live.fabric.log := by
  induction run with
  | start opened begun =>
    rw [start_fabric begun]
    exact (clean_fresh opened).readable
  | @step h h' event _ faithful stepped ih =>
    cases step_cases stepped with
    | called op now =>
      have after : Readable (op.after now h.work).state.fabric.log := Op.after_readable faithful ih
      exact after
    | saved => exact ih
    | rebuilt s fills =>
      rcases fills with rfl | rfl
      · exact ih
      · exact ih
    | ticked room => exact ih
    | reloaded files s ran =>
      obtain ⟨clean, header, k, options, header', report, opened⟩ := faithful
      have left : Readable (h.leftFabric files).log := by
        unfold leftFabric
        cases flight : files.inFlight with
        | none => exact ih
        | some call =>
          obtain ⟨op, now, _⟩ := call
          exact Op.after_readable (w := h.work) (clean op now _ flight) ih
      have same : s.fabric = files.fabric := RegistryState.reload_fabric.run rfl ran
      have fresh := (clean_opened (left.cut k) opened).readable
      rw [← same] at fresh
      exact fresh

section Sample

/-- Calls only, and every commit acknowledged. -/
def settled (h : History) : Event → Bool
  | .call (.commit request io) now => ((Work.commit request now io).exec h.work).1.isOk
  | .restart _ => false
  | _ => true

theorem EffectRun.settled_step {h h' : History} {event : Event} (run : EffectRun h)
    (clean : Clean h.live.fabric) (checked : settled h event = true)
    (stepped : h.step event = some h') : EffectRun h' ∧ Clean h'.live.fabric := by
  have faithful : h.Faithful event := by
    cases event with
    | call op now => exact fun _ _ _ => clean
    | restart files => cases checked
    | checkpoint | rebuild | tick => trivial
  refine ⟨run.step faithful stepped, ?_⟩
  cases step_cases stepped with
  | called op now =>
    show Clean (op.after now h.work).state.fabric
    by_cases commits : ∃ request io, op = .commit request io
    · obtain ⟨request, io, rfl⟩ := commits
      rcases ran : (Work.commit request now io).exec h.work with ⟨r, w'⟩
      have done : r.isOk = true := by
        simp only [settled, ran] at checked
        exact checked
      have after : (Op.commit request io).after now h.work = w' := congrArg Prod.snd ran
      rw [after]
      rcases Work.commit_fabric ran with ⟨-, failed⟩ | ⟨result, called, ok⟩
      · rw [failed] at done
        cases done
      · cases result with
        | error st => cases ok done
        | ok r => exact admit_clean clean called
    · rw [Op.after_fabric commits]
      exact clean
  | reloaded files s ran => cases checked
  | saved => exact clean
  | rebuilt s fills =>
    rcases fills with rfl | rfl
    · exact clean
    · exact clean
  | ticked room => exact clean

theorem EffectRun.settled_run {h h' : History} {events : List Event} (run : EffectRun h)
    (clean : Clean h.live.fabric) (ran : h.guarded settled events = some h') : EffectRun h' := by
  induction events generalizing h with
  | nil =>
    cases ran
    exact run
  | cons event rest ih =>
    unfold guarded at ran
    rw [List.foldlM_cons] at ran
    obtain ⟨h₁, stepped, ran⟩ := Option.bind_eq_some_iff.mp ran
    split at stepped
    · rename_i checked
      obtain ⟨run₁, clean₁⟩ := run.settled_step clean checked stepped
      exact ih run₁ clean₁ ran
    · cases stepped

def sampleFabric : FabricStore := { opened := true, storeId := Id.make [115] }

def sampleEffects (events : List Event) : Option History :=
  (start sampleConfig 0 { node := Id.make [110] } sampleFabric).bind (guarded settled · events)

theorem sampleEffects_run {h : History} {events : List Event}
    (ran : sampleEffects events = some h) : EffectRun h := by
  obtain ⟨h₀, begun, ran⟩ := Option.bind_eq_some_iff.mp ran
  have opened : openStore none none sampleConfig.storeId {} =
      .ok (sampleFabric, sampleHeader, { created := true }) := rfl
  have clean : Clean h₀.live.fabric := by
    rw [start_fabric begun]
    exact clean_fresh opened
  exact (EffectRun.start opened begun).settled_run clean ran

def sampleCommit (name : UInt8) (epoch : Epoch) (incarnation : IncarnationId) (token : FenceToken)
    (grant : GrantId) : Op :=
  .commit {
    domain := Id.make [name]
    scope := sampleScope 120
    epoch := epoch
    incarnation := incarnation
    grant := grant
    fenceToken := token
    operation := [111] } .done

/-- Two domains on one extent: the second takes over at its first epoch what the first
wrote at its second. -/
def crossingEvents : List Event := [
  .call (.defineDomain (sampleDomain 100 120)) 1, .call (.defineDomain (sampleDomain 101 120)) 2,
  .call .allocateIncarnation 3, .call .allocateIncarnation 4,
  .call (.allocateEpoch (sampleAllocation 100 120 1 1)) 5,
  .call (.allocateEpoch (sampleAllocation 100 120 1 2)) 6, .call (sampleCommit 100 2 1 3 2) 7,
  .call (.allocateEpoch (sampleAllocation 101 120 2 3)) 8, .call (sampleCommit 101 1 2 5 3) 9]

/-- One domain that changes hands. -/
def handedEvents : List Event := [
  .call (.defineDomain (sampleDomain 100 120)) 1, .call .allocateIncarnation 2,
  .call .allocateIncarnation 3, .call (.allocateEpoch (sampleAllocation 100 120 1 1)) 4,
  .call (sampleCommit 100 1 1 1 1) 5, .call (.allocateEpoch (sampleAllocation 100 120 2 1)) 6,
  .call (sampleCommit 100 2 2 3 2) 7]

end Sample

/-- In every run the effect log reads back, and its audit is quiet exactly when no extent
changed hands to an epoch below that of its last writer. -/
theorem effect_audit_iff (h : History) (run : EffectRun h) :
    ∃ records, Boundary.recordsIn h.live.fabric.log = .ok records ∧
      (((auditFabricHistory records).mutuallyExclusiveEffectHistory = true ∧
        (auditFabricHistory records).findingsTotal = 0) ↔ Handover records) := by
  obtain ⟨records, read, chained⟩ := run.readable.recordsIn
  refine ⟨records, read, ?_⟩
  rw [exclusive_iff, ← chained.quiet_iff]
  rfl

theorem effect_audit_iff_handed : ∃ h, EffectRun h ∧ h.live.fabric.records.length = 2 ∧
    ∃ records, Boundary.recordsIn h.live.fabric.log = .ok records ∧
      (((auditFabricHistory records).mutuallyExclusiveEffectHistory = true ∧
        (auditFabricHistory records).findingsTotal = 0) ↔ Handover records) := by
  have counted : (sampleEffects handedEvents).map (·.live.fabric.records.length) = some 2 := by
    decide +kernel
  obtain ⟨h, ran, two⟩ := Option.map_eq_some_iff.mp counted
  have run := sampleEffects_run ran
  exact ⟨h, run, two, effect_audit_iff h run⟩

/-- A false alarm: epochs are counted per domain, and the auditor compares them across
domains. -/
theorem effect_audit_crossing : ¬ ∀ h, EffectRun h → ∀ records,
    Boundary.recordsIn h.live.fabric.log = .ok records →
      (auditFabricHistory records).mutuallyExclusiveEffectHistory = true ∧
        (auditFabricHistory records).findingsTotal = 0 := by
  intro quiet
  have evaluated : (sampleEffects crossingEvents).map (fun h =>
      (Boundary.recordsIn h.live.fabric.log).toOption.map fun records =>
        (auditFabricHistory records).mutuallyExclusiveEffectHistory) = some (some false) := by
    decide +kernel
  obtain ⟨h, ran, audited⟩ := Option.map_eq_some_iff.mp evaluated
  have run := sampleEffects_run ran
  cases read : Boundary.recordsIn h.live.fabric.log with
  | error st => rw [read] at audited; cases audited
  | ok records =>
    rw [read] at audited
    have alarmed : (auditFabricHistory records).mutuallyExclusiveEffectHistory = false :=
      Option.some.inj audited
    rw [(quiet h run records read).1] at alarmed
    cases alarmed

end History
end SplitBrainFabric
