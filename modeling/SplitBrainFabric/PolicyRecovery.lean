import SplitBrainFabric.Replay
import SplitBrainFabric.Restart
import SplitBrainFabric.OperationFrames

/-! The policy in force after a restart. Only a definition is journalled; the policy a
registry was configured with comes back from a snapshot or from the new configuration. -/

namespace SplitBrainFabric
open Words

def Entry.defines : Entry → Option ArbiterPolicy
  | .policyDefine policy => some policy
  | _ => none

/-- The policy a record puts in force. -/
def JournalRecord.defines (r : JournalRecord) : Option ArbiterPolicy :=
  match r.entry with
  | .ok entry => entry.defines
  | .error _ => none

/-- The policy the last definition of a log puts in force. -/
def policyIn (log : List JournalRecord) : Option ArbiterPolicy :=
  (log.filterMap (·.defines)).getLast?

@[simp] theorem policyIn_nil : policyIn [] = none := rfl

theorem policyIn_append (log more : List JournalRecord) :
    policyIn (log ++ more) = (policyIn more).or (policyIn log) := by
  rw [policyIn, List.filterMap_append, List.getLast?_append]
  rfl

theorem policyIn_single (r : JournalRecord) : policyIn [r] = r.defines := by
  unfold policyIn
  cases defined : r.defines with
  | none => simp [defined]
  | some policy => simp [defined]

namespace RegistryState

variable {s s' : RegistryState} {r : Except Status PUnit} {record : JournalRecord}

theorem enact_policy {entry : Entry} (ran : (enact entry).exec s = (r, s')) :
    s'.policy = entry.defines.getD s.policy := by
  cases enact_touched ran <;> rfl

/-- A record that is refused leaves the policy alone. -/
theorem apply_policy (ran : (apply record).exec s = (r, s')) :
    s'.policy = match r with
      | .ok _ => record.defines.getD s.policy
      | .error _ => s.policy := by
  rcases apply_cases ran with ⟨rfl, ⟨st, rfl⟩, -⟩ | ⟨-, -, ⟨st, read, rfl, rfl⟩ | ⟨entry, read, enacted⟩⟩
  · rfl
  · rfl
  · have policy := enact_policy enacted
    cases r with
    | ok u =>
      simp only [JournalRecord.defines, read]
      exact policy
    | error st =>
      cases entry with
      | policyDefine p => cases enacted
      | _ => exact policy

theorem forM_policy {rest : List JournalRecord} (ran : (rest.forM apply).exec s = (.ok ⟨⟩, s')) :
    s'.policy = (policyIn rest).getD s.policy := by
  induction rest generalizing s with
  | nil => cases ran; rfl
  | cons record rest ih =>
    rw [Prog.forM_cons] at ran
    obtain ⟨_, s₁, first, ran⟩ := Prog.bind_ok ran
    have before := apply_policy first
    rw [ih ran, before, ← List.singleton_append, policyIn_append, policyIn_single]
    cases policyIn rest with
    | none => rfl
    | some policy => rfl

end RegistryState

namespace Work

open RegistryState (apply bumpIncarnation bumpGeneration)

/-- The policy is the last one the records of this transition define. -/
def Policed (policy : ArbiterPolicy) (w : Work) : Prop :=
  w.state.policy = (policyIn w.emitted).getD policy

theorem Policed.kept {policy : ArbiterPolicy} {w : Work} {record : JournalRecord}
    {t s' : RegistryState} (policed : Policed policy w) (same : t.policy = w.state.policy)
    (ran : (apply record).exec t = (.ok ⟨⟩, s')) : Policed policy (w.kept record s') := by
  have after := RegistryState.apply_policy ran
  simp only [Policed, Work.kept, policyIn_append, policyIn_single] at policed ⊢
  rw [after, same, policed]
  cases record.defines with
  | none => rfl
  | some p => rfl

theorem Policed.lost {policy : ArbiterPolicy} {w : Work} {record : JournalRecord} {st : Status}
    {t s' : RegistryState} (policed : Policed policy w) (same : t.policy = w.state.policy)
    (ran : (apply record).exec t = (.error st, s')) : Policed policy (w.lost record s') := by
  have after := RegistryState.apply_policy ran
  exact (after.trans same).trans policed

theorem Policed.move {policy : ArbiterPolicy} {w w' : Work} (policed : Policed policy w)
    (move : Move w w') : Policed policy w' := by
  cases move with
  | aside hits restarts fabric => exact policed
  | kept next sane ran => exact policed.kept rfl ran
  | lost next sane ran => exact policed.lost rfl ran
  | booted below next boots ran => exact policed.kept (t := bumpIncarnation w.state) rfl ran
  | bootLost below next boots ran => exact policed.lost (t := bumpIncarnation w.state) rfl ran
  | opened adoption next read ran => exact (policed.kept rfl adoption.ran).kept rfl ran
  | openLost adoption next read ran => exact (policed.kept rfl adoption.ran).lost rfl ran

theorem Policed.reach {policy : ArbiterPolicy} {w w' : Work} (policed : Policed policy w)
    (reached : Reach w w') : Policed policy w' := by
  induction reached with
  | refl => exact policed
  | tail _ move ih => exact ih.move move

/-- Only a definition moves the policy. -/
theorem emit_policy {kind : RecordKind} {payload : Bytes} {status : Status} {now : Step}
    {w w' : Work} {r : Except Status PUnit} (other : kind ≠ .policyDefine)
    (ran : (emit kind payload status now).exec w = (r, w')) :
    w'.state.policy = w.state.policy := by
  have silent : (w.nextRecord kind payload status now).defines = none := by
    simp only [JournalRecord.defines, JournalRecord.entry, nextRecord]
    cases kind with
    | policyDefine => exact absurd rfl other
    | storeHeader | storeIdAssign | stepAdvance | commitRecord => rfl
    | bootBegin | bootEnd => cases Reader.decode decodeBootRecord payload <;> rfl
    | domainDefine => cases Reader.decode decodeDomain payload <;> rfl
    | grantOpen | grantClose => cases Reader.decode decodeGrant payload <;> rfl
    | fence | extentAdopt => cases Reader.decode decodeFencePayload payload <;> rfl
    | incarnationAllocate => cases Reader.decode Reader.u64 payload <;> rfl
    | interruptMark => cases Reader.decode decodeInterrupt payload <;> rfl
  rcases emit_cases ran with ⟨s, rfl, rfl, applied⟩ | ⟨st, s, rfl, rfl, applied⟩
  · have after := RegistryState.apply_policy applied
    rw [silent] at after
    exact after
  · exact RegistryState.apply_policy applied

/-- A recovery defines nothing. -/
theorem recoverAfterRestart_policy {policy : ArbiterPolicy} {now : Step} :
    (recoverAfterRestart now).Keeps (·.state.policy = policy) := by
  have frame : Frame now Op.recoverAfterRestart.kinds (·.state.policy = policy) := by
    refine ⟨fun kind member payload status => .of_run fun w _ w' before ran => ?_,
      fun _ _ _ _ same => same⟩
    have other : kind ≠ .policyDefine := by
      rintro rfl
      simp [Op.kinds] at member
    exact (emit_policy other ran).trans before
  exact frame.wording.recoverAfterRestart

end Work

namespace RegistryState

/-- The policy a snapshot carries. -/
def snapshotPolicy (blob : Bytes) : ArbiterPolicy :=
  match Reader.decode readImage (blob.take (blob.length - 32)) with
  | .ok image => image.policy
  | .error _ => {}

theorem snapshotPolicy_of {blob : Bytes} {image : Image}
    (decoded : Reader.decode readImage (blob.take (blob.length - 32)) = .ok image) :
    snapshotPolicy blob = image.policy := by
  unfold snapshotPolicy
  rw [decoded]

theorem deserialize_policy {blob : Bytes} {t t' : RegistryState}
    (ran : (deserialize blob).exec t = (.ok ⟨⟩, t')) : t'.policy = snapshotPolicy blob := by
  obtain ⟨image, fences, lineage, decoded, rfl⟩ := deserialize_ok ran
  rw [snapshotPolicy_of decoded]
  rfl

/-- A snapshot of a registry carries its policy. -/
theorem deserialize_own {s t t' : RegistryState} (sized : s.Sized)
    (ran : (deserialize s.serialize).exec t = (.ok ⟨⟩, t')) : t'.policy = s.policy := by
  rcases deserialize_cases sized ran with ⟨-, st, failed⟩ | ⟨fences, lineage, -, -, ended⟩
  · cases failed
  · rcases ended with ⟨-, st, failed⟩ | rfl
    · cases failed
    · rfl

end RegistryState

/-- The policy a registry starts from, before the records behind the snapshot. -/
def inForce (config : RegistryConfig) : Option Checkpoint → ArbiterPolicy
  | none => config.policy
  | some c => RegistryState.snapshotPolicy c.blob

namespace History

/-- A snapshot of a state that had the policy its log defines. -/
def SavedPolicy (c : Checkpoint) (log : List JournalRecord) : Prop :=
  ∃ s before rest, c.blob = s.serialize ∧ log = before ++ rest ∧ c.covers = lastSequence before ∧
    Tracks s before ∧ ∀ policy, policyIn before = some policy → s.policy = policy

theorem SavedPolicy.append {c : Checkpoint} {log : List JournalRecord} (saved : SavedPolicy c log)
    (more : List JournalRecord) : SavedPolicy c (log ++ more) := by
  obtain ⟨s, before, rest, blob, rfl, covers, tracks⟩ := saved
  exact ⟨s, before, rest ++ more, blob, List.append_assoc _ _ _, covers, tracks⟩

theorem reload_policy {config : RegistryConfig} {clock : Step} {boot : BootRecord}
    {base : Option Checkpoint} {log : List JournalRecord} {fabric : FabricStore}
    {s : RegistryState} (ordered : log.Pairwise (·.sequence < ·.sequence))
    (numbered : ∀ r ∈ log, r.sequence ≠ 0) (saved : ∀ c, base = some c → SavedPolicy c log)
    (ran : (RegistryState.reload config clock boot base log).exec { fabric := fabric } =
      (.ok ⟨⟩, s)) : s.policy = (policyIn log).getD (inForce config base) := by
  obtain ⟨_, s₀, begun, ran⟩ := Prog.bind_ok ran
  cases base with
  | none =>
    have above : ∀ r ∈ log, (0 : Sequence) < r.sequence := fun r member =>
      UInt64.pos_iff_ne_zero.mpr (numbered r member)
    have skipped : (RegistryState.replay 0 ([] ++ log)).exec s₀ =
        (log.forM RegistryState.apply).exec s₀ := replay_parts (by simp) above s₀
    rw [List.nil_append] at skipped
    simp only [skipped] at ran
    rw [RegistryState.forM_policy ran, RegistryState.initialise_ok begun]
    rfl
  | some c =>
    obtain ⟨t, before, rest, blob, rfl, covers, tracks, policed⟩ := saved c rfl
    obtain ⟨_, s₁, restored, ran⟩ := Prog.bind_ok ran
    rw [Prog.exec_get_bind] at ran
    obtain ⟨-, ran⟩ := Prog.refuseIf_ok ran
    have rest_numbered : ∀ r ∈ rest, r.sequence ≠ 0 := fun r member =>
      numbered r (List.mem_append_right before member)
    rw [replay_parts (covers ▸ le_lastSequence tracks.ordered)
      (covers ▸ lastSequence_lt ordered rest_numbered) s₁] at ran
    have carried := RegistryState.deserialize_policy restored
    have replayed := RegistryState.forM_policy ran
    rw [replayed, carried, policyIn_append]
    cases policyIn rest with
    | some policy => rfl
    | none =>
      cases defined : policyIn before with
      | none => rfl
      | some policy =>
        -- The snapshot was taken behind this definition.
        rw [blob] at restored carried
        have own := RegistryState.deserialize_own tracks.sized restored
        rw [blob, ← carried, own]
        exact policed policy defined

/-- Whatever policy the log defines last is the one in force, now and in every snapshot. -/
structure Enforced (h : History) : Prop where
  live : ∀ policy, policyIn h.log = some policy → h.live.policy = policy
  saved : ∀ c ∈ h.checkpoints, SavedPolicy c h.log

theorem Enforced.step {h h' : History} {event : Event} (enforced : Enforced h)
    (kept : Kept (fun _ => True) h) (stepped : h.step event = some h') : Enforced h' := by
  cases step_cases stepped with
  | called op now =>
    refine ⟨fun policy defined => ?_, fun c member => (enforced.saved c member).append _⟩
    have reached := Op.reach (w := h.work) kept.tracks.sound now op
    have start : Work.Policed h.live.policy h.work := rfl
    have after := start.reach reached
    have last : policyIn (h.log ++ (op.after now h.work).emitted) = some policy := defined
    rw [policyIn_append] at last
    show (op.after now h.work).state.policy = policy
    rw [after]
    cases more : policyIn (op.after now h.work).emitted with
    | none =>
      rw [more] at last
      exact enforced.live policy last
    | some p =>
      rw [more] at last
      exact Option.some.inj last
  | saved =>
    refine ⟨enforced.live, fun c member => ?_⟩
    rcases List.mem_append.mp member with old | new
    · exact enforced.saved c old
    · rw [List.mem_singleton.mp new]
      exact ⟨h.live, h.log, [], rfl, (List.append_nil _).symm, rfl, kept.tracks, enforced.live⟩
  | rebuilt s fills =>
    refine ⟨fun policy defined => ?_, enforced.saved⟩
    rcases fills with rfl | rfl
    · exact enforced.live policy defined
    · exact enforced.live policy defined
  | ticked room => exact ⟨enforced.live, enforced.saved⟩
  | reloaded files s ran =>
    obtain ⟨v, reached, log, -⟩ := survived_reach kept.tracks.sound files
    have tracks := kept.emits reached
    rw [← log] at tracks
    have saved : ∀ c ∈ h.checkpoints, SavedPolicy c (h.survived files) := fun c member =>
      log ▸ (enforced.saved c member).append _
    refine ⟨fun policy defined => ?_, saved⟩
    have policed := reload_policy tracks.ordered tracks.numbered (fun c found => ?_) ran
    · simp only at defined
      rw [policed, defined]
      rfl
    · obtain ⟨i, -, here⟩ := Option.bind_eq_some_iff.mp found
      exact saved c (List.mem_of_getElem? here)

theorem Reachable.enforced {allowed : History → Event → Prop} {h : History}
    (reached : Reachable allowed h) : Kept (fun _ => True) h ∧ Enforced h := by
  refine reached.invariant (P := fun h => Kept (fun _ => True) h ∧ Enforced h) ?_ ?_
  · intro config clock boot fabric h begun
    have kept : Kept (fun _ => True) h := kept_start trivial begun
    refine ⟨kept, ?_⟩
    obtain ⟨s, -, rfl⟩ := start_ok begun
    exact ⟨fun policy defined => (by cases defined), fun c member => (by cases member)⟩
  · rintro h event h' ⟨kept, enforced⟩ _ stepped
    exact ⟨kept.step (fun _ _ _ _ _ _ => trivial) stepped, enforced.step kept stepped⟩

/-- The policy that the files start from, before the records behind the snapshot. -/
def startingPolicy (h : History) (files : Restart) (point : Option Nat) : ArbiterPolicy :=
  inForce files.config (point.bind (h.checkpoints[·]?))

theorem reopened_policy {h : History} {files : Restart} {point : Option Nat} {w : Work}
    (reached : Reachable (fun _ _ => True) h) (opened : h.reopened files point = (.ok ⟨⟩, w)) :
    w.state.policy = (policyIn (h.survived files)).getD (h.startingPolicy files point) := by
  obtain ⟨kept, enforced⟩ := reached.enforced
  obtain ⟨v, moves, log, -⟩ := survived_reach kept.tracks.sound files
  have tracks := kept.emits moves
  rw [← log] at tracks
  obtain ⟨s, loaded, -, -, recovered⟩ := RegistryService.openState_ok opened
  have steady : w.state.policy = s.policy := Work.recoverAfterRestart_policy.run rfl recovered
  refine steady.trans (reload_policy tracks.ordered tracks.numbered (fun c found => ?_) loaded)
  obtain ⟨i, -, here⟩ := Option.bind_eq_some_iff.mp found
  exact log ▸ (enforced.saved c (List.mem_of_getElem? here)).append _

/-- Two openings of the same files, which differ in the snapshot that was taken, agree on
the policy exactly when the journal has a definition or both start from the same policy. -/
theorem policy_of_checkpoint_iff (h : History) (reached : Reachable (fun _ _ => True) h)
    (files : Restart) (point point' : Option Nat) (w w' : Work)
    (opened : h.reopened files point = (.ok ⟨⟩, w))
    (opened' : h.reopened files point' = (.ok ⟨⟩, w')) :
    w.state.policy = w'.state.policy ↔ (policyIn (h.survived files)).isSome = true ∨
      h.startingPolicy files point = h.startingPolicy files point' := by
  rw [reopened_policy reached opened, reopened_policy reached opened']
  cases policyIn (h.survived files) with
  | none => simp
  | some policy => simp

/-- A checkpoint of a registry whose policy came from its configuration. -/
def configuredEvents : List Event := [.call (.defineDomain (sampleDomain 100 120)) 1, .checkpoint]

/-- Another valid policy at the next open. -/
def reconfigured : Restart where
  config := { sampleConfig with policy := { sampleConfig.policy with policy := Id.make [113] } }

/-- A definition behind the checkpoint makes both openings agree, though they start from
different policies. -/
theorem policy_of_checkpoint_iff_defined : ∃ h w w', Reachable (fun _ _ => True) h ∧
    h.reopened reconfigured none = (.ok ⟨⟩, w) ∧ h.reopened reconfigured (some 0) = (.ok ⟨⟩, w') ∧
    h.startingPolicy reconfigured none ≠ h.startingPolicy reconfigured (some 0) ∧
    w.state.policy = w'.state.policy := by
  have evaluated : (sampleStart.bind (guarded (fun _ _ => true) · (configuredEvents ++
      [.call (.definePolicy sampleConfig.policy) 2]))).map (fun h =>
      ((h.reopened reconfigured none).1, (h.reopened reconfigured (some 0)).1,
        (policyIn (h.survived reconfigured)).isSome,
        (h.startingPolicy reconfigured none).policy,
        (h.startingPolicy reconfigured (some 0)).policy)) =
      some (.ok ⟨⟩, .ok ⟨⟩, true, Id.make [113], Id.make [112]) := by
    decide +kernel
  obtain ⟨h, ran, results⟩ := Option.map_eq_some_iff.mp evaluated
  have reached := sample_reachable ran
  rcases first : h.reopened reconfigured none with ⟨r, w⟩
  rcases second : h.reopened reconfigured (some 0) with ⟨r', w'⟩
  rw [first, second] at results
  simp only [Prod.mk.injEq] at results
  obtain ⟨rfl, rfl, defined, new, old⟩ := results
  refine ⟨h, w, w', reached, first, second, fun same => ?_, ?_⟩
  · rw [same, old] at new
    revert new
    decide
  · exact (policy_of_checkpoint_iff h reached reconfigured none (some 0) w w' first second).mpr
      (.inl defined)

/-- With the snapshot the old policy is in force, without it the new one. -/
theorem policy_depends_on_checkpoint : ¬ ∀ h, Reachable (fun _ _ => True) h →
    ∀ files point point' w w', h.reopened files point = (.ok ⟨⟩, w) →
      h.reopened files point' = (.ok ⟨⟩, w') → w.state.policy = w'.state.policy := by
  intro same
  have evaluated : (sampleStart.bind (guarded (fun _ _ => true) · configuredEvents)).map (fun h =>
      ((h.reopened reconfigured none).1, (h.reopened reconfigured (some 0)).1,
        (h.reopened reconfigured none).2.state.policy.policy,
        (h.reopened reconfigured (some 0)).2.state.policy.policy)) =
      some (.ok ⟨⟩, .ok ⟨⟩, Id.make [113], Id.make [112]) := by
    decide +kernel
  obtain ⟨h, ran, results⟩ := Option.map_eq_some_iff.mp evaluated
  have reached := sample_reachable ran
  rcases first : h.reopened reconfigured none with ⟨r, w⟩
  rcases second : h.reopened reconfigured (some 0) with ⟨r', w'⟩
  rw [first, second] at results
  simp only [Prod.mk.injEq] at results
  obtain ⟨rfl, rfl, new, old⟩ := results
  have agree := same h reached reconfigured none (some 0) w w' first second
  rw [agree, old] at new
  revert new
  decide

end History
end SplitBrainFabric
