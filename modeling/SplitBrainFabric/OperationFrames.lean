import SplitBrainFabric.History

/-! What an operation leaves alone. A property that its kinds of record and the counters
respect is kept by the whole operation, however it ends. -/

namespace SplitBrainFabric
open Words

namespace Op

/-- The kinds of record an operation emits. -/
def kinds : Op → List RecordKind
  | .defineDomain _ => [.domainDefine]
  | .definePolicy _ => [.policyDefine]
  | .allocateIncarnation => [.incarnationAllocate]
  | .allocateEpoch _ => [.fence, .grantClose, .extentAdopt, .grantOpen]
  | .decide _ _ => []
  | .commit _ _ => [.commitRecord]
  | .fence _ | .release _ => [.fence, .grantClose]
  | .recoverAfterRestart => [.bootEnd, .fence, .interruptMark, .grantClose, .bootBegin]

end Op

namespace Work

/-- What the registry writes under a kind. -/
inductive Written : RecordKind → Bytes → Prop
  | bootBegin (boot : BootRecord) : Written .bootBegin (encodeBootRecord boot)
  | bootEnd (boot : BootRecord) : Written .bootEnd (encodeBootRecord boot)
  | policyDefine (policy : ArbiterPolicy) : Written .policyDefine (encodePolicy policy)
  | domainDefine (d : DomainDefinition) : Written .domainDefine (encodeDomain d)
  | grantOpen (g : EpochGrant) : Written .grantOpen (encodeGrant g)
  | grantClose (g : EpochGrant) : Written .grantClose (encodeGrant g)
  | fence (record : FenceRecord) (scope : Scope) :
    Written .fence (encodeFencePayload record scope)
  | extentAdopt (record : FenceRecord) (scope : Scope) :
    Written .extentAdopt (encodeFencePayload record scope)
  | commitRecord (sequence : Sequence) (effect : Digest256) :
    Written .commitRecord (Writer.u64 sequence ++ Writer.digest effect)
  | incarnationAllocate (value : UInt64) : Written .incarnationAllocate (Writer.u64 value)
  | interruptMark (mark : InterruptMark) : Written .interruptMark (encodeInterrupt mark)

/-- Records of these kinds respect the property as the registry writes them, and so do the
counters no record moves. -/
structure Wording (now : Step) (kinds : List RecordKind) (P : Work → Prop) : Prop where
  emit : ∀ kind ∈ kinds, ∀ payload status, Written kind payload →
    (Work.emit kind payload status now).Keeps P
  counters : ∀ w hits restarts incarnations, P w → P (w.update fun s =>
    { s with
      idempotencyHits := hits, restartFences := restarts, incarnationCounter := incarnations })

/-- Records of these kinds respect the property, and so do the counters no record moves. -/
structure Frame (now : Step) (kinds : List RecordKind) (P : Work → Prop) : Prop where
  emit : ∀ kind ∈ kinds, ∀ payload status, (Work.emit kind payload status now).Keeps P
  counters : ∀ w hits restarts incarnations, P w → P (w.update fun s =>
    { s with
      idempotencyHits := hits, restartFences := restarts, incarnationCounter := incarnations })

variable {now : Step} {kinds : List RecordKind} {P : Work → Prop}

theorem Frame.wording (frame : Frame now kinds P) : Wording now kinds P :=
  ⟨fun kind emits payload status _ => frame.emit kind emits payload status, frame.counters⟩

theorem Wording.fenceScope (wording : Wording now kinds P) (emits : .fence ∈ kinds)
    (domain : DomainId) (scope : Scope) (epoch : Epoch) (incarnation : IncarnationId)
    (superseded : GrantId) (cause : Reason) (fenceIncarnation : Bool) :
    (fenceScope domain scope epoch incarnation superseded cause fenceIncarnation now).Keeps P :=
  .get fun _ _ => .refuseIf fun _ => .bind (wording.emit _ emits _ _ (.fence _ _)) fun _ => .pure _

theorem Wording.closeGrant (wording : Wording now kinds P) (emits : .grantClose ∈ kinds)
    (g : EpochGrant) (state : GrantState) (reason : Reason) :
    (closeGrant g state reason now).Keeps P :=
  .get fun _ _ => wording.emit _ emits _ _ (.grantClose _)

theorem Wording.defineDomain {d : DomainDefinition}
    (wording : Wording now (Op.defineDomain d).kinds P) : (defineDomain d now).Keeps P := by
  refine .refuseIf fun _ => .refuseIf fun _ => .get fun w _ => ?_
  cases w.state.domains.find d.domain with
  | some known => exact .ite (.pure _) (.throw _)
  | none => exact .refuseIf fun _ => wording.emit _ (by simp [Op.kinds]) _ _ (.domainDefine _)

theorem Wording.definePolicy {p : ArbiterPolicy}
    (wording : Wording now (Op.definePolicy p).kinds P) : (definePolicy p now).Keeps P :=
  .bind (.of_run fun _ _ _ holds ran => by cases ran; exact holds) fun _ =>
    .get fun _ _ => wording.emit _ (by simp [Op.kinds]) _ _ (.policyDefine _)

theorem Wording.allocateIncarnation (wording : Wording now Op.allocateIncarnation.kinds P) :
    (allocateIncarnation now).Keeps P :=
  .get fun _ _ => .refuseIf fun _ =>
    .bind (wording.emit _ (by simp [Op.kinds]) _ _ (.incarnationAllocate _)) fun _ => .pure _

theorem checkScope_keeps {ρ : Type} (answer : Status → ρ) (w : Work) (domain : DomainId)
    (scope : Scope) : (checkScope answer w domain scope).Keeps P := by
  unfold checkScope
  cases w.state.domains.find domain with
  | none => exact .throw _
  | some known => exact .check

theorem Wording.allocateEpoch {request : AllocateEpochRequest}
    (wording : Wording now (Op.allocateEpoch request).kinds P) :
    (allocateEpoch request now).Keeps P := by
  have admitted : ∀ w : Work, (w.admitAllocation request).Keeps P := by
    intro w
    refine .refuseIf fun _ => .refuseIf fun _ => .refuseIf fun _ => .bind ?_ fun _ => ?_
    · exact checkScope_keeps _ w _ _
    · exact .refuseIf fun _ => .check
  have superseded : ∀ g, (supersede request now g).Keeps P := fun g =>
    .ite (.bind (wording.fenceScope (by simp [Op.kinds]) _ _ _ _ _ _ _) fun _ =>
      wording.closeGrant (by simp [Op.kinds]) _ _ _) (.pure _)
  have fresh : (openFresh request now).Keeps P := by
    refine .get fun w _ => .refuseIf fun _ => .refuseIf fun _ => ?_
    refine .bind (wording.emit _ (by simp [Op.kinds]) _ _ (.extentAdopt _ _)) fun _ => ?_
    exact .bind (wording.emit _ (by simp [Op.kinds]) _ _ (.grantOpen _)) fun _ => .pure _
  refine .get fun w _ => .bind (admitted w) fun _ => ?_
  cases w.repeatedAttempt request with
  | some g =>
    exact .bind (.modify fun v holds => wording.counters v _ _ _ holds) fun _ => .pure _
  | none =>
    refine .bind (.mapError (.forM superseded _)) fun _ => .bind (.mapError fresh) fun g => ?_
    exact .get fun _ _ => .pure _

theorem Wording.fence {request : FenceRequest} (wording : Wording now (Op.fence request).kinds P) :
    (fence request now).Keeps P := by
  have each : ∀ highest g, (fenceGrant request now highest g).Keeps P := fun highest g =>
    .bind (.mapError (wording.fenceScope (by simp [Op.kinds]) _ _ _ _ _ _ _)) fun _ =>
      .bind (.mapError (wording.closeGrant (by simp [Op.kinds]) _ _ _)) fun _ => .pure _
  refine .get fun w _ => .refuseIf fun _ => .bind (checkScope_keeps _ w _ _) fun _ => ?_
  cases w.state.lineage.openGrants.filter (fencedBy request) with
  | nil =>
    refine .bind (.mapError (wording.fenceScope (by simp [Op.kinds]) _ _ _ _ _ _ _)) fun _ => ?_
    exact .get fun _ _ => .pure _
  | cons g rest => exact .bind (.foldlM each _ _) fun _ => .get fun _ _ => .pure _

theorem Wording.release {request : ReleaseRequest}
    (wording : Wording now (Op.release request).kinds P) : (release request now).Keeps P := by
  refine .get fun w _ => ?_
  cases w.state.lineage.find request.grant with
  | none => exact .throw _
  | some g =>
    refine .refuseIf fun _ => ?_
    refine .bind (.mapError (wording.fenceScope (by simp [Op.kinds]) _ _ _ _ _ _ _)) fun _ => ?_
    exact .bind (.mapError (wording.closeGrant (by simp [Op.kinds]) _ _ _)) fun _ => .pure _

theorem Wording.recoverAfterRestart (wording : Wording now Op.recoverAfterRestart.kinds P) :
    (recoverAfterRestart now).Keeps P := by
  have ended : ∀ record, (endBootRecord now record).Keeps P := fun _ =>
    .ite (wording.emit _ (by simp [Op.kinds]) _ _ (.bootEnd _)) (.pure _)
  have interrupted : ∀ g, (interruptGrant now g).Keeps P := by
    intro g
    refine .bind (wording.fenceScope (by simp [Op.kinds]) _ _ _ _ _ _ _) fun _ => ?_
    refine .bind (wording.emit _ (by simp [Op.kinds]) _ _ (.interruptMark _)) fun _ => ?_
    refine .bind (wording.closeGrant (by simp [Op.kinds]) _ _ _) fun _ => ?_
    exact .modify fun w holds => wording.counters w _ _ _ holds
  have begun : (openBoot now).Keeps P := by
    refine .get fun _ _ => .refuseIf fun _ => ?_
    refine .bind (.modify fun w holds => wording.counters w _ _ _ holds) fun _ => ?_
    exact .get fun _ _ => wording.emit _ (by simp [Op.kinds]) _ _ (.bootBegin _)
  refine .get fun _ _ => .bind (.forM ended _) fun _ => ?_
  exact .get fun _ _ => .bind (.forM interrupted _) fun _ => begun

/-- A commit is its check at the effect boundary and one record. -/
theorem Wording.commit {request : CommitRequest} {io : AppendIo}
    (wording : Wording now (Op.commit request io).kinds P)
    (effect : (onFabric (FabricStore.admitMutation request.domain request.fenceToken request.scope
      request.epoch request.incarnation request.grant request.operation request.payloadDigest now
      io)).Keeps P) : (commit request now io).Keeps P := by
  refine .get fun w _ => .refuseIf fun _ => .refuseIf fun _ => .bind (checkScope_keeps _ w _ _)
    fun _ => ?_
  cases w.state.lineage.find request.grant with
  | none => exact .throw _
  | some g =>
    refine .refuseIf fun _ => .refuseIf fun _ => .refuseIf fun _ => .bind (.mapError effect)
      fun _ => ?_
    exact .bind (.mapError (wording.emit _ (by simp [Op.kinds]) _ _ (.commitRecord _ _)))
      fun _ => .pure _

theorem onFabric_keeps {α : Type} {m : Prog Status FabricStore α}
    (keeps : ∀ w fabric, P w → P (w.update fun s => { s with fabric := fabric })) :
    (onFabric m).Keeps P := .of_run fun w r w' before ran => by
  rw [onFabric, Prog.exec_zoom] at ran
  cases ran
  exact keeps _ _ before

end Work

/-- The operation keeps whatever its records as it writes them, the counters and its effect
respect. -/
theorem Op.keeps_worded {now : Step} {P : Work → Prop} {op : Op}
    (wording : Work.Wording now op.kinds P)
    (effect : ∀ request io, op = .commit request io →
      (Work.onFabric (FabricStore.admitMutation request.domain request.fenceToken request.scope
        request.epoch request.incarnation request.grant request.operation request.payloadDigest now
        io)).Keeps P) {w : Work} (holds : P w) : P (op.after now w) := by
  cases op with
  | defineDomain d => exact wording.defineDomain.run holds rfl
  | definePolicy p => exact wording.definePolicy.run holds rfl
  | allocateIncarnation => exact wording.allocateIncarnation.run holds rfl
  | allocateEpoch request => exact wording.allocateEpoch.run holds rfl
  | decide request sorting =>
    have same : after now w (.decide request sorting) = w := Work.decide_spec (Prod.eta _).symm
    rwa [same]
  | commit request io => exact (wording.commit (effect request io rfl)).run holds rfl
  | fence request => exact wording.fence.run holds rfl
  | release request => exact wording.release.run holds rfl
  | recoverAfterRestart => exact wording.recoverAfterRestart.run holds rfl

/-- The operation keeps whatever its records, the counters and its effect respect. -/
theorem Op.keeps {now : Step} {P : Work → Prop} {op : Op} (frame : Work.Frame now op.kinds P)
    (effect : ∀ request io, op = .commit request io →
      (Work.onFabric (FabricStore.admitMutation request.domain request.fenceToken request.scope
        request.epoch request.incarnation request.grant request.operation request.payloadDigest now
        io)).Keeps P) {w : Work} (holds : P w) : P (op.after now w) :=
  Op.keeps_worded frame.wording effect holds

end SplitBrainFabric
