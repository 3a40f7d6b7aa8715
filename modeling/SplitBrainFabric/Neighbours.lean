import SplitBrainFabric.Standing
import SplitBrainFabric.AuditRuns

/-! Domains that share no extent do not meet. All of them use one fence table, one lineage
and one list of competing claims, yet a call for one changes nothing that another's holder
is judged by. -/

namespace SplitBrainFabric
open Words Decoder

/-- Of another domain, and clear of the grant's extents. -/
structure EpochGrant.Elsewhere (g : EpochGrant) (domain : DomainId) (scope : Scope) : Prop where
  domain : domain ≠ g.domain
  extents : ∀ e ∈ g.extents.extents, e ∉ scope.extents

/-- What the holder of a grant is judged by is the same in both states. -/
structure RegistryState.Spared (g : EpochGrant) (s t : RegistryState) : Prop where
  grant : g ∈ t.lineage.grants
  marks : ∀ e ∈ g.extents.extents, t.fences.find e = s.fences.find e
  owners : ∀ e ∈ g.extents.extents, t.fabric.ownerOf e = s.fabric.ownerOf e
  incarnation : t.fences.incarnationFenced g.incarnation =
    s.fences.incarnationFenced g.incarnation
  epoch : t.fences.epochFenced g.domain g.epoch = s.fences.epochFenced g.domain g.epoch
  domain : t.domains.find g.domain = s.domains.find g.domain
  policy : t.policy = s.policy
  config : t.config = s.config

/-- Entries that are none of the grant's business. -/
def Entry.Avoids (g : EpochGrant) : Entry → Prop
  | .policyDefine _ => False
  | .domainDefine d => d.domain ≠ g.domain
  | .grantClose o => o.id ≠ g.id
  | .fence r scope => r.domain ≠ g.domain ∧ (∀ e ∈ g.extents.extents, e ∉ scope.extents) ∧
      (r.fencedIncarnation ≠ 0 → r.fencedIncarnation ≠ g.incarnation)
  | .extentAdopt _ scope => ∀ e ∈ g.extents.extents, e ∉ scope.extents
  | _ => True

namespace FenceTable

variable {t t' : FenceTable} {record : FenceRecord} {scope : Scope}

theorem noteIncarnation_other {i : IncarnationId}
    (other : record.fencedIncarnation ≠ 0 → record.fencedIncarnation ≠ i) :
    (noteIncarnation record t).incarnationFenced i = t.incarnationFenced i := by
  unfold noteIncarnation
  split_ifs with unset known room
  · rfl
  · rfl
  · unfold incarnationFenced
    rw [SortedTable.find_put, id, if_neg (other unset)]
  · rfl

@[simp] theorem noteIncarnation_fencedEpochs :
    (noteIncarnation record t).fencedEpochs = t.fencedEpochs := by
  unfold noteIncarnation
  split_ifs <;> rfl

@[simp] theorem dropOldest_fencedEpochs : t.dropOldest.fencedEpochs = t.fencedEpochs := by
  unfold dropOldest
  split <;> rfl

theorem noteEpoch_other {d : DomainId} {e : Epoch} (other : record.domain ≠ d) :
    (noteEpoch record t).epochFenced d e = t.epochFenced d e := by
  unfold noteEpoch
  split_ifs with unset known room
  · rfl
  · rfl
  · have apart : toLex (record.domain, record.fencedEpoch) ≠ toLex (d, e) := fun same =>
      other (congrArg Prod.fst (toLex.injective same))
    unfold epochFenced
    rw [SortedTable.find_put]
    simp only [apart, if_false]
  · rfl

theorem applied_incarnationFenced {i : IncarnationId}
    (other : record.fencedIncarnation ≠ 0 → record.fencedIncarnation ≠ i) :
    (applied t record scope).incarnationFenced i = t.incarnationFenced i := by
  have kept := noteIncarnation_other (t := t) other
  unfold incarnationFenced at kept ⊢
  rwa [applied_fencedIncarnations]

theorem applied_epochFenced {d : DomainId} {e : Epoch} (other : record.domain ≠ d) :
    (applied t record scope).epochFenced d e = t.epochFenced d e := by
  have noted : (applied t record scope).epochFenced d e = (noteEpoch record (noteIncarnation record
      { t.dropOldest with extents := raiseAll record scope.extents t.extents })).epochFenced d e :=
    rfl
  rw [noted, noteEpoch_other other]
  simp only [epochFenced, noteIncarnation_fencedEpochs, dropOldest_fencedEpochs]

theorem apply_error_epochs {st : Status} (ran : (apply record scope).exec t = (.error st, t')) :
    t'.fencedEpochs = t.fencedEpochs := by
  simp only [apply, Prog.exec_refuseIf, Prog.exec_modify_bind, Prog.exec_get_bind] at ran
  split at ran
  · cases ran; rfl
  split at ran
  · cases ran; rfl
  split at ran
  · cases ran; exact dropOldest_fencedEpochs
  obtain ⟨_, _, _, _, marks, _⟩ := raise_forM record scope.extents t.dropOldest
  rw [Prog.exec_bind] at ran
  rcases looped : (scope.extents.forM (raise record)).exec t.dropOldest with ⟨r, s⟩
  rw [looped] at ran marks
  cases r with
  | ok _ => cases ran
  | error e =>
    cases ran
    simp only at marks
    subst marks
    exact dropOldest_fencedEpochs

end FenceTable

namespace RegistryState

variable {g : EpochGrant} {s t t' : RegistryState} {entry : Entry}

theorem Spared.refl (member : g ∈ s.lineage.grants) : Spared g s s :=
  ⟨member, fun _ _ => rfl, fun _ _ => rfl, rfl, rfl, rfl, rfl, rfl⟩

theorem Spared.trans (first : Spared g s t) (second : Spared g t t') : Spared g s t' where
  grant := second.grant
  marks e inside := (second.marks e inside).trans (first.marks e inside)
  owners e inside := (second.owners e inside).trans (first.owners e inside)
  incarnation := second.incarnation.trans first.incarnation
  epoch := second.epoch.trans first.epoch
  domain := second.domain.trans first.domain
  policy := second.policy.trans first.policy
  config := second.config.trans first.config

/-- The open grant stays in the table, whatever other grants do. -/
theorem grants_spared {r : Except Status PUnit} (active : g.isOpen = true)
    (sound : s.lineage.Sound) (member : g ∈ s.lineage.grants) (avoids : entry.Avoids g)
    (ran : (enact entry).exec s = (r, t)) : g ∈ t.lineage.grants := by
  have kept := enact_grants sound ran
  cases r with
  | error st => rwa [kept.2 ⟨st, rfl⟩]
  | ok u =>
    rw [kept.1 rfl]
    cases entry with
    | grantOpen o => exact List.mem_append_left _ (LineageTable.mem_roomFor_open member active)
    | grantClose o =>
      rcases Entry.grants_close s.lineage.grants o with same | ⟨-, same⟩
      · rwa [same]
      · rw [same]
        have other : ¬ g.id = o.id := fun same => avoids same.symm
        exact mem_updateFirst_of_not member (by simpa using other)
    | silent | bootBegin _ | bootEnd _ | policyDefine _ | domainDefine _ | fence _ _
    | extentAdopt _ _ | commitRecord | incarnationAllocate _ | interruptMark _ => exact member

/-- An entry about something else changes nothing the holder is judged by. -/
theorem enact_spared {r : Except Status PUnit} (active : g.isOpen = true)
    (sound : s.lineage.Sound) (member : g ∈ s.lineage.grants) (avoids : entry.Avoids g)
    (ran : (enact entry).exec s = (r, t)) : Spared g s t := by
  have stays := grants_spared active sound member avoids ran
  have start := Spared.refl member
  cases entry with
  | policyDefine _ => exact absurd avoids id
  | silent | commitRecord | interruptMark _ => cases ran; exact { start with }
  | bootBegin boot =>
    rw [enact_bootBegin ran] at stays ⊢
    exact { start with grant := stays }
  | bootEnd boot =>
    rw [enact_bootEnd ran] at stays ⊢
    exact { start with grant := stays }
  | domainDefine d =>
    rcases enact_domainDefine ran with rfl | ⟨-, -, rfl⟩
    · exact start
    · have other : (s.domains.put d).find g.domain = s.domains.find g.domain := by
        rw [SortedTable.find_put, if_neg avoids]
      exact { start with domain := other }
  | grantOpen o =>
    rw [enact, Prog.exec_modify_bind, onLineage_exec] at ran
    cases ran
    exact { start with grant := stays }
  | grantClose o =>
    rcases enact_grantClose ran with ⟨-, -, -, rfl⟩ | ⟨rfl, -⟩
    · exact { start with grant := stays }
    · exact start
  | fence record scope =>
    obtain ⟨domain, apart, incarnation⟩ := avoids
    rcases enact_fence ran with ⟨-, -, rfl⟩ | ⟨st, fences, -, failed, rfl⟩
    · exact { start with
        marks := fun e inside => by
          simp only [FenceTable.applied_find, if_neg (apart e inside)]
        incarnation := FenceTable.applied_incarnationFenced incarnation
        epoch := FenceTable.applied_epochFenced domain }
    · obtain ⟨done, rest, parts, -, marks, noted, -⟩ := FenceTable.apply_error failed
      have epochs := FenceTable.apply_error_epochs failed
      have outside : ∀ e ∈ g.extents.extents, fences.find e = s.fences.find e := by
        intro e inside
        have aside : e ∉ done := fun early =>
          apart e inside (by rw [parts]; exact List.mem_append_left rest early)
        simp only [FenceTable.find, marks, FenceTable.find_raiseAll, if_neg aside]
      exact { start with
        marks := outside
        incarnation := by simp only [FenceTable.incarnationFenced, noted]
        epoch := by simp only [FenceTable.epochFenced, epochs] }
  | extentAdopt record scope =>
    rcases enact_extentAdopt ran with ⟨-, -, rfl⟩ | ⟨-, rfl⟩
    · exact { start with
        marks := fun e inside => by
          simp only [FenceTable.adopted_find, if_neg (avoids e inside)]
        incarnation := rfl
        epoch := rfl }
    · exact { start with }
  | incarnationAllocate value =>
    rcases enact_incarnationAllocate ran with ⟨-, -, rfl⟩ | ⟨-, -, rfl⟩
    · exact { start with }
    · exact start

theorem apply_spared {record : JournalRecord} {r : Except Status PUnit} (active : g.isOpen = true)
    (sound : s.lineage.Sound) (member : g ∈ s.lineage.grants)
    (avoids : ∀ entry, record.entry = .ok entry → entry.Avoids g)
    (ran : (apply record).exec s = (r, t)) : Spared g s t := by
  have start := Spared.refl member
  rcases apply_cases ran with ⟨rfl, -⟩ | ⟨-, -, ⟨_, -, -, rfl⟩ | ⟨entry, read, enacted⟩⟩
  · exact start
  · exact { start with }
  · have observed : Spared g s (s.observe record) := { start with }
    have sound' : (s.observe record).lineage.Sound := sound
    exact observed.trans (enact_spared active sound' member (avoids entry read) enacted)

end RegistryState

namespace Work

open RegistryState (Spared)

variable {g : EpochGrant} {s : RegistryState} {now : Step}

def Sparing (g : EpochGrant) (s : RegistryState) (w : Work) : Prop :=
  Spared g s w.state ∧ w.state.lineage.Sound

theorem emit_spares {kind : RecordKind} {payload : Bytes} {status : Status}
    (active : g.isOpen = true) (avoids : ∀ (w : Work) entry,
      (w.nextRecord kind payload status now).entry = .ok entry → entry.Avoids g) :
    (emit kind payload status now).Keeps (Sparing g s) := by
  refine .of_run fun w r w' sparing ran => ?_
  obtain ⟨spared, sound⟩ := sparing
  have applied : ∀ {r t}, (RegistryState.apply (w.nextRecord kind payload status now)).exec
      w.state = (r, t) → Spared g s t ∧ t.lineage.Sound := fun ran =>
    ⟨spared.trans (RegistryState.apply_spared active sound spared.grant (avoids w) ran),
      RegistryState.apply_sound sound ran⟩
  rcases emit_cases ran with ⟨t, -, rfl, accepted⟩ | ⟨st, t, -, rfl, refused⟩
  · obtain ⟨spared, sound⟩ := applied accepted
    exact ⟨{ spared with }, sound⟩
  · exact applied refused

theorem fenceScope_spares {domain : DomainId} {scope : Scope} {epoch : Epoch}
    {incarnation : IncarnationId} {superseded : GrantId} {cause : Reason} {fenceIncarnation : Bool}
    (active : g.isOpen = true) (elsewhere : g.Elsewhere domain scope)
    (other : incarnation ≠ g.incarnation) :
    (fenceScope domain scope epoch incarnation superseded cause fenceIncarnation now).Keeps
      (Sparing g s) := by
  refine .get fun w _ => .refuseIf fun _ => .bind ?_ fun _ => .pure _
  refine emit_spares active fun _ entry read => ?_
  rw [fence_entry read]
  refine ⟨elsewhere.domain, elsewhere.extents, fun named => ?_⟩
  cases fenceIncarnation with
  | true => exact other
  | false => exact absurd rfl named

theorem closeGrant_spares {o : EpochGrant} {state : GrantState} {reason : Reason}
    (active : g.isOpen = true) (other : o.id ≠ g.id) :
    (closeGrant o state reason now).Keeps (Sparing g s) := by
  refine .get fun w _ => emit_spares active fun _ entry read => ?_
  rw [close_entry read]
  exact other

/-- Another open grant: its extents, its domain and its number are its own. -/
structure Other (g o : EpochGrant) : Prop where
  elsewhere : g.Elsewhere o.domain o.extents
  id : o.id ≠ g.id
  incarnation : o.incarnation ≠ g.incarnation

theorem other_of_open (healthy : s.Healthy) (member : g ∈ s.lineage.grants)
    (active : g.isOpen = true) {o : EpochGrant} (held : o ∈ s.lineage.openGrants)
    (incarnation : o.incarnation ≠ g.incarnation) : Other g o := by
  obtain ⟨member', active'⟩ := LineageTable.mem_openGrants.mp held
  have apart : o ≠ g := fun same => incarnation (congrArg EpochGrant.incarnation same)
  refine ⟨⟨fun same => ?_, fun e inside shared => ?_⟩, fun same => ?_, incarnation⟩
  · have extents := healthy.same_extents member' member same
    obtain ⟨e, inside⟩ := Scope.exists_extent (healthy.filled g member)
    exact apart (healthy.same_of_shared member member' active active' inside (extents ▸ inside))
  · exact apart (healthy.same_of_shared member member' active active' inside shared)
  · exact apart (healthy.sound.same_grant member' member same)

theorem supersede_spares {request : AllocateEpochRequest} {o : EpochGrant}
    (active : g.isOpen = true) (other : o.extents.overlaps request.scope = true → Other g o) :
    (supersede request now o).Keeps (Sparing g s) := by
  unfold supersede
  by_cases touching : o.extents.overlaps request.scope = true
  · obtain ⟨elsewhere, id, incarnation⟩ := other touching
    rw [if_pos touching]
    exact .bind (fenceScope_spares active elsewhere incarnation) fun _ =>
      closeGrant_spares active id
  · rw [if_neg touching]
    exact .pure _

theorem openFresh_spares {request : AllocateEpochRequest} (active : g.isOpen = true)
    (elsewhere : g.Elsewhere request.domain request.scope) :
    (openFresh request now).Keeps (Sparing g s) := by
  refine .get fun w _ => .refuseIf fun _ => .refuseIf fun _ => ?_
  refine .bind (emit_spares active fun _ entry read => ?_) fun _ => ?_
  · have adopted : entry = .extentAdopt _ _ := adopt_entry (g := w.freshGrant request now) read
    rw [adopted]
    exact elsewhere.extents
  · refine .bind (emit_spares active fun _ entry read => ?_) fun _ => .pure _
    rw [read_back (agrees_grant _) read]
    trivial

/-- The grants an allocation that is let through gives up first. -/
structure Undercuts (s : RegistryState) (request : AllocateEpochRequest) (o : EpochGrant) : Prop where
  admissible : Admissible s request
  fresh : ({ state := s } : Work).repeatedAttempt request = none
  overlapped : o ∈ overlapped s request

theorem allocateEpoch_spares {w : Work} {request : AllocateEpochRequest} (healthy : w.state.Healthy)
    (member : g ∈ w.state.lineage.grants) (active : g.isOpen = true)
    (elsewhere : g.Elsewhere request.domain request.scope)
    (spares : ∀ o, Undercuts w.state request o → o.incarnation ≠ g.incarnation) :
    Spared g w.state ((allocateEpoch request now).exec w).2.state := by
  rcases ran : (allocateEpoch request now).exec w with ⟨r, w'⟩
  have cleared : Admissible w.state request → w.repeatedAttempt request = none →
      (w.state.lineage.openGrants.forM (supersede request now)).Keeps (Sparing g w.state) := by
    intro admissible fresh
    refine .forM_of_mem fun o held => supersede_spares active fun touching => ?_
    refine other_of_open healthy member active held (spares o ⟨admissible, fresh, ?_⟩)
    exact List.mem_filter.mpr ⟨held, touching⟩
  have start : Sparing g w.state w := ⟨.refl member, healthy.sound⟩
  cases allocateEpoch_allocates ran with
  | refused refusal fails => exact .refl member
  | repeated admissible boot found => exact { Spared.refl member with }
  | stuck admissible boot fresh looped => exact ((cleared admissible fresh).run start looped).1
  | cleared admissible boot fresh looped opened =>
    have sparing := (cleared admissible fresh).run start looped
    exact ((openFresh_spares active elsewhere).run sparing opened).1

theorem defineDomain_spares {d : DomainDefinition} (active : g.isOpen = true)
    (other : d.domain ≠ g.domain) : (defineDomain d now).Keeps (Sparing g s) := by
  refine .refuseIf fun _ => .refuseIf fun _ => .get fun w _ => ?_
  cases w.state.domains.find d.domain with
  | some known => exact .ite (.pure _) (.throw _)
  | none =>
    refine .refuseIf fun _ => emit_spares active fun _ entry read => ?_
    rw [read_back (agrees_domain d) read]
    exact other

theorem release_spares {w : Work} {request : ReleaseRequest} (active : g.isOpen = true)
    (sparing : Sparing g s w)
    (others : ∀ o, w.state.lineage.find request.grant = some o → o.isOpen = true → Other g o) :
    Sparing g s ((release request now).exec w).2 := by
  rcases ran : (release request now).exec w with ⟨r, w'⟩
  cases release_releases ran with
  | refused refusal idle => exact sparing
  | held found held released =>
    obtain ⟨elsewhere, id, incarnation⟩ := others _ found held
    refine Prog.Keeps.run (.bind (.mapError ?_) fun _ => .bind (.mapError ?_) fun _ => .pure _)
      sparing released
    · exact fenceScope_spares active elsewhere incarnation
    · exact closeGrant_spares active id

theorem fence_spares {w : Work} {request : FenceRequest} (active : g.isOpen = true)
    (sparing : Sparing g s w) (elsewhere : g.Elsewhere request.domain request.scope)
    (incarnation : request.incarnation ≠ g.incarnation)
    (others : Names w.state request.domain request.scope →
      ∀ o ∈ w.state.lineage.openGrants.filter (fencedBy request), Other g o) :
    Sparing g s ((fence request now).exec w).2 := by
  rcases ran : (fence request now).exec w with ⟨r, w'⟩
  cases fence_fences ran with
  | refused refusal fails => exact sparing
  | alone names unmatched fenced =>
    exact (fenceScope_spares active elsewhere incarnation).run sparing fenced
  | matched names some' looped =>
    refine Prog.Keeps.run (.foldlM_of_mem (fun highest x member => ?_) 0) sparing looped
    obtain ⟨elsewhere, id, incarnation⟩ := others names x member
    refine .bind (.mapError ?_) fun _ => .bind (.mapError ?_) fun _ => .pure _
    · exact fenceScope_spares active elsewhere incarnation
    · exact closeGrant_spares active id

theorem append_owners {r : MutationRecord} {io : AppendIo} {f f' : FabricStore} {e : ExtentId}
    {result : Except Status PUnit} (outside : e ∉ r.scope.extents)
    (ran : (FabricStore.append r io).exec f = (result, f')) : f'.ownerOf e = f.ownerOf e := by
  rw [FabricStore.append, Prog.exec_get_bind] at ran
  cases fate : io.settle f.log.length (fabricFormat.frame r.encode) with
  | done =>
    simp only [fate] at ran
    cases ran
    exact (find_recordOwner _ _ _).trans (if_neg outside)
  | headShort n | payloadShort n | flushFailed n stage =>
    simp only [fate] at ran
    cases ran
    rfl

/-- An effect marks the extents of its scope and no others. -/
theorem commit_spares {request : CommitRequest} {io : AppendIo} (active : g.isOpen = true)
    (outside : ∀ e ∈ g.extents.extents, e ∉ request.scope.extents) :
    (commit request now io).Keeps (Sparing g s) := by
  refine Wording.commit ⟨fun kind emits payload status _ => ?_, fun w _ _ _ sparing => ?_⟩ ?_
  · refine emit_spares active fun _ entry read => ?_
    rw [Op.kinds, List.mem_singleton] at emits
    subst emits
    cases read
    trivial
  · exact ⟨{ sparing.1 with }, sparing.2⟩
  · refine .of_run fun w r w' sparing ran => ?_
    rw [onFabric, Prog.exec_zoom] at ran
    cases ran
    refine ⟨{ sparing.1 with owners := fun e inside => ?_ }, sparing.2⟩
    refine Eq.trans ?_ (sparing.1.owners e inside)
    have keeps : (FabricStore.admitMutation request.domain request.fenceToken request.scope
        request.epoch request.incarnation request.grant request.operation request.payloadDigest now
        io).Keeps fun f => f.ownerOf e = w.state.fabric.ownerOf e := by
      refine .get fun f _ => .refuseIf fun _ => .refuseIf fun _ => .refuseIf fun _ =>
        .refuseIf fun _ => .refuseIf fun _ => .refuseIf fun _ => .refuseIf fun _ =>
        .bind .ofExcept fun _ => .refuseIf fun _ => .bind (.of_run ?_) fun _ => .pure _
      exact fun f r f' same ran => (append_owners (outside e inside) ran).trans same
    exact keeps.run rfl (Prod.eta _).symm

end Work

/-- The grants a call sets out to close. -/
def Op.Closes (s : RegistryState) (o : EpochGrant) : Op → Prop
  | .allocateEpoch request => Work.Undercuts s request o
  | .fence request => Work.Names s request.domain request.scope ∧
      o ∈ s.lineage.openGrants.filter (Work.fencedBy request)
  | .release request => s.lineage.find request.grant = some o ∧ o.isOpen = true
  | _ => False

/-- A call for another domain, clear of the grant's extents and its incarnation. -/
def Op.Apart (s : RegistryState) (g : EpochGrant) : Op → Prop
  | .defineDomain d => g.Elsewhere d.domain d.scope
  | .allocateEpoch request =>
    g.Elsewhere request.domain request.scope ∧ request.incarnation ≠ g.incarnation
  | .commit request _ =>
    g.Elsewhere request.domain request.scope ∧ request.incarnation ≠ g.incarnation
  | .fence request =>
    g.Elsewhere request.domain request.scope ∧ request.incarnation ≠ g.incarnation
  | .release request => ∀ o, s.lineage.find request.grant = some o →
    g.Elsewhere o.domain o.extents ∧ o.incarnation ≠ g.incarnation
  | _ => False

/-- A call apart from an open grant leaves it alone. -/
theorem Op.after_spared {op : Op} {now : Step} {w : Work} {g : EpochGrant}
    (healthy : w.state.Healthy) (member : g ∈ w.state.lineage.grants) (active : g.isOpen = true)
    (apart : op.Apart w.state g)
    (spares : ∀ o, op.Closes w.state o → o.incarnation ≠ g.incarnation) :
    w.state.Spared g (op.after now w).state := by
  have start : Work.Sparing g w.state w := ⟨.refl member, healthy.sound⟩
  have others : ∀ o ∈ w.state.lineage.openGrants, o.incarnation ≠ g.incarnation →
      Work.Other g o := fun o held => Work.other_of_open healthy member active held
  cases op with
  | defineDomain d =>
    exact ((Work.defineDomain_spares active apart.domain).run start (Prod.eta _).symm).1
  | allocateEpoch request =>
    exact Work.allocateEpoch_spares healthy member active apart.1 spares
  | commit request io =>
    exact ((Work.commit_spares active apart.1.extents).run start (Prod.eta _).symm).1
  | fence request =>
    refine (Work.fence_spares active start apart.1 apart.2 fun names o matched => ?_).1
    exact others o (List.mem_filter.mp matched).1 (spares o ⟨names, matched⟩)
  | release request =>
    refine (Work.release_spares active start fun o found held => ?_).1
    have listed := LineageTable.mem_openGrants.mpr ⟨(LineageTable.find_some found).1, held⟩
    exact others o listed (apart o found).2
  | definePolicy _ | allocateIncarnation | decide _ _ | recoverAfterRestart => exact absurd apart id

/-- An open grant has the newest epoch of its domain. -/
def Leading (grants : List EpochGrant) : Prop :=
  ∀ g ∈ grants, g.isOpen = true → ∀ o ∈ grants, o.domain = g.domain → o.epoch ≤ g.epoch

open LineageTable (roomFor roomFor_sublist)

theorem Leading.close {grants : List EpochGrant} (leading : Leading grants) (g : EpochGrant) :
    Leading ((Entry.grantClose g).grants grants) := by
  rcases Entry.grants_close grants g with same | ⟨ends, same⟩
  · rwa [same]
  rw [same]
  have origin : ∀ o ∈ updateFirst (·.id = g.id) (·.close g.state g.closeReason g.closedAt) grants,
      ∃ x ∈ grants, x.domain = o.domain ∧ x.epoch = o.epoch ∧ (o.isOpen = true → x = o) := by
    intro o member
    rcases mem_updateFirst member with old | ⟨x, old, -, rfl⟩
    · exact ⟨o, old, rfl, rfl, fun _ => rfl⟩
    · refine ⟨x, old, rfl, rfl, fun active => absurd (EpochGrant.isOpen_iff.mp active) ends⟩
  intro o member active x member' domain
  obtain ⟨o', here, -, -, same⟩ := origin o member
  obtain ⟨x', here', domain', epoch, -⟩ := origin x member'
  obtain rfl := same active
  rw [← epoch]
  exact leading o' here active x' here' (domain'.trans domain)

theorem Leading.opened {s : RegistryState} {g : EpochGrant} (leading : Leading s.lineage.grants)
    (healthy : s.Healthy) (fresh : Opens s g) :
    Leading (roomFor s.lineage.grants ++ [g]) := by
  have risen := (healthy.rising.opened fresh).epochs
  have old : ∀ o ∈ roomFor s.lineage.grants, o ∈ s.lineage.grants := fun o member =>
    (roomFor_sublist _).subset member
  have single : ∀ o ∈ s.lineage.grants, o.isOpen = true → o.domain ≠ g.domain := by
    intro o member active same
    obtain ⟨known, found, scope⟩ := healthy.registered o member
    obtain ⟨known', found', scope'⟩ := fresh.registered
    rw [same, found'] at found
    cases found
    have apart := fresh.free o member active
    rw [← scope', scope, Scope.overlaps_self (healthy.filled o member)] at apart
    cases apart
  intro o member active x member' domain
  rcases List.mem_append.mp member with early | last
  · rcases List.mem_append.mp member' with early' | last'
    · exact leading o (old o early) active x (old x early') domain
    · rw [List.mem_singleton.mp last'] at domain
      exact absurd domain.symm (single o (old o early) active)
  · rw [List.mem_singleton.mp last] at domain ⊢
    rcases List.mem_append.mp member' with early' | last'
    · exact le_of_lt ((List.pairwise_append.mp risen).2.2 x early' g (by simp) domain)
    · rw [List.mem_singleton.mp last']

namespace History

theorem Reachable.leading {h : History} (reached : Reachable (fun _ _ => True) h) :
    Leading h.live.lineage.grants := by
  have kept : Kept (fun log => Lawful log ∧ Leading (grantsOf log)) h := by
    refine reached.kept ⟨.empty, by simp [Leading, grantsOf]⟩ fun log w w' tracks both move => ?_
    refine ⟨both.1.move tracks move, ?_⟩
    have healthy := both.1.healthy tracks
    have leading := both.2
    have turnover := tracks.turnover move
    rw [← tracks.grants] at leading turnover
    generalize grantsOf (log ++ w'.emitted) = grants' at turnover ⊢
    generalize opensOf (log ++ w'.emitted) = opens' at turnover
    cases turnover with
    | none => exact leading
    | closed g => exact leading.close g
    | opened fresh ready => exact leading.opened healthy fresh
  rw [kept.tracks.grants]
  exact kept.lawful.2

end History

theorem LineageTable.maxEpoch_le {t : LineageTable} {d : DomainId} {bound : Epoch}
    (below : ∀ g ∈ t.grants, g.domain = d → g.epoch ≤ bound) : t.maxEpoch d ≤ bound := by
  have general : ∀ (l : List EpochGrant) (start : Epoch), start ≤ bound →
      (∀ g ∈ l, g.domain = d → g.epoch ≤ bound) → l.foldl (fun highest g =>
        if g.domain = d ∧ highest < g.epoch then g.epoch else highest) start ≤ bound := by
    intro l
    induction l with
    | nil => exact fun _ low _ => low
    | cons g rest ih =>
      intro start low each
      rw [List.foldl_cons]
      refine ih _ ?_ fun x later => each x (List.mem_cons_of_mem g later)
      split
      · rename_i taken
        exact each g List.mem_cons_self taken.1
      · exact low
  exact general t.grants 0 UInt64.zero_le below

namespace AuthorityDecision

/-- The same decision, made at another generation of the fence table. -/
def regenerated (d : AuthorityDecision) (n : Generation) : AuthorityDecision :=
  { d with vector := { d.vector with fenceGeneration := n } }

theorem ite_regenerated {c : Prop} [Decidable c] {x y x' y' : AuthorityDecision} {n : Generation}
    (yes : x' = x.regenerated n) (no : y' = y.regenerated n) :
    (if c then x' else y') = (if c then x else y).regenerated n := by
  split
  · exact yes
  · exact no

end AuthorityDecision

section Verdict

open AuthorityDecision (ite_regenerated)

variable {sorting : Sorting} {request : AuthorityRequest} {view view' : ArbiterView}
  {policy : ArbiterPolicy} {fences fences' : FenceTable} {lineage lineage' : LineageTable}
  {assessment : EvidenceAssessment} {d : AuthorityDecision} {n : Generation}

/-- No competing claim touches the scope. -/
def ArbiterView.Alone (view : ArbiterView) (request : AuthorityRequest) : Prop :=
  ∀ c ∈ view.competing, request.scope.overlaps c.scope = false

/-- Two views that differ in nothing the request is judged by. -/
structure ArbiterView.Alike (view view' : ArbiterView) (request : AuthorityRequest) : Prop where
  alone : view.Alone request
  alone' : view'.Alone request
  now : view'.now = view.now
  floors : view'.witnessFloors = view.witnessFloors

structure FenceTable.Alike (t t' : FenceTable) (request : AuthorityRequest) : Prop where
  incarnation : t'.incarnationFenced request.incarnation = t.incarnationFenced request.incarnation
  epoch : t'.epochFenced request.domain request.epoch = t.epochFenced request.domain request.epoch
  marks : ∀ e ∈ request.scope.extents, t'.highWater e = t.highWater e

theorem decideExclusive_alone (alone : view.Alone request) :
    decideExclusive sorting request view policy assessment d = d.grantedBy view policy assessment
      (SortedTable.ofList d.mustFence : SortedTable (id : ClaimId → ClaimId)).rows := by
  have none : (view.competing.filter fun c =>
      decide (c.claim ≠ request.claim) && request.scope.overlaps c.scope) = [] := by
    rw [List.filter_eq_nil_iff]
    intro c member
    simp [alone c member]
  simp only [decideExclusive, none, KeySort.Routine.sort_nil, weighClaims, ownClaims, ne_eq,
    not_true_eq_false, false_and, if_false]
  rfl

theorem decideEvidence_regenerated (alike : view.Alike view' request) :
    decideEvidence sorting request view' policy assessment (d.regenerated n) =
      (decideEvidence sorting request view policy assessment d).regenerated n := by
  have granted : decideExclusive sorting request view' policy assessment (d.regenerated n) =
      (decideExclusive sorting request view policy assessment d).regenerated n := by
    rw [decideExclusive_alone alike.alone, decideExclusive_alone alike.alone']
    simp only [AuthorityDecision.grantedBy, alike.now]
    rfl
  unfold decideEvidence
  cases assessment.state with
  | conflict | invalid | unsupported | stale => rfl
  | unknown => cases request.mode <;> rfl
  | current =>
    refine ite_regenerated rfl ?_
    cases request.mode with
    | eligibilityProbe | recommendationRequest | sharedRead => rfl
    | observation | exclusiveMutation => exact granted

theorem decideOver_regenerated (alike : view.Alike view' request)
    (tables : fences.Alike fences' request)
    (newest : lineage'.maxEpoch request.domain = lineage.maxEpoch request.domain) :
    decideOver sorting request view' policy fences' lineage' (d.regenerated n) =
      (decideOver sorting request view policy fences lineage d).regenerated n := by
  have above : (request.scope.extents.filter fun e =>
      decide (request.presentedFenceToken < fences'.highWater e)) =
      request.scope.extents.filter fun e =>
        decide (request.presentedFenceToken < fences.highWater e) :=
    List.filter_congr fun e inside => by rw [tables.marks e inside]
  unfold decideOver
  simp only [newest, tables.incarnation, tables.epoch, above, alike.now, alike.floors]
  cases policy.validate with
  | error st => rfl
  | ok _ =>
    refine ite_regenerated rfl <| ite_regenerated rfl <| ite_regenerated rfl <|
      ite_regenerated rfl <| ite_regenerated rfl <| ite_regenerated rfl <| ite_regenerated rfl <|
      ite_regenerated rfl ?_
    generalize assessEvidence sorting _ policy.quorum request.evidence view.witnessFloors = assessed
    exact decideEvidence_regenerated (n := n) (d := { d with
      vector := { d.vector with evidenceGeneration := assessed.floorGeneration } }) alike

/-- The verdict does not depend on anything else in the registry. -/
theorem decideAuthority_regenerated (alike : view.Alike view' request)
    (complete : view.policy = some policy ∧ view.fences = some fences ∧ view.lineage = some lineage)
    (complete' : view'.policy = some policy ∧ view'.fences = some fences' ∧
      view'.lineage = some lineage') (tables : fences.Alike fences' request)
    (newest : lineage'.maxEpoch request.domain = lineage.maxEpoch request.domain) :
    decideAuthority sorting request view' =
      (decideAuthority sorting request view).regenerated fences'.generation := by
  rcases view with ⟨_, _, _, now, registry, domains, competing, floors⟩
  rcases view' with ⟨_, _, _, _, _, _, _, _⟩
  simp only at complete complete'
  obtain ⟨rfl, rfl, rfl⟩ := complete
  obtain ⟨rfl, rfl, rfl⟩ := complete'
  refine ite_regenerated rfl <| ite_regenerated rfl <| ite_regenerated rfl <|
    ite_regenerated rfl <| ite_regenerated rfl ?_
  let seen : ArbiterView :=
    ⟨some policy, some fences, some lineage, now, registry, domains, competing, floors⟩
  exact decideOver_regenerated (d := request.undecided seen) alike tables newest

end Verdict

/-- The grant's holder asks: the same domain, scope, epoch and incarnation. -/
structure DecideRequest.ByHolder (request : DecideRequest) (g : EpochGrant) : Prop where
  domain : request.domain = g.domain
  scope : request.scope = g.extents
  epoch : request.epoch = g.epoch
  incarnation : request.incarnation = g.incarnation

namespace Work

variable {sorting : Sorting} {request : DecideRequest} {g : EpochGrant} {now : Step} {w : Work}

/-- The answer about an open grant, once its token is presented. -/
def judged (sorting : Sorting) (w : Work) (request : DecideRequest) (g : EpochGrant) (now : Step) :
    DecideResponse :=
  let decision := decideAuthority sorting (authorityRequest request g now) (w.arbiterView g now)
  { status := decision.status
    decision := if decision.isAuthoritative then
      { decision with validUntil := now + w.state.config.leaseHorizonSteps } else decision }

theorem decidedGrant_held (healthy : w.state.Healthy) (member : g ∈ w.state.lineage.grants)
    (active : g.isOpen = true) (holder : request.ByHolder g) :
    w.decidedGrant request = some g := by
  have matched : w.decidedGrant request ≠ none := by
    intro none
    have misses := List.find?_eq_none.mp none g member
    exact misses (by simp [holder.domain, holder.scope, holder.epoch, holder.incarnation, active])
  obtain ⟨o, found⟩ := Option.ne_none_iff_exists'.mp matched
  have member' := List.mem_of_find?_eq_some found
  have said := List.find?_some found
  simp only [Bool.and_eq_true, decide_eq_true_eq] at said
  obtain ⟨⟨-, active'⟩, extents⟩ := said
  obtain ⟨e, inside⟩ := Scope.exists_extent (healthy.filled g member)
  have shared : e ∈ o.extents.extents := by
    rw [extents, holder.scope]
    exact inside
  rw [found, healthy.same_of_shared member member' active active' inside shared]

theorem decide_held (healthy : w.state.Healthy) (member : g ∈ w.state.lineage.grants)
    (active : g.isOpen = true) (holder : request.ByHolder g) :
    Prog.answer ((decide sorting request now).exec w).1 =
      if g.fenceToken ≠ request.presentedFenceToken then mistoken g
      else w.judged sorting request g now := by
  have named : request.domain.isEmpty = false := holder.domain ▸ healthy.named g member
  have filled : request.scope.isEmpty = false := holder.scope ▸ healthy.filled g member
  have names : Names w.state request.domain request.scope := by
    refine ⟨named, filled, ?_⟩
    rw [holder.domain, holder.scope]
    exact healthy.registered g member
  have idle : ¬ (request.domain.isEmpty = true ∨ request.scope.isEmpty = true) := by
    simp [named, filled]
  rw [decide, Prog.exec_get_bind, Prog.exec_refuseIf, if_neg idle,
    Prog.exec_bind_ok (checkScope_runs names), decidedGrant_held healthy member active holder]
  simp only [Prog.exec_refuseIf, Prog.exec_ite, Prog.exec_pure, Prog.exec_throw]
  split
  · rfl
  · unfold judged
    split <;> rfl

/-- No other open grant competes for the holder's scope. -/
theorem arbiterView_alone (healthy : w.state.Healthy) (member : g ∈ w.state.lineage.grants)
    (active : g.isOpen = true) (holder : request.ByHolder g) :
    (w.arbiterView g now).Alone (authorityRequest request g now) := by
  intro c listed
  obtain ⟨o, held, rfl⟩ := List.mem_map.mp listed
  obtain ⟨open', other⟩ := List.mem_filter.mp held
  obtain ⟨member', active'⟩ := LineageTable.mem_openGrants.mp open'
  by_contra touching
  rw [Bool.not_eq_false, Scope.overlaps_iff] at touching
  obtain ⟨e, inside, shared⟩ := touching
  have inside : e ∈ g.extents.extents := holder.scope ▸ inside
  have same := healthy.same_of_shared member member' active active' inside shared
  rw [same] at other
  simp at other

/-- The holder of a spared grant is judged as before. -/
theorem judged_spared {w' : Work} (healthy : w.state.Healthy) (healthy' : w'.state.Healthy)
    (leading : Leading w.state.lineage.grants) (leading' : Leading w'.state.lineage.grants)
    (member : g ∈ w.state.lineage.grants) (active : g.isOpen = true)
    (spared : w.state.Spared g w'.state) (holder : request.ByHolder g) :
    w'.judged sorting request g now = { w.judged sorting request g now with
      decision :=
        (w.judged sorting request g now).decision.regenerated w'.state.fences.generation } := by
  have newest : ∀ {t : LineageTable}, Leading t.grants → g ∈ t.grants →
      t.maxEpoch g.domain = g.epoch := fun leading member =>
    le_antisymm (LineageTable.maxEpoch_le fun o here same => leading g member active o here same)
      (LineageTable.epoch_le_maxEpoch member)
  have decided : decideAuthority sorting (authorityRequest request g now) (w'.arbiterView g now) =
      (decideAuthority sorting (authorityRequest request g now) (w.arbiterView g now)).regenerated
        w'.state.fences.generation := by
    refine decideAuthority_regenerated ⟨arbiterView_alone healthy member active holder,
      arbiterView_alone healthy' spared.grant active holder, rfl, rfl⟩ ⟨rfl, rfl, rfl⟩
      ⟨congrArg some spared.policy, rfl, rfl⟩ ⟨?_, ?_, fun e inside => ?_⟩ ?_
    · simp only [authorityRequest, holder.incarnation, spared.incarnation]
    · simp only [authorityRequest, holder.domain, holder.epoch, spared.epoch]
    · have inside : e ∈ g.extents.extents := holder.scope ▸ inside
      simp only [FenceTable.highWater, spared.marks e inside]
    · simp only [authorityRequest, holder.domain]
      rw [newest leading member, newest leading' spared.grant]
  simp only [judged, decided, spared.config]
  generalize decideAuthority sorting (authorityRequest request g now) (w.arbiterView g now) = d
  have same : (d.regenerated w'.state.fences.generation).isAuthoritative = d.isAuthoritative := rfl
  rw [same]
  by_cases granted : d.isAuthoritative = true
  · rw [if_pos granted, if_pos granted]
    rfl
  · rw [if_neg granted, if_neg granted]
    rfl

theorem decide_spared {w' : Work} (healthy : w.state.Healthy) (healthy' : w'.state.Healthy)
    (leading : Leading w.state.lineage.grants) (leading' : Leading w'.state.lineage.grants)
    (member : g ∈ w.state.lineage.grants) (active : g.isOpen = true)
    (spared : w.state.Spared g w'.state) (holder : request.ByHolder g) :
    let before := Prog.answer ((decide sorting request now).exec w).1
    let after := Prog.answer ((decide sorting request now).exec w').1
    after.status = before.status ∧ after.decision.verdict = before.decision.verdict := by
  have same := @judged_spared sorting request g now w w' healthy healthy' leading leading' member
    active spared holder
  simp only [decide_held healthy member active holder,
    decide_held healthy' spared.grant active holder, same]
  generalize w.judged sorting request g now = told
  by_cases presented : g.fenceToken ≠ request.presentedFenceToken
  · simp only [if_pos presented, and_self]
  · simp only [if_neg presented, AuthorityDecision.regenerated, and_self]

end Work

namespace History

/-- A call for a domain that shares nothing with an open grant leaves the grant as it is, the
marks of its extents on both sides, and what its holder is told. -/
theorem disjoint_undisturbed (h : History) (reached : Reachable (fun _ _ => True) h)
    (g : EpochGrant) (member : g ∈ h.live.lineage.grants) (active : g.isOpen = true) (op : Op)
    (now : Step) (apart : op.Apart h.live g)
    (spares : ∀ o, op.Closes h.live o → o.incarnation ≠ g.incarnation) :
    g ∈ (h.called op now).live.lineage.grants ∧
    (∀ e ∈ g.extents.extents,
      (h.called op now).live.fences.find e = h.live.fences.find e ∧
      (h.called op now).live.fabric.ownerOf e = h.live.fabric.ownerOf e) ∧
    ∀ (sorting : Sorting) (request : DecideRequest) (step : Step), request.ByHolder g →
      let before := Prog.answer ((Work.decide sorting request step).exec h.work).1
      let after := Prog.answer ((Work.decide sorting request step).exec (h.called op now).work).1
      after.status = before.status ∧ after.decision.verdict = before.decision.verdict := by
  have spared : h.live.Spared g (h.called op now).live :=
    Op.after_spared (w := h.work) reached.healthy member active apart spares
  refine ⟨spared.grant, fun e inside => ⟨spared.marks e inside, spared.owners e inside⟩, ?_⟩
  intro sorting request step holder
  have further := reached.called op now
  have healthy : h.work.state.Healthy := reached.healthy
  have healthy' : (h.called op now).work.state.Healthy := further.healthy
  exact Work.decide_spared healthy healthy' reached.leading further.leading member active spared
    holder

/-- Two domains on different extents, held by two incarnations. -/
def neighbourEvents : List Event := [
  .call (.defineDomain (sampleDomain 100 120)) 1, .call (.defineDomain (sampleDomain 101 121)) 2,
  .call .allocateIncarnation 3, .call .allocateIncarnation 4,
  .call (.allocateEpoch (sampleAllocation 100 120 1 1)) 5,
  .call (.allocateEpoch (sampleAllocation 101 121 2 1)) 6]

/-- One of two holders lets go; the other stays. -/
theorem disjoint_undisturbed_released : ∃ h g o, Reachable (fun _ _ => True) h ∧
    g ∈ h.live.lineage.grants ∧ g.isOpen = true ∧ h.live.lineage.find 2 = some o ∧
    o.isOpen = true ∧ g ∈ (h.called (.release { grant := 2 }) 7).live.lineage.grants := by
  have evaluated : (sampleStart.bind (guarded (fun _ _ => true) · neighbourEvents)).map (fun h =>
      (h.live.lineage.find 1).any fun g => (h.live.lineage.find 2).any fun o =>
        g.isOpen && (o.isOpen && (decide (o.domain ≠ g.domain) &&
          (!g.extents.overlaps o.extents && decide (o.incarnation ≠ g.incarnation))))) =
      some true := by
    decide +kernel
  obtain ⟨h, ran, shown⟩ := Option.map_eq_some_iff.mp evaluated
  obtain ⟨g, found, shown⟩ := (Option.any_eq_true _ _).mp shown
  obtain ⟨o, found', shown⟩ := (Option.any_eq_true _ _).mp shown
  simp only [Bool.and_eq_true, decide_eq_true_eq, Bool.not_eq_true'] at shown
  obtain ⟨active, active', domain, clear, incarnation⟩ := shown
  have outside : ∀ e ∈ g.extents.extents, e ∉ o.extents.extents := fun _ inside =>
    Scope.outside_of_apart clear inside
  have member := (LineageTable.find_some found).1
  refine ⟨h, g, o, sample_reachable ran, member, active, found', active', ?_⟩
  refine (disjoint_undisturbed h (sample_reachable ran) g member active _ 7 ?_ ?_).1
  · intro x named
    cases found'.symm.trans named
    exact ⟨⟨domain, outside⟩, incarnation⟩
  · rintro x ⟨named, -⟩
    cases found'.symm.trans named
    exact incarnation

end History
end SplitBrainFabric
