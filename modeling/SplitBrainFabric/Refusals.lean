import SplitBrainFabric.Capacity
import SplitBrainFabric.Spellings
import SplitBrainFabric.Standing
import SplitBrainFabric.Usability

/-! When a refusal leaves the registry as it was. The first record of a call takes a sequence
number that nothing gives back, so a refused call has changed nothing exactly if it was
refused before that. -/

namespace SplitBrainFabric
open Words Decoder

theorem QuorumProfile.Encodable.of_valid {p : QuorumProfile} (valid : p.validate = .ok ()) :
    p.Encodable where
  policy := by
    unfold validate at valid
    exact Bool.not_eq_true _ ▸ (else_of_ne valid nofun).1
  bounded := (QuorumProfile.validate_size valid).2
  witnesses := QuorumProfile.validate_named valid

/-- A policy that passes its check can be written down under any generation. -/
theorem reads_policy {p : ArbiterPolicy} (valid : p.Valid) (generation : Generation) :
    Reads decodePolicy (encodePolicy { p with generation := generation })
      { p with generation := generation } := by
  have encodable := QuorumProfile.Encodable.of_valid valid.quorum
  exact .field (reads_identifier valid.named) <| .field (reads_u64 _) <|
    .field (reads_nested (QuorumProfile.encode_fits encodable.bounded)
      (QuorumProfile.exact_decode.reads ⟨encodable, rfl⟩)) <|
    .field (reads_boolean _) <| .field (reads_boolean _) <| .field (reads_boolean _) <|
    .field (reads_boolean _) <| .field (reads_boolean _) <| .field (reads_u64 _) <|
    Reads.pure { p with generation := generation }

/-- What the effect boundary checks before it writes. -/
structure MutationCall.Allowed (call : MutationCall) (s : FabricStore) : Prop where
  opened : s.opened = true
  named : call.domain.isEmpty = false
  filled : call.scope.isEmpty = false
  token : call.token ≠ 0
  incarnation : call.incarnation ≠ 0
  printable : operationValid call.operation = true
  passed : ExtentMarks.Admits s.owners call.token call.incarnation call.scope.extents

section Boundary

variable {call : MutationCall} {io : AppendIo} {s s' : FabricStore}

theorem MutationCall.Allowed.runs (allowed : call.Allowed s)
    (written : io.settle s.log.length (fabricFormat.frame (call.record s).encode) = .done) :
    (call.admitMutation io).exec s = (.ok (call.record s), s.accepted (call.record s)) := by
  have fits : (call.record s).encode.length ≤ Limits.maxJournalRecordBytes :=
    History.mutationRecord_fits allowed.printable
  have room := AppendIo.settle_done written
  have size := FabricStore.frame_fileBytes call s
  have frame := LogFormat.frame_length fabricFormat (call.record s).encode
  cases io with
  | done =>
    refine FabricStore.admit_runs allowed.opened allowed.named allowed.filled allowed.token
      allowed.incarnation allowed.printable allowed.passed ?_ ?_
    · omega
    · omega
  | headShort n => cases written
  | payloadShort n => cases written
  | flushFailed n stage => cases written

/-- A call that fails a check leaves the store as it was. -/
theorem MutationCall.refused (call : MutationCall) {r : Except Status MutationRecord}
    (fails : ¬ call.Allowed s)
    (ran : (call.admitMutation io).exec s = (r, s')) : (∃ st, r = .error st) ∧ s' = s := by
  rw [MutationCall.admitMutation, FabricStore.admitMutation, Prog.exec_get_bind,
    Prog.exec_refuseIf] at ran
  split at ran
  · cases ran; exact ⟨⟨_, rfl⟩, rfl⟩
  rename_i opened
  rw [Prog.exec_refuseIf] at ran
  split at ran
  · cases ran; exact ⟨⟨_, rfl⟩, rfl⟩
  rename_i named
  rw [Prog.exec_refuseIf] at ran
  split at ran
  · cases ran; exact ⟨⟨_, rfl⟩, rfl⟩
  rename_i filled
  rw [Prog.exec_refuseIf] at ran
  split at ran
  · cases ran; exact ⟨⟨_, rfl⟩, rfl⟩
  rename_i token
  rw [Prog.exec_refuseIf] at ran
  split at ran
  · cases ran; exact ⟨⟨_, rfl⟩, rfl⟩
  rename_i incarnation
  rw [Prog.exec_refuseIf] at ran
  split at ran
  · cases ran; exact ⟨⟨_, rfl⟩, rfl⟩
  rename_i printable
  rw [Prog.exec_refuseIf] at ran
  split at ran
  · cases ran; exact ⟨⟨_, rfl⟩, rfl⟩
  rw [Prog.exec_ofExcept_bind] at ran
  cases passed : FabricStore.gate s.owners call.token call.incarnation call.scope.extents with
  | error st => rw [passed] at ran; cases ran; exact ⟨⟨_, rfl⟩, rfl⟩
  | ok u =>
    simp only [Bool.not_eq_false, Bool.not_eq_true] at opened named filled printable
    exact absurd ⟨opened, named, filled, token, incarnation, printable,
      ExtentMarks.check_ok.mp passed⟩ fails

theorem FabricStore.accepted_ne (s : FabricStore) (r : MutationRecord) : s.accepted r ≠ s := by
  intro same
  have size := congrArg (fun s : FabricStore => s.log.length) same
  simp only [FabricStore.accepted, List.length_append, LogFormat.frame_length] at size
  omega

end Boundary

namespace Work

open RegistryState (Footing enact)

/-- What a refused call must leave alone. -/
structure Unmoved (w w' : Work) : Prop where
  fences : w'.state.fences = w.state.fences
  lineage : w'.state.lineage = w.state.lineage
  domains : w'.state.domains = w.state.domains
  policy : w'.state.policy = w.state.policy
  interrupts : w'.state.interrupts = w.state.interrupts
  tokenCounter : w'.state.tokenCounter = w.state.tokenCounter
  grantCounter : w'.state.grantCounter = w.state.grantCounter
  incarnationCounter : w'.state.incarnationCounter = w.state.incarnationCounter
  registrySequence : w'.state.registrySequence = w.state.registrySequence
  fabric : w'.state.fabric = w.state.fabric
  emitted : w'.emitted = w.emitted

theorem Unmoved.of_state {w w' : Work} (state : w'.state = w.state) (emitted : w'.emitted = w.emitted) :
    Unmoved w w' := by
  refine ⟨?_, ?_, ?_, ?_, ?_, ?_, ?_, ?_, ?_, ?_, emitted⟩
  all_goals rw [state]

theorem Unmoved.refl (w : Work) : Unmoved w w := .of_state rfl rfl

/-- A sequence number has been taken. -/
def Numbers (w w' : Work) : Prop := w.state.registrySequence < w'.state.registrySequence

theorem Numbers.moved {w w' : Work} (numbers : Numbers w w') : ¬ Unmoved w w' := by
  intro still
  unfold Numbers at numbers
  rw [still.registrySequence] at numbers
  exact absurd numbers (lt_irrefl _)

section Sequence

variable {w w' : Work} {kind : RecordKind} {payload : Bytes} {status : Status} {now : Step}
  {r : Except Status PUnit}

/-- A record that has a number takes it, whether it is accepted or not. -/
theorem emit_numbers (room : w.state.registrySequence ≠ maxWord)
    (ran : (emit kind payload status now).exec w = (r, w')) : Numbers w w' := by
  have applied : ∀ s, (RegistryState.apply (w.nextRecord kind payload status now)).exec w.state =
      (r, s) → w.state.registrySequence < s.registrySequence := by
    intro s ran
    have next := lt_succ room
    rcases RegistryState.apply_cases ran with ⟨-, -, unset | ahead⟩ | ⟨-, -, ⟨_, -, -, rfl⟩ | read⟩
    · exact absurd unset (succ_ne_zero room)
    · exact absurd ahead (lt_irrefl _)
    · exact next
    · obtain ⟨entry, -, enacted⟩ := read
      rw [RegistryState.enact_sequence enacted]
      exact next
  rcases emit_cases ran with ⟨s, rfl, rfl, accepted⟩ | ⟨st, s, rfl, rfl, refused⟩
  · exact applied s accepted
  · exact applied s refused

theorem emit_still (full : w.state.registrySequence = maxWord)
    (ran : (emit kind payload status now).exec w = (r, w')) :
    (∃ st, r = .error st) ∧ Unmoved w w' := by
  rw [emit_full full] at ran
  cases ran
  exact ⟨⟨_, rfl⟩, .of_state rfl rfl⟩

/-- Numbers that were taken stay taken. -/
theorem frame_numbers (now : Step) (kinds : List RecordKind) (v : Work) :
    Frame now kinds (Numbers v) := by
  refine ⟨fun kind _ payload status => .of_run fun w r w' before ran => ?_,
    fun _ _ _ _ numbers => numbers⟩
  by_cases full : w.state.registrySequence = maxWord
  · have same := (emit_still full ran).2.registrySequence
    unfold Numbers at before ⊢
    rwa [same]
  · exact lt_trans before (emit_numbers full ran)

end Sequence

section Starts

variable {ε ε' α β : Type} {w : Work} {begins : Prop}

/-- From this state the program is refused at once or takes a number, as the condition says. -/
def Starts (begins : Prop) (w : Work) (m : Prog ε Work α) : Prop :=
  ∀ r w', m.exec w = (r, w') →
    (begins → Numbers w w') ∧ (¬ begins → (∃ e, r = .error e) ∧ Unmoved w w')

namespace Starts

theorem emit {kind : RecordKind} {payload : Bytes} {status : Status} {now : Step} :
    Starts (w.state.registrySequence ≠ maxWord) w (Work.emit kind payload status now) :=
  fun _ _ ran => ⟨fun room => emit_numbers room ran, fun full => emit_still (not_not.mp full) ran⟩

theorem congr {begins' : Prop} {m : Prog ε Work α} (starts : Starts begins w m)
    (same : begins ↔ begins') : Starts begins' w m := fun r w' ran =>
  ⟨fun holds => (starts r w' ran).1 (same.mpr holds),
    fun fails => (starts r w' ran).2 fun holds => fails (same.mp holds)⟩

theorem bind {m : Prog ε Work α} {f : α → Prog ε Work β} (first : Starts begins w m)
    (rest : ∀ a, (f a).Keeps (Numbers w)) : Starts begins w (m >>= f) := by
  intro r w' ran
  rw [Prog.exec_bind] at ran
  rcases started : m.exec w with ⟨result, w₁⟩
  obtain ⟨numbers, still⟩ := first result w₁ started
  rw [started] at ran
  cases result with
  | error e =>
    cases ran
    exact ⟨numbers, fun fails => ⟨⟨e, rfl⟩, (still fails).2⟩⟩
  | ok a =>
    refine ⟨fun holds => (rest a).run (numbers holds) ran, fun fails => ?_⟩
    obtain ⟨e, failed⟩ := (still fails).1
    cases failed

theorem get {f : Work → Prog ε Work α} (rest : Starts begins w (f w)) :
    Starts begins w (MonadState.get >>= f) := by
  intro r w' ran
  rw [Prog.exec_get_bind] at ran
  exact rest r w' ran

/-- A first part that goes through and leaves everything alone. -/
theorem after {m : Prog ε Work α} {f : α → Prog ε Work β} {a : α} (idle : m.exec w = (.ok a, w))
    (rest : Starts begins w (f a)) : Starts begins w (m >>= f) := by
  intro r w' ran
  rw [Prog.exec_bind_ok idle] at ran
  exact rest r w' ran

theorem refuseIf {c : Prop} [Decidable c] {e : ε} {f : PUnit → Prog ε Work α}
    (rest : Starts begins w (f ⟨⟩)) : Starts (¬ c ∧ begins) w (Prog.refuseIf c e >>= f) := by
  intro r w' ran
  rw [Prog.exec_refuseIf] at ran
  by_cases refused : c
  · rw [if_pos refused] at ran
    cases ran
    exact ⟨fun holds => absurd refused holds.1, fun _ => ⟨⟨e, rfl⟩, .refl w⟩⟩
  · rw [if_neg refused] at ran
    obtain ⟨numbers, still⟩ := rest r w' ran
    exact ⟨fun holds => numbers holds.2, fun fails => still fun holds => fails ⟨refused, holds⟩⟩

/-- A check that is known to pass. -/
theorem check {c : Prop} [Decidable c] {e : ε} {f : PUnit → Prog ε Work α} (passes : ¬ c)
    (rest : Starts begins w (f ⟨⟩)) : Starts begins w (Prog.refuseIf c e >>= f) :=
  rest.refuseIf.congr (and_iff_right passes)

theorem mapError {m : Prog ε Work α} {g : ε → ε'} (starts : Starts begins w m) :
    Starts begins w (Prog.mapError g m) := by
  intro r w' ran
  rw [Prog.exec_mapError] at ran
  rcases started : m.exec w with ⟨result, w₁⟩
  obtain ⟨numbers, still⟩ := starts result w₁ started
  rw [started] at ran
  cases ran
  refine ⟨numbers, fun fails => ⟨?_, (still fails).2⟩⟩
  obtain ⟨e, rfl⟩ := (still fails).1
  exact ⟨g e, rfl⟩

end Starts

/-- A call that has begun is refused with a number gone; so it may only be refused at all
before it begins. -/
theorem Starts.harmless_iff {goes : Prop} {m : Prog ε Work α} {r : Except ε α} {w' : Work}
    (starts : Starts begins w m) (ran : m.exec w = (r, w'))
    (ok : begins → ((∃ a, r = .ok a) ↔ goes)) :
    ((∃ e, r = .error e) → Unmoved w w') ↔ (begins → goes) := by
  obtain ⟨numbers, still⟩ := starts r w' ran
  constructor
  · intro harmless holds
    cases r with
    | ok a => exact (ok holds).mp ⟨a, rfl⟩
    | error e => exact absurd (harmless ⟨e, rfl⟩) (numbers holds).moved
  · rintro through ⟨e, rfl⟩
    by_cases holds : begins
    · obtain ⟨a, done⟩ := (ok holds).mpr (through holds)
      cases done
    · exact (still holds).2

end Starts

section Begins

variable {w w' : Work} {now : Step}

theorem fenceScope_starts {domain : DomainId} {scope : Scope} {epoch : Epoch}
    {incarnation : IncarnationId} {superseded : GrantId} {cause : Reason} {fenceIncarnation : Bool} :
    Starts (Affords w.state 1 1) w
      (fenceScope domain scope epoch incarnation superseded cause fenceIncarnation now) :=
  (Starts.get (.refuseIf (.bind .emit fun _ => .pure _))).congr affords_fence.symm

theorem closeGrant_numbers (v : Work) (g : EpochGrant) (state : GrantState) (reason : Reason) :
    (closeGrant g state reason now).Keeps (Numbers v) :=
  (frame_numbers now [.grantClose] v).wording.closeGrant (by simp) g state reason

theorem fenceScope_numbers (v : Work) (domain : DomainId) (scope : Scope) (epoch : Epoch)
    (incarnation : IncarnationId) (superseded : GrantId) (cause : Reason)
    (fenceIncarnation : Bool) : (fenceScope domain scope epoch incarnation superseded cause
      fenceIncarnation now).Keeps (Numbers v) :=
  (frame_numbers now [.fence] v).wording.fenceScope (by simp) _ _ _ _ _ _ _

theorem emit_keeps_numbers (v : Work) (kind : RecordKind) (payload : Bytes) (status : Status) :
    (emit kind payload status now).Keeps (Numbers v) :=
  (frame_numbers now [kind] v).emit kind List.mem_cons_self payload status

/-- A release of an open grant. -/
theorem release_starts {request : ReleaseRequest} {g : EpochGrant} (now : Step)
    (found : w.state.lineage.find request.grant = some g) (active : g.isOpen = true) :
    Starts (Affords w.state 1 1) w (release request now) := by
  refine .get ?_
  rw [found]
  refine .check (not_not.mpr (EpochGrant.isOpen_iff.mp active)) ?_
  refine .bind fenceScope_starts.mapError fun token => ?_
  exact .bind (.mapError (closeGrant_numbers w g _ _)) fun _ => .pure _

theorem fence_starts {request : FenceRequest}
    (names : Names w.state request.domain request.scope) :
    Starts (Affords w.state 1 1) w (fence request now) := by
  have complete : ¬ (request.domain.isEmpty = true ∨ request.scope.isEmpty = true) := by
    simp [names.named, names.filled]
  have each : ∀ highest g, (fenceGrant request now highest g).Keeps (Numbers w) :=
    fun highest g => .bind (.mapError (fenceScope_numbers w _ _ _ _ _ _ _)) fun _ =>
      .bind (.mapError (closeGrant_numbers w _ _ _)) fun _ => .pure _
  refine .get (.check complete (.after (checkScope_runs names) ?_))
  cases w.state.lineage.openGrants.filter (fencedBy request) with
  | nil => exact .bind fenceScope_starts.mapError fun _ => .get fun _ _ => .pure _
  | cons g rest =>
    have first : Starts (Affords w.state 1 1) w (fenceGrant request now 0 g) :=
      .bind fenceScope_starts.mapError fun _ =>
        .bind (.mapError (closeGrant_numbers w _ _ _)) fun _ => .pure _
    refine .bind ?_ fun _ => .get fun _ _ => .pure _
    rw [Prog.foldlM_cons]
    exact first.bind fun highest => .foldlM each rest highest

theorem openFresh_starts {request : AllocateEpochRequest} :
    Starts (Affords w.state 1 1 ∧ Numbered w.state request.domain) w (openFresh request now) := by
  refine (Starts.get (.refuseIf (.refuseIf (.bind .emit fun _ => ?_)))).congr ?_
  · exact .bind (emit_keeps_numbers w _ _ _) fun _ => .pure _
  · rw [affords_fence, Numbered]
    tauto

/-- The first thing an allocation does is to give a grant up, or to adopt its scope. -/
theorem allocateEpoch_starts {request : AllocateEpochRequest} (now : Step)
    (admissible : Admissible w.state request) (boot : request.boot ≠ 0)
    (fresh : w.repeatedAttempt request = none) :
    Starts (Affords w.state 1 1 ∧
      (overlapped w.state request = [] → Numbered w.state request.domain)) w
      (allocateEpoch request now) := by
  have displaced : ∀ g, (displace request now g).Keeps (Numbers w) := fun g =>
    .bind (fenceScope_numbers w _ _ _ _ _ _ _) fun _ => closeGrant_numbers w _ _ _
  have opened : (openFresh request now).Keeps (Numbers w) :=
    .get fun _ _ => .refuseIf fun _ => .refuseIf fun _ => .bind (emit_keeps_numbers w _ _ _)
      fun _ => .bind (emit_keeps_numbers w _ _ _) fun _ => .pure _
  refine .get (.after (admitAllocation_runs admissible boot) ?_)
  rw [fresh]
  simp only [supersede_forM]
  cases shape : overlapped w.state request with
  | nil =>
    rw [overlapped] at shape
    rw [shape]
    refine .after (a := ⟨⟩) rfl ?_
    refine (Starts.bind (.mapError openFresh_starts) fun _ => .get fun _ _ => .pure _).congr ?_
    exact and_congr_right fun _ => ⟨fun numbered _ => numbered, fun numbered => numbered rfl⟩
  | cons g rest =>
    rw [overlapped] at shape
    rw [shape, Prog.forM_cons]
    have first : Starts (Affords w.state 1 1) w (displace request now g) :=
      .bind fenceScope_starts fun _ => closeGrant_numbers w _ _ _
    refine (Starts.bind (.mapError (.bind first fun _ => .forM displaced rest)) fun _ => ?_).congr
      (and_iff_left nofun).symm
    exact .bind (.mapError opened) fun _ => .get fun _ _ => .pure _

theorem allocateIncarnation_starts :
    Starts (w.state.incarnationCounter ≠ maxWord ∧ w.state.registrySequence ≠ maxWord) w
      (allocateIncarnation now) :=
  .get (.refuseIf (.bind .emit fun _ => .pure _))

theorem definePolicy_starts {p : ArbiterPolicy} :
    Starts (p.validate = .ok () ∧ w.state.registrySequence ≠ maxWord) w (definePolicy p now) := by
  intro r w' ran
  cases valid : p.validate with
  | error st =>
    rw [definePolicy, Prog.exec_ofExcept_bind, valid] at ran
    cases ran
    refine ⟨?_, fun _ => ⟨⟨st, rfl⟩, .refl w⟩⟩
    rintro ⟨⟨⟩, -⟩
  | ok u =>
    rw [definePolicy_exec valid] at ran
    exact Starts.emit.congr (and_iff_right rfl).symm r w' ran

theorem defineDomain_starts {d : DomainDefinition} (definable : Definable w.state d) :
    Starts (w.state.registrySequence ≠ maxWord) w (defineDomain d now) := by
  intro r w' ran
  rw [defineDomain_exec definable] at ran
  exact Starts.emit r w' ran

end Begins

section Goes

variable {w w' : Work} {now : Step}

theorem definePolicy_ok {p : ArbiterPolicy} {r : Except Status PUnit} (valid : p.validate = .ok ())
    (room : w.state.registrySequence ≠ maxWord) (ran : (definePolicy p now).exec w = (r, w')) :
    ∃ a, r = .ok a := by
  rw [definePolicy_exec valid] at ran
  have image : (w.nextRecord .policyDefine (encodePolicy
      { p with generation := w.state.policy.generation + 1 }) .ok now).entry =
      .ok (.policyDefine { p with generation := w.state.policy.generation + 1 }) :=
    read_image (f := Entry.policyDefine) (reads_policy (ArbiterPolicy.validate_iff.mp valid) _)
  rw [emit_runs room image rfl] at ran
  cases ran
  exact ⟨_, rfl⟩

/-- Of a definition that has passed its checks only the policy can still be wrong. -/
theorem defineDomain_ok_iff {d : DomainDefinition} {r : Except Status PUnit}
    (definable : Definable w.state d) (room : w.state.registrySequence ≠ maxWord)
    (ran : (defineDomain d now).exec w = (r, w')) :
    (∃ a, r = .ok a) ↔ d.policy.isEmpty = false := by
  constructor
  · rintro ⟨⟨⟩, rfl⟩
    rw [defineDomain_exec definable] at ran
    obtain ⟨entry, s, read, -⟩ := emit_ok ran
    have legible := JournalRecord.legible read
    rw [read_back (agrees_domain d) read] at legible
    exact legible.2.2
  · intro governed
    rw [defineDomain_runs definable governed room] at ran
    cases ran
    exact ⟨_, rfl⟩

/-- A commit that passes every check of the registry and of the effect boundary. -/
structure Commits (s : RegistryState) (request : CommitRequest) (now : Step) : Prop where
  names : Names s request.domain request.scope
  held : ∃ g, Holds s request g
  allowed : (effectCall request now).Allowed s.fabric

theorem Commits.worded {request : CommitRequest} (commits : Commits w.state request now) :
    Worded request := by
  have size := MutationRecord.operationValid_length commits.allowed.printable
  rintro (empty | long)
  · have valid := commits.allowed.printable
    rw [show (effectCall request now).operation = request.operation from rfl, empty] at valid
    cases valid
  · exact absurd size (not_le.mpr long)

theorem commit_refused {request : CommitRequest} {io : AppendIo}
    {r : Except CommitResponse CommitResponse} (fails : ¬ Commits w.state request now)
    (ran : (commit request now io).exec w = (r, w')) : (∃ e, r = .error e) ∧ w' = w := by
  cases commit_mutates ran with
  | refused refusal reason => exact ⟨⟨refusal, rfl⟩, rfl⟩
  | barred names worded holds admitted =>
    obtain ⟨-, rfl⟩ := (effectCall request now).refused
      (fun allowed => fails ⟨names, ⟨_, holds⟩, allowed⟩) admitted
    exact ⟨⟨_, rfl⟩, rfl⟩
  | written names worded holds admitted emitted =>
    obtain ⟨⟨st, failed⟩, -⟩ := (effectCall request now).refused
      (fun allowed => fails ⟨names, ⟨_, holds⟩, allowed⟩) admitted
    cases failed

/-- The effect is written before its record is, and stays when there is no number for that. -/
theorem commit_harmless_iff {request : CommitRequest} {io : AppendIo}
    {r : Except CommitResponse CommitResponse}
    (written : Commits w.state request now → io.settle w.state.fabric.log.length
      (fabricFormat.frame ((effectCall request now).record w.state.fabric).encode) = .done)
    (ran : (commit request now io).exec w = (r, w')) :
    ((∃ e, r = .error e) → Unmoved w w') ↔
      (Commits w.state request now → w.state.registrySequence ≠ maxWord) := by
  by_cases commits : Commits w.state request now
  · have admits := commits.allowed.runs (written commits)
    cases commit_mutates ran with
    | refused refusal fails => exact absurd ⟨commits.names, commits.worded, commits.held⟩ fails
    | barred names worded holds admitted => cases admits.symm.trans admitted
    | written names worded holds admitted emitted =>
      cases admits.symm.trans admitted
      by_cases full : w.state.registrySequence = maxWord
      · have none : ∀ fabric, (w.update fun s =>
            { s with fabric := fabric }).state.registrySequence = maxWord := fun _ => full
        obtain ⟨⟨st, rfl⟩, still⟩ := emit_still (none _) emitted
        constructor
        · intro harmless
          have same := still.fabric.symm.trans (harmless ⟨_, rfl⟩).fabric
          exact absurd same (FabricStore.accepted_ne _ _)
        · exact fun room => absurd full (room commits)
      · have room : ∀ fabric, (w.update fun s =>
            { s with fabric := fabric }).state.registrySequence ≠ maxWord := fun _ => full
        rw [@emit_runs _ _ _ _ _ .commitRecord _ (room _) rfl rfl] at emitted
        cases emitted
        exact ⟨fun _ _ => full, fun _ => by rintro ⟨_, ⟨⟩⟩⟩
  · obtain ⟨-, rfl⟩ := commit_refused commits ran
    exact ⟨fun _ holds => absurd holds commits, fun _ _ => .refl _⟩

end Goes

end Work

namespace Op

open Work (Admissible Affords Commits Definable Fits Names Numbered)

/-- Whether the call answers with Ok. -/
def ok (now : Step) (w : Work) : Op → Bool
  | .defineDomain d => ((Work.defineDomain d now).exec w).1.isOk
  | .definePolicy p => ((Work.definePolicy p now).exec w).1.isOk
  | .allocateIncarnation => ((Work.allocateIncarnation now).exec w).1.isOk
  | .allocateEpoch request => ((Work.allocateEpoch request now).exec w).1.isOk
  | .decide request sorting => ((Work.decide sorting request now).exec w).1.isOk
  | .commit request io => ((Work.commit request now io).exec w).1.isOk
  | .fence request => ((Work.fence request now).exec w).1.isOk
  | .release request => ((Work.release request now).exec w).1.isOk
  | .recoverAfterRestart => ((Work.recoverAfterRestart now).exec w).1.isOk

/-- The call passes its checks and finds the numbers for its first record. -/
def Begins (s : RegistryState) (now : Step) : Op → Prop
  | .defineDomain d => Definable s d ∧ s.registrySequence ≠ maxWord
  | .definePolicy p => p.validate = .ok () ∧ s.registrySequence ≠ maxWord
  | .allocateIncarnation => s.incarnationCounter ≠ maxWord ∧ s.registrySequence ≠ maxWord
  | .allocateEpoch request =>
    (Admissible s request ∧ request.boot ≠ 0 ∧
      ({ state := s } : Work).repeatedAttempt request = none) ∧ Affords s 1 1 ∧
      (Work.overlapped s request = [] → Numbered s request.domain)
  | .commit request _ => Commits s request now
  | .fence request => Names s request.domain request.scope ∧ Affords s 1 1
  | .release request =>
    (∃ g, s.lineage.find request.grant = some g ∧ g.isOpen = true) ∧ Affords s 1 1
  | .decide _ _ | .recoverAfterRestart => False

/-- What the call needs beyond its first record. -/
def Carries (s : RegistryState) : Op → Prop
  | .defineDomain d => d.policy.isEmpty = false
  | .allocateEpoch request =>
    Affords s (2 * (Work.overlapped s request).length + 2)
        ((Work.overlapped s request).length + 1) ∧ Numbered s request.domain ∧
      (∀ scope ∈ (Work.overlapped s request).map (·.extents), Fits s scope) ∧ Fits s request.scope
  | .commit _ _ => s.registrySequence ≠ maxWord
  | .fence request =>
    Affords s (2 * (s.lineage.openGrants.filter (Work.fencedBy request)).length)
        (s.lineage.openGrants.filter (Work.fencedBy request)).length ∧
      ∀ scope ∈ Work.raised s request, Fits s scope
  | .release request =>
    Affords s 2 1 ∧ ∀ g, s.lineage.find request.grant = some g → Fits s g.extents
  | .definePolicy _ | .allocateIncarnation | .decide _ _ | .recoverAfterRestart => True

/-- The write of a commit that comes to it does not fail. -/
def Written (s : RegistryState) (now : Step) : Op → Prop
  | .commit request io => Commits s request now → io.settle s.fabric.log.length
      (fabricFormat.frame ((Work.effectCall request now).record s.fabric).encode) = .done
  | _ => True

end Op

namespace Work

open RegistryState (Footing)

variable {w w' : Work} {now : Step}

theorem isOk_eq_false {ε α : Type} {r : Except ε α} : r.isOk = false ↔ ∃ e, r = .error e := by
  cases r with
  | ok a => exact ⟨nofun, by rintro ⟨_, ⟨⟩⟩⟩
  | error e => exact ⟨fun _ => ⟨e, rfl⟩, fun _ => rfl⟩

/-- A call that does not begin and leaves everything alone when it is refused. -/
theorem harmless_of_idle {begins goes : Prop} {ε α : Type} {r : Except ε α} (idle : ¬ begins)
    (still : (∃ e, r = .error e) → Unmoved w w') :
    ((∃ e, r = .error e) → Unmoved w w') ↔ (begins → goes) :=
  ⟨fun _ holds => absurd holds idle, fun _ => still⟩

theorem release_harmless_iff {request : ReleaseRequest} {r : Except ReleaseResponse ReleaseResponse}
    (footing : Footing w.state) (ran : (release request now).exec w = (r, w')) :
    ((∃ e, r = .error e) → Unmoved w w') ↔
      (Op.Begins w.state now (.release request) → Op.Carries w.state (.release request)) := by
  by_cases held : ∃ g, w.state.lineage.find request.grant = some g ∧ g.isOpen = true
  · obtain ⟨g, found, active⟩ := held
    have starts := (release_starts now found active).congr
      (and_iff_right (a := ∃ g, w.state.lineage.find request.grant = some g ∧ g.isOpen = true)
        ⟨g, found, active⟩).symm
    refine starts.harmless_iff ran fun _ => ?_
    have ends := (release_ends footing found active ran).ok_iff fun stuck => stuck.2
    refine ends.trans (and_congr_right fun _ => ?_)
    constructor
    · intro fits o same
      rw [found] at same
      cases same
      exact fits
    · exact fun fits => fits g found
  · refine harmless_of_idle (fun holds => held holds.1) fun _ => ?_
    rw [release_idle (fun g found => ?_) ran]
    · exact .refl w
    · cases active : g.isOpen with
      | false => rfl
      | true => exact absurd ⟨g, found, active⟩ held

theorem fence_harmless_iff {request : FenceRequest} {r : Except FenceResponse FenceResponse}
    (footing : Footing w.state) (ran : (fence request now).exec w = (r, w')) :
    ((∃ e, r = .error e) → Unmoved w w') ↔
      (Op.Begins w.state now (.fence request) → Op.Carries w.state (.fence request)) := by
  by_cases names : Names w.state request.domain request.scope
  · refine ((fence_starts names).congr (and_iff_right names).symm).harmless_iff ran fun holds => ?_
    change _ ↔ Affords w.state (2 * (w.state.lineage.openGrants.filter (fencedBy request)).length)
        (w.state.lineage.openGrants.filter (fencedBy request)).length ∧
      ∀ scope ∈ raised w.state request, Fits w.state scope
    cases matched : w.state.lineage.openGrants.filter (fencedBy request) with
    | nil =>
      have scopes : raised w.state request = [request.scope] := by rw [raised, matched]
      rw [scopes, List.forall_mem_singleton]
      refine (fence_alone footing names matched ran).1.trans ?_
      exact and_congr_left fun _ => ⟨fun _ => affords_none _, fun _ => holds.2⟩
    | cons g rest =>
      have scopes : raised w.state request = (g :: rest).map (·.extents) := by rw [raised, matched]
      have ends := fence_ends footing names (by rw [matched]; exact List.cons_ne_nil g rest) ran
      rw [matched] at ends
      rw [scopes]
      exact ends.ok_iff Blocked.misfit
  · refine harmless_of_idle (fun holds => names holds.1) fun _ => ?_
    rw [fence_idle names ran]
    exact .refl w

theorem allocateEpoch_harmless_iff {request : AllocateEpochRequest}
    {r : Except AllocateEpochResponse AllocateEpochResponse} (footing : Footing w.state)
    (ran : (allocateEpoch request now).exec w = (r, w')) :
    ((∃ e, r = .error e) → Unmoved w w') ↔
      (Op.Begins w.state now (.allocateEpoch request) →
        Op.Carries w.state (.allocateEpoch request)) := by
  by_cases fresh : Admissible w.state request ∧ request.boot ≠ 0 ∧
      w.repeatedAttempt request = none
  · obtain ⟨admissible, boot, missed⟩ := fresh
    have starts := (allocateEpoch_starts now admissible boot missed).congr
      (and_iff_right (a := Admissible w.state request ∧ request.boot ≠ 0 ∧
        ({ state := w.state } : Work).repeatedAttempt request = none)
        ⟨admissible, boot, missed⟩).symm
    exact starts.harmless_iff ran fun _ => allocateEpoch_ok_iff footing admissible boot missed ran
  · refine harmless_of_idle (fun holds => fresh holds.1) ?_
    cases allocateEpoch_allocates ran with
    | refused refusal fails => exact fun _ => .refl w
    | repeated admissible boot found => rintro ⟨_, ⟨⟩⟩
    | stuck admissible boot missed looped => exact absurd ⟨admissible, boot, missed⟩ fresh
    | cleared admissible boot missed looped opened =>
      exact absurd ⟨admissible, boot, missed⟩ fresh

theorem defineDomain_harmless_iff {d : DomainDefinition} {r : Except Status PUnit}
    (ran : (defineDomain d now).exec w = (r, w')) :
    ((∃ e, r = .error e) → Unmoved w w') ↔
      (Op.Begins w.state now (.defineDomain d) → Op.Carries w.state (.defineDomain d)) := by
  by_cases definable : Definable w.state d
  · refine ((defineDomain_starts definable).congr (and_iff_right definable).symm).harmless_iff ran
      fun holds => defineDomain_ok_iff definable holds.2 ran
  · refine harmless_of_idle (fun holds => definable holds.1) fun _ => ?_
    rw [defineDomain_idle definable ran]
    exact .refl w

end Work

namespace History

/-- Every call but the recovery, in every reachable registry: a refusal changes nothing,
exactly if the call is refused before its first record or has all it needs to go through. -/
theorem refusal_harmless_iff (h : History) (reached : Reachable (fun _ _ => True) h) (op : Op)
    (now : Step) (serves : isRecovery op = false) (written : op.Written h.live now) :
    (op.ok now h.work = false → Work.Unmoved h.work (op.after now h.work)) ↔
      (op.Begins h.live now → op.Carries h.live) := by
  have footing := reached.footing
  cases op with
  | defineDomain d =>
    unfold Op.ok
    rw [Work.isOk_eq_false]
    exact Work.defineDomain_harmless_iff (w := h.work) (Prod.eta _).symm
  | definePolicy p =>
    unfold Op.ok
    rw [Work.isOk_eq_false]
    exact Work.definePolicy_starts.harmless_iff (w := h.work) (Prod.eta _).symm fun holds =>
      iff_true_intro (Work.definePolicy_ok holds.1 holds.2 (Prod.eta _).symm)
  | allocateIncarnation =>
    unfold Op.ok
    rw [Work.isOk_eq_false]
    refine Work.allocateIncarnation_starts.harmless_iff (w := h.work) (Prod.eta _).symm fun holds =>
      iff_true_intro ?_
    rw [Work.allocateIncarnation_runs holds.1 holds.2]
    exact ⟨_, rfl⟩
  | allocateEpoch request =>
    unfold Op.ok
    rw [Work.isOk_eq_false]
    exact Work.allocateEpoch_harmless_iff (w := h.work) footing (Prod.eta _).symm
  | commit request io =>
    unfold Op.ok
    rw [Work.isOk_eq_false]
    exact Work.commit_harmless_iff (w := h.work) written (Prod.eta _).symm
  | fence request =>
    unfold Op.ok
    rw [Work.isOk_eq_false]
    exact Work.fence_harmless_iff (w := h.work) footing (Prod.eta _).symm
  | release request =>
    unfold Op.ok
    rw [Work.isOk_eq_false]
    exact Work.release_harmless_iff (w := h.work) footing (Prod.eta _).symm
  | decide request sorting =>
    have same : Op.after now h.work (.decide request sorting) = h.work :=
      Work.decide_spec (Prod.eta _).symm
    rw [same]
    exact ⟨fun _ _ => trivial, fun _ _ => .refl _⟩
  | recoverAfterRestart => cases serves

/-- A release that names no grant. -/
theorem refusal_harmless_iff_sample : ∃ h, Reachable (fun _ _ => True) h ∧
    (Op.release { grant := 7 }).ok 4 h.work = false ∧
      Work.Unmoved h.work ((Op.release { grant := 7 }).after 4 h.work) := by
  have evaluated : (sampleStart.bind (guarded (fun _ _ => true) · [
      .call (.defineDomain (sampleDomain 100 120)) 1, .call .allocateIncarnation 2,
      .call (.allocateEpoch (sampleAllocation 100 120 1 1)) 3])).map (fun h =>
        ((Op.release { grant := 7 }).ok 4 h.work, (h.live.lineage.find 7).isNone)) =
      some (false, true) := by
    decide +kernel
  obtain ⟨h, ran, shown⟩ := Option.map_eq_some_iff.mp evaluated
  obtain ⟨refused, unknown⟩ := Prod.mk.inj shown
  have reached := sample_reachable ran
  have call := refusal_harmless_iff h reached (.release { grant := 7 }) 4 rfl trivial
  refine ⟨h, reached, refused, call.mpr ?_ refused⟩
  rintro ⟨⟨g, found, -⟩, -⟩
  have none := Option.isNone_iff_eq_none.mp unknown
  rw [none] at found
  cases found

/-- Sixteen domains of 256 extents fill the table. A release of the one that is held takes a
sequence number and a token before it is refused. -/
theorem refusal_not_harmless : ¬ ∀ h, Reachable (fun _ _ => True) h → ∀ op now,
    isRecovery op = false → op.Written h.live now → op.ok now h.work = false →
      Work.Unmoved h.work (op.after now h.work) := by
  intro claimed
  obtain ⟨h, reached, tabled⟩ := tabled_all 15 (by decide)
  obtain ⟨g, grants, active, -, extents, -⟩ := tabled.held
  have found : h.work.state.lineage.find g.id = some g := by
    refine reached.footing.sound.find_eq ?_
    rw [grants]
    exact List.mem_singleton_self g
  have begins : Op.Begins h.live 0 (.release { grant := g.id }) :=
    ⟨⟨g, found, active⟩, tabled.affords le_rfl⟩
  have still : (∃ e, ((Work.release { grant := g.id } 0).exec h.work).1 = .error e) →
      Work.Unmoved h.work ((Work.release { grant := g.id } 0).exec h.work).2 := fun refused =>
    claimed h reached (.release { grant := g.id }) 0 rfl trivial (Work.isOk_eq_false.mpr refused)
  obtain ⟨-, fits⟩ := (Work.release_harmless_iff (w := h.work) reached.footing
    (Prod.eta _).symm).mp still begins
  exact tabled.crowded extents (fits g found)

end History
end SplitBrainFabric
