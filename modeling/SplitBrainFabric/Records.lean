import SplitBrainFabric.Authority
import SplitBrainFabric.Persistence

/-! The durable payloads of the registry. Every decoder agrees with its encoder: it
may refuse an image, but it never returns another value. -/

namespace SplitBrainFabric
open Words Decoder

structure InterruptMark where
  grant : GrantId := 0
  domain : DomainId := Id.empty
  epoch : Epoch := 0
  incarnation : IncarnationId := 0
  boot : BootId := 0
  markedAt : Step := 0
  reason : Reason := .interruptedByRestart
  deriving DecidableEq

structure IdempotencyEntry where
  incarnation : IncarnationId := 0
  attempt : Sequence := 0
  epoch : Epoch := 0
  token : FenceToken := 0
  grant : GrantId := 0
  validUntil : Step := 0
  registrySequence : Sequence := 0
  deriving DecidableEq

structure DomainDefinition where
  domain : DomainId := Id.empty
  node : NodeId := Id.empty
  scope : Scope := Scope.empty
  policy : PolicyId := Id.empty
  exclusive : Bool := true
  deriving DecidableEq

def encodeBootRecord (boot : BootRecord) : Bytes :=
  List.flatten [Writer.u64 boot.boot, Writer.u64 boot.incarnation, Writer.text boot.node.value,
    Writer.u64 boot.startedAt, Writer.u64 boot.endedAt, Writer.boolean boot.cleanStop,
    Writer.boolean boot.interrupted, Writer.u64 boot.registrySequence]

def decodeBootRecord : Reader.Read BootRecord := do
  let boot ← Reader.u64
  let incarnation ← Reader.u64
  let node ← Reader.identifier .corrupt
  let startedAt ← Reader.u64
  let endedAt ← Reader.u64
  let cleanStop ← Reader.boolean
  let interrupted ← Reader.boolean
  let registrySequence ← Reader.u64
  pure ⟨boot, incarnation, node, startedAt, endedAt, cleanStop, interrupted, registrySequence⟩

theorem agrees_bootRecord (boot : BootRecord) :
    Agrees decodeBootRecord (encodeBootRecord boot) boot :=
  .field (reads_u64 _).agrees <| .field (reads_u64 _).agrees <|
  .field (agrees_identifier _ _) <| .field (reads_u64 _).agrees <| .field (reads_u64 _).agrees <|
  .field (reads_boolean _).agrees <| .field (reads_boolean _).agrees <|
  .field (reads_u64 _).agrees <| Agrees.pure boot

theorem reads_bootRecord {boot : BootRecord} (placed : boot.node.isEmpty = false) :
    Reads decodeBootRecord (encodeBootRecord boot) boot :=
  .field (reads_u64 _) <| .field (reads_u64 _) <| .field (reads_identifier placed) <|
  .field (reads_u64 _) <| .field (reads_u64 _) <| .field (reads_boolean _) <|
  .field (reads_boolean _) <| .field (reads_u64 _) <| Reads.pure boot

theorem agrees_nested_scope (s : Scope) :
    Agrees (Reader.nested Scope.decode) (Writer.blob s.encode) s :=
  s.reads_nested_scope.agrees

def encodeGrant (g : EpochGrant) : Bytes :=
  List.flatten [Writer.u64 g.id, Writer.text g.domain.value, Writer.digest g.scope,
    Writer.blob g.extents.encode, Writer.u64 g.attempt, Writer.u64 g.epoch,
    Writer.u64 g.incarnation, Writer.u64 g.boot, Writer.u64 g.fenceToken, Writer.u64 g.openedAt,
    Writer.u64 g.closedAt, Writer.u16 g.state.code, Writer.u64 g.registrySequence,
    Writer.u64 g.lineageGeneration, Writer.u64 g.policyGeneration, Writer.u64 g.evidenceGeneration,
    Writer.reason g.closeReason]

def readGrantState : Reader.Read GrantState := do
  let raw ← Reader.u16
  match GrantState.fromCode raw with
  | some state => pure state
  | none => throw (.make .corrupt .invalidEnum (UInt64.ofNat raw.toNat))

theorem reads_grantState (state : GrantState) :
    Reads readGrantState (Writer.u16 state.code) state := by
  rw [← List.append_nil (Writer.u16 state.code)]
  refine (reads_u16 _).bind ?_
  rw [GrantState.fromCode_code]
  exact Reads.pure state

def decodeGrant : Reader.Read EpochGrant := do
  let id ← Reader.u64
  let domain ← Reader.identifier .corrupt
  let scope ← Reader.digest
  let extents ← Reader.nested Scope.decode
  refuseIf (extents.digest ≠ scope) (.make .corrupt .integrityMismatch)
  let attempt ← Reader.u64
  let epoch ← Reader.u64
  let incarnation ← Reader.u64
  let boot ← Reader.u64
  let fenceToken ← Reader.u64
  let openedAt ← Reader.u64
  let closedAt ← Reader.u64
  let state ← readGrantState
  let registrySequence ← Reader.u64
  let lineageGeneration ← Reader.u64
  let policyGeneration ← Reader.u64
  let evidenceGeneration ← Reader.u64
  let closeReason ← Reader.reason
  pure ⟨id, domain, scope, extents, attempt, epoch, incarnation, boot, fenceToken, openedAt,
    closedAt, state, registrySequence, lineageGeneration, policyGeneration, evidenceGeneration,
    closeReason⟩

theorem agrees_grant (g : EpochGrant) : Agrees decodeGrant (encodeGrant g) g :=
  .field (reads_u64 _).agrees <| .field (agrees_identifier _ _) <|
  .field (reads_digest _).agrees <| .field (agrees_nested_scope _) <| .refuseIf fun _ =>
  .field (reads_u64 _).agrees <| .field (reads_u64 _).agrees <| .field (reads_u64 _).agrees <|
  .field (reads_u64 _).agrees <| .field (reads_u64 _).agrees <| .field (reads_u64 _).agrees <|
  .field (reads_u64 _).agrees <| .field (reads_grantState _).agrees <|
  .field (reads_u64 _).agrees <| .field (reads_u64 _).agrees <| .field (reads_u64 _).agrees <|
  .field (reads_u64 _).agrees <| .field (reads_reason _).agrees <| Agrees.pure g

theorem reads_grant {g : EpochGrant} (named : g.domain.isEmpty = false)
    (digest : g.scope = g.extents.digest) : Reads decodeGrant (encodeGrant g) g :=
  .field (reads_u64 _) <| .field (reads_identifier named) <| .field (reads_digest _) <|
  .field g.extents.reads_nested_scope <| .refuseIf (not_not.mpr digest.symm) <|
  .field (reads_u64 _) <| .field (reads_u64 _) <| .field (reads_u64 _) <| .field (reads_u64 _) <|
  .field (reads_u64 _) <| .field (reads_u64 _) <| .field (reads_u64 _) <|
  .field (reads_grantState _) <| .field (reads_u64 _) <| .field (reads_u64 _) <|
  .field (reads_u64 _) <| .field (reads_u64 _) <| .field (reads_reason _) <| Reads.pure g

def encodeInterrupt (mark : InterruptMark) : Bytes :=
  List.flatten [Writer.u64 mark.grant, Writer.text mark.domain.value, Writer.u64 mark.epoch,
    Writer.u64 mark.incarnation, Writer.u64 mark.boot, Writer.u64 mark.markedAt,
    Writer.reason mark.reason]

def decodeInterrupt : Reader.Read InterruptMark := do
  let grant ← Reader.u64
  let domain ← Reader.identifier .corrupt
  let epoch ← Reader.u64
  let incarnation ← Reader.u64
  let boot ← Reader.u64
  let markedAt ← Reader.u64
  let reason ← Reader.reason
  pure ⟨grant, domain, epoch, incarnation, boot, markedAt, reason⟩

theorem agrees_interrupt (mark : InterruptMark) :
    Agrees decodeInterrupt (encodeInterrupt mark) mark :=
  .field (reads_u64 _).agrees <| .field (agrees_identifier _ _) <| .field (reads_u64 _).agrees <|
  .field (reads_u64 _).agrees <| .field (reads_u64 _).agrees <| .field (reads_u64 _).agrees <|
  .field (reads_reason _).agrees <| Agrees.pure mark

theorem reads_interrupt {mark : InterruptMark} (named : mark.domain.isEmpty = false) :
    Reads decodeInterrupt (encodeInterrupt mark) mark :=
  .field (reads_u64 _) <| .field (reads_identifier named) <| .field (reads_u64 _) <|
  .field (reads_u64 _) <| .field (reads_u64 _) <| .field (reads_u64 _) <|
  .field (reads_reason _) <| Reads.pure mark

def encodeIdempotency (entry : IdempotencyEntry) : Bytes :=
  List.flatten [Writer.u64 entry.incarnation, Writer.u64 entry.attempt, Writer.u64 entry.epoch,
    Writer.u64 entry.token, Writer.u64 entry.grant, Writer.u64 entry.validUntil,
    Writer.u64 entry.registrySequence]

def decodeIdempotency : Reader.Read IdempotencyEntry := do
  let incarnation ← Reader.u64
  let attempt ← Reader.u64
  let epoch ← Reader.u64
  let token ← Reader.u64
  let grant ← Reader.u64
  let validUntil ← Reader.u64
  let registrySequence ← Reader.u64
  pure ⟨incarnation, attempt, epoch, token, grant, validUntil, registrySequence⟩

theorem agrees_idempotency (entry : IdempotencyEntry) :
    Agrees decodeIdempotency (encodeIdempotency entry) entry :=
  .field (reads_u64 _).agrees <| .field (reads_u64 _).agrees <| .field (reads_u64 _).agrees <|
  .field (reads_u64 _).agrees <| .field (reads_u64 _).agrees <| .field (reads_u64 _).agrees <|
  .field (reads_u64 _).agrees <| Agrees.pure entry

def encodeDomain (d : DomainDefinition) : Bytes :=
  List.flatten [Writer.text d.domain.value, Writer.text d.node.value, Writer.blob d.scope.encode,
    Writer.text d.policy.value, Writer.boolean d.exclusive]

/-- Both names are read before either is looked at. -/
def decodeDomain : Reader.Read DomainDefinition := do
  let domainText ← Reader.text
  let nodeText ← Reader.text
  let domain ← Reader.idOf .corrupt domainText
  let node ← Reader.idOf .corrupt nodeText
  let scope ← Reader.nested Scope.decode
  let policy ← Reader.identifier .corrupt
  let exclusive ← Reader.boolean
  pure ⟨domain, node, scope, policy, exclusive⟩

theorem agrees_domain (d : DomainDefinition) : Agrees decodeDomain (encodeDomain d) d :=
  .field (reads_idText _).agrees <| .field (reads_idText _).agrees <|
  .silent (agrees_idOf _ _) <| .silent (agrees_idOf _ _) <| .field (agrees_nested_scope _) <|
  .field (agrees_identifier _ _) <| .field (reads_boolean _).agrees <| Agrees.pure d

theorem reads_domain {d : DomainDefinition} (named : d.domain.isEmpty = false)
    (placed : d.node.isEmpty = false) (governed : d.policy.isEmpty = false) :
    Reads decodeDomain (encodeDomain d) d :=
  .field (reads_idText _) <| .field (reads_idText _) <| .silent (reads_idOf named) <|
  .silent (reads_idOf placed) <| .field d.scope.reads_nested_scope <|
  .field (reads_identifier governed) <| .field (reads_boolean _) <| Reads.pure d

def encodeSlot (slot : WitnessSlot) : Bytes :=
  List.flatten [Writer.text slot.witness.value, Writer.text slot.faultDomain.value]

def decodeSlot : Reader.Read WitnessSlot := do
  let witnessText ← Reader.text
  let domainText ← Reader.text
  let witness ← Reader.idOf .invalid witnessText
  let faultDomain ← Reader.idOf .invalid domainText
  pure ⟨witness, faultDomain⟩

theorem agrees_slot (slot : WitnessSlot) : Agrees decodeSlot (encodeSlot slot) slot :=
  .field (reads_idText _).agrees <| .field (reads_idText _).agrees <|
  .silent (agrees_idOf _ _) <| .silent (agrees_idOf _ _) <| Agrees.pure slot

namespace QuorumMode

def code : QuorumMode → UInt16
  | .majorityDistinctWitnesses => 0
  | .thresholdDistinctWitnesses => 1
  | .unanimousWitnesses => 2

def fromCode (code : UInt16) : Option QuorumMode :=
  [majorityDistinctWitnesses, thresholdDistinctWitnesses, unanimousWitnesses].find? (·.code = code)

@[simp] theorem fromCode_code (m : QuorumMode) : fromCode m.code = some m := by cases m <;> rfl

def read : Reader.Read QuorumMode := do
  let raw ← Reader.u16
  match fromCode raw with
  | some mode => pure mode
  | none => throw (.make .invalid .invalidEnum (UInt64.ofNat raw.toNat))

theorem reads_mode (m : QuorumMode) : Reads read (Writer.u16 m.code) m := by
  rw [← List.append_nil (Writer.u16 m.code)]
  refine (reads_u16 _).bind ?_
  rw [fromCode_code]
  exact Reads.pure m

end QuorumMode

namespace QuorumProfile

def encode (p : QuorumProfile) : Bytes :=
  List.flatten [Writer.text p.policy.value, Writer.u64 p.generation,
    Writer.sequence encodeSlot p.witnesses, Writer.u16 p.mode.code, Writer.u32 p.threshold,
    Writer.u32 p.minFaultDomains, Writer.u64 p.evidenceHorizonSteps]

def decode : Reader.Read QuorumProfile := do
  let policy ← Reader.identifier .invalid
  let generation ← Reader.u64
  let witnesses ← Reader.sequence Limits.maxWitnessesPerProfile decodeSlot
  let mode ← QuorumMode.read
  let threshold ← Reader.u32
  let minFaultDomains ← Reader.u32
  let evidenceHorizonSteps ← Reader.u64
  pure ⟨policy, generation, witnesses, mode, threshold, minFaultDomains, evidenceHorizonSteps⟩

theorem encodeSlot_ne_nil (slot : WitnessSlot) : encodeSlot slot ≠ [] := by
  intro h
  simpa [encodeSlot] using congrArg List.length h

theorem agrees_decode {p : QuorumProfile}
    (bounded : p.witnesses.length ≤ Limits.maxWitnessesPerProfile) : Agrees decode p.encode p :=
  .field (agrees_identifier _ _) <| .field (reads_u64 _).agrees <|
  .field (agrees_sequence bounded (by decide) (fun slot _ => encodeSlot_ne_nil slot)
    fun slot _ => agrees_slot slot) <|
  .field (QuorumMode.reads_mode _).agrees <| .field (reads_u32 _).agrees <|
  .field (reads_u32 _).agrees <| .field (reads_u64 _).agrees <| Agrees.pure p

theorem encode_length {p : QuorumProfile}
    (bounded : p.witnesses.length ≤ Limits.maxWitnessesPerProfile) : p.encode.length ≤ 4400 := by
  have total := length_flatMap_le p.witnesses encodeSlot (k := 132)
    fun slot _ => by
      have first := slot.witness.length_le
      have second := slot.faultDomain.length_le
      simp only [encodeSlot, List.flatten_cons, List.flatten_nil, List.length_append,
        Writer.text_length, List.length_nil]
      omega
  have name := p.policy.length_le
  simp only [Limits.maxWitnessesPerProfile] at bounded
  simp only [encode, Writer.sequence, List.flatten_cons, List.flatten_nil, List.length_append,
    Writer.text_length, Writer.u64_length, Writer.u32_length, Writer.u16_length, List.length_nil]
  omega

theorem encode_fits {p : QuorumProfile}
    (bounded : p.witnesses.length ≤ Limits.maxWitnessesPerProfile) :
    p.encode.length ≤ Limits.maxSnapshotBytes :=
  (encode_length bounded).trans (by decide)

end QuorumProfile

def encodePolicy (p : ArbiterPolicy) : Bytes :=
  List.flatten [Writer.text p.policy.value, Writer.u64 p.generation, Writer.blob p.quorum.encode,
    Writer.boolean p.requireQuorumForExclusive, Writer.boolean p.requireLeaseForExclusive,
    Writer.boolean p.allowNonOverlappingAuthority, Writer.boolean p.fenceLowerEpochClaimants,
    Writer.boolean p.equalEpochConflictIsFatal, Writer.u64 p.leaseDefaultHorizonSteps]

def decodePolicy : Reader.Read ArbiterPolicy := do
  let policy ← Reader.identifier .corrupt
  let generation ← Reader.u64
  let quorum ← Reader.nested QuorumProfile.decode
  let requireQuorum ← Reader.boolean
  let requireLease ← Reader.boolean
  let allowNonOverlapping ← Reader.boolean
  let fenceLower ← Reader.boolean
  let equalEpochFatal ← Reader.boolean
  let horizon ← Reader.u64
  pure ⟨policy, generation, quorum, requireQuorum, requireLease, allowNonOverlapping, fenceLower,
    equalEpochFatal, horizon⟩

theorem agrees_policy {p : ArbiterPolicy}
    (bounded : p.quorum.witnesses.length ≤ Limits.maxWitnessesPerProfile) :
    Agrees decodePolicy (encodePolicy p) p :=
  .field (agrees_identifier _ _) <| .field (reads_u64 _).agrees <|
  .field (agrees_nested (QuorumProfile.encode_fits bounded)
    (QuorumProfile.agrees_decode bounded)) <|
  .field (reads_boolean _).agrees <| .field (reads_boolean _).agrees <|
  .field (reads_boolean _).agrees <| .field (reads_boolean _).agrees <|
  .field (reads_boolean _).agrees <| .field (reads_u64 _).agrees <| Agrees.pure p

theorem decodeBootRecord_yields : Yields decodeBootRecord (·.node.isEmpty = false) :=
  .skip fun _ => .skip fun _ => .bind (identifier_yields _) fun _ named =>
  .skip fun _ => .skip fun _ => .skip fun _ => .skip fun _ => .skip fun _ => .pure named

theorem decodeGrant_yields :
    Yields decodeGrant fun g => g.domain.isEmpty = false ∧ g.scope = g.extents.digest :=
  .skip fun _ => .bind (identifier_yields _) fun _ named => .skip fun _ => .skip fun _ =>
  .refuseIf fun same => .skip fun _ => .skip fun _ => .skip fun _ => .skip fun _ => .skip fun _ =>
  .skip fun _ => .skip fun _ => .skip fun _ => .skip fun _ => .skip fun _ => .skip fun _ =>
  .skip fun _ => .skip fun _ => .pure ⟨named, (not_not.mp same).symm⟩

theorem decodeInterrupt_yields : Yields decodeInterrupt (·.domain.isEmpty = false) :=
  .skip fun _ => .bind (identifier_yields _) fun _ named => .skip fun _ => .skip fun _ =>
  .skip fun _ => .skip fun _ => .skip fun _ => .pure named

theorem decodeDomain_yields : Yields decodeDomain fun d =>
    d.domain.isEmpty = false ∧ d.node.isEmpty = false ∧ d.policy.isEmpty = false :=
  .skip fun _ => .skip fun _ => .bind (idOf_yields _ _) fun _ named =>
  .bind (idOf_yields _ _) fun _ placed => .skip fun _ =>
  .bind (identifier_yields _) fun _ governed => .skip fun _ => .pure ⟨named, placed, governed⟩

theorem decodePolicy_yields :
    Yields decodePolicy (·.quorum.witnesses.length ≤ Limits.maxWitnessesPerProfile) := by
  have quorum : Yields QuorumProfile.decode
      (·.witnesses.length ≤ Limits.maxWitnessesPerProfile) :=
    .skip fun _ => .skip fun _ => .bind sequence_yields fun _ bounded =>
    .skip fun _ => .skip fun _ => .skip fun _ => .skip fun _ => .pure bounded
  exact .skip fun _ => .skip fun _ => .bind (nested_yields quorum) fun _ bounded =>
    .skip fun _ => .skip fun _ => .skip fun _ => .skip fun _ => .skip fun _ => .skip fun _ =>
    .pure bounded

def encodeExtentState (s : ExtentFenceState) : Bytes :=
  List.flatten [Writer.text s.extent.value, Writer.u64 s.highWaterToken,
    Writer.u64 s.highWaterEpoch, Writer.u64 s.ownerIncarnation, Writer.u64 s.ownerGrant,
    Writer.u64 s.updatedAt]

def decodeExtentState : Reader.Read ExtentFenceState := do
  let extent ← Reader.identifier .corrupt
  let highWaterToken ← Reader.u64
  let highWaterEpoch ← Reader.u64
  let ownerIncarnation ← Reader.u64
  let ownerGrant ← Reader.u64
  let updatedAt ← Reader.u64
  pure ⟨extent, highWaterToken, highWaterEpoch, ownerIncarnation, ownerGrant, updatedAt⟩

theorem agrees_extentState (s : ExtentFenceState) :
    Agrees decodeExtentState (encodeExtentState s) s :=
  .field (agrees_identifier _ _) <| .field (reads_u64 _).agrees <| .field (reads_u64 _).agrees <|
  .field (reads_u64 _).agrees <| .field (reads_u64 _).agrees <| .field (reads_u64 _).agrees <|
  Agrees.pure s

/-- A fence record travels with the extents its digest stands for. -/
def encodeFencePayload (record : FenceRecord) (scope : Scope) : Bytes :=
  List.flatten [Writer.u64 record.token, Writer.text record.domain.value,
    Writer.digest record.scope, Writer.blob scope.encode, Writer.u64 record.fencedEpoch,
    Writer.u64 record.fencedIncarnation, Writer.reason record.cause, Writer.u64 record.issuedAt,
    Writer.u64 record.supersededGrant, Writer.u64 record.registrySequence,
    Writer.u64 record.previousHighWater]

def decodeFencePayload : Reader.Read (FenceRecord × Scope) := do
  let token ← Reader.u64
  let domain ← Reader.identifier .corrupt
  let digest ← Reader.digest
  let scope ← Reader.nested Scope.decode
  refuseIf (scope.digest ≠ digest) (.make .corrupt .integrityMismatch)
  let fencedEpoch ← Reader.u64
  let fencedIncarnation ← Reader.u64
  let cause ← Reader.reason
  let issuedAt ← Reader.u64
  let supersededGrant ← Reader.u64
  let registrySequence ← Reader.u64
  let previousHighWater ← Reader.u64
  pure (⟨token, domain, digest, fencedEpoch, fencedIncarnation, cause, issuedAt, supersededGrant,
    registrySequence, previousHighWater⟩, scope)

theorem agrees_fencePayload (record : FenceRecord) (scope : Scope) :
    Agrees decodeFencePayload (encodeFencePayload record scope) (record, scope) :=
  .field (reads_u64 _).agrees <| .field (agrees_identifier _ _) <|
  .field (reads_digest _).agrees <| .field (agrees_nested_scope _) <| .refuseIf fun _ =>
  .field (reads_u64 _).agrees <| .field (reads_u64 _).agrees <| .field (reads_reason _).agrees <|
  .field (reads_u64 _).agrees <| .field (reads_u64 _).agrees <| .field (reads_u64 _).agrees <|
  .field (reads_u64 _).agrees <| Agrees.pure (record, scope)

theorem decodeFencePayload_yields : Yields decodeFencePayload fun p =>
    p.1.domain.isEmpty = false ∧ p.1.scope = p.2.digest :=
  .skip fun _ => .bind (identifier_yields _) fun _ named => .skip fun _ => .skip fun _ =>
  .refuseIf fun same => .skip fun _ => .skip fun _ => .skip fun _ => .skip fun _ => .skip fun _ =>
  .skip fun _ => .skip fun _ => .pure ⟨named, (not_not.mp same).symm⟩

theorem reads_fencePayload {record : FenceRecord} {scope : Scope}
    (named : record.domain.isEmpty = false) (digest : record.scope = scope.digest) :
    Reads decodeFencePayload (encodeFencePayload record scope) (record, scope) :=
  .field (reads_u64 _) <| .field (reads_identifier named) <| .field (reads_digest _) <|
  .field scope.reads_nested_scope <| .refuseIf (not_not.mpr digest.symm) <|
  .field (reads_u64 _) <| .field (reads_u64 _) <| .field (reads_reason _) <|
  .field (reads_u64 _) <| .field (reads_u64 _) <| .field (reads_u64 _) <| .field (reads_u64 _) <|
  Reads.pure (record, scope)

end SplitBrainFabric
