import SplitBrainFabric.Framing
import SplitBrainFabric.Payloads
import SplitBrainFabric.Protocol
import SplitBrainFabric.Witness

/-! The messages themselves: one record, one encoder and one decoder for each type, with
what the decoder accepts. -/

namespace SplitBrainFabric
open Words Decoder

namespace ClientKind

def code : ClientKind → UInt16
  | .coordinator => 0
  | .observer => 1
  | .witness => 2
  | .operator => 3

def fromCode (code : UInt16) : Option ClientKind :=
  [coordinator, observer, witness, operator].find? (·.code = code)

@[simp] theorem fromCode_code (k : ClientKind) : fromCode k.code = some k := by cases k <;> rfl

theorem exact_read : Exact (Reader.enum fromCode) (fun _ => True) fun k => Writer.u16 k.code :=
  exact_enum fromCode_code code_of_find

end ClientKind

structure HelloRequest where
  node : NodeId := Id.empty
  kind : ClientKind := .coordinator
  clientProtocol : UInt16 := frameVersion
  deriving DecidableEq

structure HelloResponse where
  status : Status := .ok
  session : SessionId := 0
  boot : BootId := 0
  incarnation : IncarnationId := 0
  serverProtocol : UInt16 := frameVersion
  serverIdentity : Bytes := []
  firstRequest : RequestId := 0
  deriving DecidableEq

structure DefineDomainRequest where
  envelope : RequestEnvelope := {}
  definition : DomainDefinition := {}
  deriving DecidableEq

structure DefineDomainResponse where
  status : Status := .ok
  domainGeneration : Generation := 0
  deriving DecidableEq

structure InspectRequest where
  envelope : RequestEnvelope := {}
  domain : DomainId := Id.empty
  scope : Scope := Scope.empty
  incarnation : IncarnationId := 0
  deriving DecidableEq

structure InspectResponse where
  status : Status := .ok
  report : Bytes := []
  registryGeneration : Generation := 0
  lastRegistrySequence : Sequence := 0
  deriving DecidableEq

structure AttestResponse where
  status : Status := .ok
  attestation : WitnessAttestation := {}
  deriving DecidableEq

structure WitnessStatusRequest where
  envelope : RequestEnvelope := {}
  deriving DecidableEq

structure WitnessStatusResponse where
  status : Status := .ok
  witness : WitnessId := Id.empty
  faultDomain : FaultDomainId := Id.empty
  generation : Generation := 0
  lastSequence : Sequence := 0
  attestationsIssued : UInt64 := 0
  refusalsConflict : UInt64 := 0
  refusalsReplay : UInt64 := 0
  refusalsEpochRegression : UInt64 := 0
  step : Step := 0
  deriving DecidableEq

structure ErrorResponse where
  status : Status := .ok
  detail : Bytes := []
  deriving DecidableEq

/-- The envelope every request after the handshake starts with. -/
theorem exact_envelope : Exact (Reader.nested RequestEnvelope.decode) RequestEnvelope.Encodable
    fun e => Writer.blob e.encode :=
  exact_nested RequestEnvelope.exact_decode fun e _ => e.encode_length.trans (by decide)

namespace HelloRequest

def encode (v : HelloRequest) : Bytes :=
  List.flatten [Writer.text v.node.value, Writer.u16 v.kind.code, Writer.u16 v.clientProtocol]

def decode : Reader.Read HelloRequest := do
  let node ← Reader.identifier .invalid
  let kind ← Reader.enum ClientKind.fromCode
  let clientProtocol ← Reader.u16
  refuseIf (clientProtocol ≠ frameVersion)
    (.make .unsupported .unsupportedVersion clientProtocol.toUInt64)
  pure ⟨node, kind, clientProtocol⟩

@[mk_iff] structure Encodable (v : HelloRequest) : Prop where
  node : v.node.isEmpty = false
  protocol : v.clientProtocol = frameVersion

theorem exact_decode : Exact decode Encodable encode := by
  refine ((exact_identifier .invalid).bind fun node => ClientKind.exact_read.bind fun kind =>
    exact_u16.bind fun clientProtocol =>
    .refuseIf (.pure (⟨node, kind, clientProtocol⟩ : HelloRequest))).congr ?_
  rintro ⟨node, kind, clientProtocol⟩ image
  simp [encode, encodable_iff]
  grind

end HelloRequest

namespace HelloResponse

def encode (v : HelloResponse) : Bytes :=
  List.flatten [Writer.blob v.status.encode, Writer.u64 v.session, Writer.u64 v.boot,
    Writer.u64 v.incarnation, Writer.u16 v.serverProtocol, Writer.text v.serverIdentity,
    Writer.u64 v.firstRequest]

def decode : Reader.Read HelloResponse := do
  let status ← Reader.nested Status.decode
  let session ← Reader.u64
  let boot ← Reader.u64
  let incarnation ← Reader.u64
  let serverProtocol ← Reader.u16
  let serverIdentity ← Reader.text
  let firstRequest ← Reader.u64
  pure ⟨status, session, boot, incarnation, serverProtocol, serverIdentity, firstRequest⟩

def Encodable (v : HelloResponse) : Prop := v.serverIdentity.length < 65536

theorem exact_decode : Exact decode Encodable encode := by
  refine (exact_nestedStatus.bind fun status => exact_u64.bind fun session =>
    exact_u64.bind fun boot => exact_u64.bind fun incarnation =>
    exact_u16.bind fun serverProtocol => exact_text.bind fun serverIdentity =>
    exact_u64.bind fun firstRequest => .pure (⟨status, session, boot, incarnation, serverProtocol,
      serverIdentity, firstRequest⟩ : HelloResponse)).congr ?_
  rintro ⟨⟩ image
  simp [encode, Encodable]

end HelloResponse

namespace AllocateEpochRequest

def encodeWith (scope : Bytes) (v : AllocateEpochRequest) : Bytes :=
  List.flatten [Writer.blob v.envelope.encode, Writer.text v.domain.value, Writer.blob scope,
    Writer.u64 v.incarnation, Writer.u64 v.boot, Writer.u64 v.attemptSequence,
    encodeWallClock v.requestedAt]

def encode (v : AllocateEpochRequest) : Bytes := v.encodeWith v.scope.encode

def decode : Reader.Read AllocateEpochRequest := do
  let envelope ← Reader.nested RequestEnvelope.decode
  let domain ← Reader.identifier .invalid
  let scope ← Reader.nested Scope.decode
  let incarnation ← Reader.u64
  let boot ← Reader.u64
  let attemptSequence ← Reader.u64
  let requestedAt ← decodeWallClock
  pure ⟨envelope, domain, scope, incarnation, boot, attemptSequence, requestedAt⟩

@[mk_iff] structure Encodable (v : AllocateEpochRequest) : Prop where
  envelope : v.envelope.Encodable
  domain : v.domain.isEmpty = false

theorem spells_decode : Spells decode fun v image =>
    v.Encodable ∧ ∃ scope, v.scope.Spelled scope ∧ image = v.encodeWith scope := by
  refine (exact_envelope.bind fun envelope => (exact_identifier .invalid).bind fun domain =>
    spells_nestedScope.bind fun scope => exact_u64.bind fun incarnation =>
    exact_u64.bind fun boot => exact_u64.bind fun attemptSequence =>
    exact_wallClock.bind fun requestedAt => .pure (⟨envelope, domain, scope, incarnation, boot,
      attemptSequence, requestedAt⟩ : AllocateEpochRequest)).congr ?_
  rintro ⟨⟩ image
  simp [encodeWith, encodable_iff]
  grind

end AllocateEpochRequest

namespace AllocateEpochResponse

def encode (v : AllocateEpochResponse) : Bytes :=
  List.flatten [Writer.blob v.status.encode, Writer.u64 v.epoch, Writer.u64 v.fenceToken,
    Writer.u64 v.grant, Writer.u64 v.validUntil, Writer.u64 v.lineageGeneration,
    Writer.u64 v.policyGeneration, Writer.u64 v.fenceGeneration, Writer.text v.policy.value,
    Writer.u64 v.allocationStep]

/-- A refused allocation names no policy. -/
def decode : Reader.Read AllocateEpochResponse := do
  let status ← Reader.nested Status.decode
  let epoch ← Reader.u64
  let fenceToken ← Reader.u64
  let grant ← Reader.u64
  let validUntil ← Reader.u64
  let lineageGeneration ← Reader.u64
  let policyGeneration ← Reader.u64
  let fenceGeneration ← Reader.u64
  let policy ← Reader.optionalId .invalid
  let allocationStep ← Reader.u64
  pure ⟨status, epoch, fenceToken, grant, validUntil, lineageGeneration, policyGeneration,
    fenceGeneration, policy, allocationStep⟩

theorem exact_decode : Exact decode (fun _ => True) encode := by
  refine (exact_nestedStatus.bind fun status => exact_u64.bind fun epoch =>
    exact_u64.bind fun fenceToken => exact_u64.bind fun grant =>
    exact_u64.bind fun validUntil => exact_u64.bind fun lineageGeneration =>
    exact_u64.bind fun policyGeneration => exact_u64.bind fun fenceGeneration =>
    (exact_optionalId .invalid).bind fun policy => exact_u64.bind fun allocationStep =>
      .pure (⟨status, epoch, fenceToken, grant, validUntil, lineageGeneration, policyGeneration,
        fenceGeneration, policy, allocationStep⟩ : AllocateEpochResponse)).congr ?_
  rintro ⟨⟩ image
  simp [encode]

end AllocateEpochResponse

namespace DecideRequest

def encodeWith (scope : Bytes) (v : DecideRequest) : Bytes :=
  List.flatten [Writer.blob v.envelope.encode, Writer.text v.domain.value, Writer.blob scope,
    Writer.u64 v.epoch, Writer.u64 v.incarnation, Writer.u64 v.boot,
    Writer.u64 v.presentedFenceToken, Writer.u16 v.mode.code, Writer.u64 v.attemptSequence,
    Writer.blob v.evidence.encode, encodeWallClock v.requestedAt]

def encode (v : DecideRequest) : Bytes := v.encodeWith v.scope.encode

def decode : Reader.Read DecideRequest := do
  let envelope ← Reader.nested RequestEnvelope.decode
  let domain ← Reader.identifier .invalid
  let scope ← Reader.nested Scope.decode
  let epoch ← Reader.u64
  let incarnation ← Reader.u64
  let boot ← Reader.u64
  let presentedFenceToken ← Reader.u64
  let mode ← Reader.enum AuthorityMode.fromCode
  let attemptSequence ← Reader.u64
  let evidence ← Reader.nested EvidenceBundle.decode
  let requestedAt ← decodeWallClock
  pure ⟨envelope, domain, scope, epoch, incarnation, boot, presentedFenceToken, mode,
    attemptSequence, evidence, requestedAt⟩

@[mk_iff] structure Encodable (v : DecideRequest) : Prop where
  envelope : v.envelope.Encodable
  domain : v.domain.isEmpty = false
  evidence : v.evidence.Encodable

theorem spells_decode : Spells decode fun v image =>
    v.Encodable ∧ ∃ scope, v.scope.Spelled scope ∧ image = v.encodeWith scope := by
  have evidence := exact_nested EvidenceBundle.exact_decode fun b sound =>
    (EvidenceBundle.encode_length sound).trans (by decide)
  refine (exact_envelope.bind fun envelope => (exact_identifier .invalid).bind fun domain =>
    spells_nestedScope.bind fun scope => exact_u64.bind fun epoch =>
    exact_u64.bind fun incarnation => exact_u64.bind fun boot =>
    exact_u64.bind fun presentedFenceToken => AuthorityMode.exact_read.bind fun mode =>
    exact_u64.bind fun attemptSequence => evidence.bind fun evidence =>
    exact_wallClock.bind fun requestedAt => .pure (⟨envelope, domain, scope, epoch, incarnation,
      boot, presentedFenceToken, mode, attemptSequence, evidence, requestedAt⟩ :
        DecideRequest)).congr ?_
  rintro ⟨⟩ image
  simp [encodeWith, encodable_iff]
  grind

end DecideRequest

namespace DecideResponse

def encodeWith (decision : Bytes) (v : DecideResponse) : Bytes :=
  List.flatten [Writer.blob v.status.encode, Writer.blob decision]

def encode (v : DecideResponse) : Bytes := v.encodeWith v.decision.encode

def decode : Reader.Read DecideResponse := do
  let status ← Reader.nested Status.decode
  let decision ← Reader.nested AuthorityDecision.decode
  pure ⟨status, decision⟩

theorem spells_decode : Spells decode fun v image =>
    ∃ decision, v.decision.Spelled decision ∧ image = v.encodeWith decision := by
  have decision := spells_nested AuthorityDecision.spells_decode fun d i spelled =>
    spelled.length
  refine (exact_nestedStatus.bind fun status => decision.bind fun decision =>
    .pure (⟨status, decision⟩ : DecideResponse)).congr ?_
  rintro ⟨⟩ image
  simp [encodeWith]

end DecideResponse

namespace CommitRequest

/-- An operation that is too long is not sent at all. -/
def encodeWith (scope : Bytes) (v : CommitRequest) : Bytes :=
  if Limits.maxTextLength < v.operation.length then []
  else List.flatten [Writer.blob v.envelope.encode, Writer.text v.domain.value, Writer.blob scope,
    Writer.u64 v.epoch, Writer.u64 v.incarnation, Writer.u64 v.grant, Writer.u64 v.fenceToken,
    Writer.u64 v.attemptSequence, Writer.text v.operation, Writer.digest v.payloadDigest,
    encodeWallClock v.requestedAt]

def encode (v : CommitRequest) : Bytes := v.encodeWith v.scope.encode

def decode : Reader.Read CommitRequest := do
  let envelope ← Reader.nested RequestEnvelope.decode
  let domain ← Reader.identifier .invalid
  let scope ← Reader.nested Scope.decode
  let epoch ← Reader.u64
  let incarnation ← Reader.u64
  let grant ← Reader.u64
  let fenceToken ← Reader.u64
  let attemptSequence ← Reader.u64
  let operation ← Reader.text
  refuseIf (Limits.maxTextLength < operation.length)
    (.make .exhausted .impossibleLength (UInt64.ofNat operation.length))
  let payloadDigest ← Reader.digest
  let requestedAt ← decodeWallClock
  pure ⟨envelope, domain, scope, epoch, incarnation, grant, fenceToken, attemptSequence, operation,
    payloadDigest, requestedAt⟩

@[mk_iff] structure Encodable (v : CommitRequest) : Prop where
  envelope : v.envelope.Encodable
  domain : v.domain.isEmpty = false
  operation : v.operation.length ≤ Limits.maxTextLength

theorem spells_decode : Spells decode fun v image =>
    v.Encodable ∧ ∃ scope, v.scope.Spelled scope ∧ image = v.encodeWith scope := by
  refine (exact_envelope.bind fun envelope => (exact_identifier .invalid).bind fun domain =>
    spells_nestedScope.bind fun scope => exact_u64.bind fun epoch =>
    exact_u64.bind fun incarnation => exact_u64.bind fun grant =>
    exact_u64.bind fun fenceToken => exact_u64.bind fun attemptSequence =>
    exact_text.bind fun operation => .refuseIf (exact_digest.bind fun payloadDigest =>
    exact_wallClock.bind fun requestedAt => .pure (⟨envelope, domain, scope, epoch, incarnation,
      grant, fenceToken, attemptSequence, operation, payloadDigest, requestedAt⟩ :
        CommitRequest))).congr ?_
  rintro ⟨⟩ image
  simp [encodeWith, encodable_iff, Limits.maxTextLength]
  grind

end CommitRequest

namespace CommitResponse

def encode (v : CommitResponse) : Bytes :=
  List.flatten [Writer.blob v.status.encode, Writer.u64 v.storeSequence,
    Writer.u64 v.admittedToken, Writer.digest v.effectDigest, Writer.boolean v.verified]

def decode : Reader.Read CommitResponse := do
  let status ← Reader.nested Status.decode
  let storeSequence ← Reader.u64
  let admittedToken ← Reader.u64
  let effectDigest ← Reader.digest
  let verified ← Reader.boolean
  pure ⟨status, storeSequence, admittedToken, effectDigest, verified⟩

theorem exact_decode : Exact decode (fun _ => True) encode := by
  refine (exact_nestedStatus.bind fun status => exact_u64.bind fun storeSequence =>
    exact_u64.bind fun admittedToken => exact_digest.bind fun effectDigest =>
    exact_boolean.bind fun verified => .pure (⟨status, storeSequence, admittedToken, effectDigest,
      verified⟩ : CommitResponse)).congr ?_
  rintro ⟨⟩ image
  simp [encode, -Bool.exists_bool]

end CommitResponse

namespace FenceRequest

def encodeWith (scope : Bytes) (v : FenceRequest) : Bytes :=
  List.flatten [Writer.blob v.envelope.encode, Writer.text v.domain.value, Writer.blob scope,
    Writer.u64 v.epoch, Writer.u64 v.incarnation, Writer.reason v.cause]

def encode (v : FenceRequest) : Bytes := v.encodeWith v.scope.encode

def decode : Reader.Read FenceRequest := do
  let envelope ← Reader.nested RequestEnvelope.decode
  let domain ← Reader.identifier .invalid
  let scope ← Reader.nested Scope.decode
  let epoch ← Reader.u64
  let incarnation ← Reader.u64
  let cause ← Reader.reason
  pure ⟨envelope, domain, scope, epoch, incarnation, cause⟩

@[mk_iff] structure Encodable (v : FenceRequest) : Prop where
  envelope : v.envelope.Encodable
  domain : v.domain.isEmpty = false

theorem spells_decode : Spells decode fun v image =>
    v.Encodable ∧ ∃ scope, v.scope.Spelled scope ∧ image = v.encodeWith scope := by
  refine (exact_envelope.bind fun envelope => (exact_identifier .invalid).bind fun domain =>
    spells_nestedScope.bind fun scope => exact_u64.bind fun epoch =>
    exact_u64.bind fun incarnation => exact_reason.bind fun cause =>
      .pure (⟨envelope, domain, scope, epoch, incarnation, cause⟩ : FenceRequest)).congr ?_
  rintro ⟨⟩ image
  simp [encodeWith, encodable_iff]
  grind

end FenceRequest

namespace FenceResponse

def encode (v : FenceResponse) : Bytes :=
  List.flatten [Writer.blob v.status.encode, Writer.u64 v.newHighWater,
    Writer.u64 v.registrySequence]

def decode : Reader.Read FenceResponse := do
  let status ← Reader.nested Status.decode
  let newHighWater ← Reader.u64
  let registrySequence ← Reader.u64
  pure ⟨status, newHighWater, registrySequence⟩

theorem exact_decode : Exact decode (fun _ => True) encode := by
  refine (exact_nestedStatus.bind fun status => exact_u64.bind fun newHighWater =>
    exact_u64.bind fun registrySequence =>
      .pure (⟨status, newHighWater, registrySequence⟩ : FenceResponse)).congr ?_
  rintro ⟨⟩ image
  simp [encode]

end FenceResponse

namespace ReleaseRequest

def encode (v : ReleaseRequest) : Bytes :=
  List.flatten [Writer.blob v.envelope.encode, Writer.u64 v.grant, Writer.reason v.cause]

def decode : Reader.Read ReleaseRequest := do
  let envelope ← Reader.nested RequestEnvelope.decode
  let grant ← Reader.u64
  let cause ← Reader.reason
  pure ⟨envelope, grant, cause⟩

def Encodable (v : ReleaseRequest) : Prop := v.envelope.Encodable

theorem exact_decode : Exact decode Encodable encode := by
  refine (exact_envelope.bind fun envelope => exact_u64.bind fun grant =>
    exact_reason.bind fun cause => .pure (⟨envelope, grant, cause⟩ : ReleaseRequest)).congr ?_
  rintro ⟨⟩ image
  simp [encode, Encodable]

end ReleaseRequest

namespace ReleaseResponse

def encode (v : ReleaseResponse) : Bytes :=
  List.flatten [Writer.blob v.status.encode, Writer.u64 v.closedEpoch, Writer.u64 v.newHighWater]

def decode : Reader.Read ReleaseResponse := do
  let status ← Reader.nested Status.decode
  let closedEpoch ← Reader.u64
  let newHighWater ← Reader.u64
  pure ⟨status, closedEpoch, newHighWater⟩

theorem exact_decode : Exact decode (fun _ => True) encode := by
  refine (exact_nestedStatus.bind fun status => exact_u64.bind fun closedEpoch =>
    exact_u64.bind fun newHighWater =>
      .pure (⟨status, closedEpoch, newHighWater⟩ : ReleaseResponse)).congr ?_
  rintro ⟨⟩ image
  simp [encode]

end ReleaseResponse

namespace InspectRequest

def encodeWith (scope : Bytes) (v : InspectRequest) : Bytes :=
  List.flatten [Writer.blob v.envelope.encode, Writer.text v.domain.value, Writer.blob scope,
    Writer.u64 v.incarnation]

def encode (v : InspectRequest) : Bytes := v.encodeWith v.scope.encode

def decode : Reader.Read InspectRequest := do
  let envelope ← Reader.nested RequestEnvelope.decode
  let domain ← Reader.identifier .invalid
  let scope ← Reader.nested Scope.decode
  let incarnation ← Reader.u64
  pure ⟨envelope, domain, scope, incarnation⟩

@[mk_iff] structure Encodable (v : InspectRequest) : Prop where
  envelope : v.envelope.Encodable
  domain : v.domain.isEmpty = false

theorem spells_decode : Spells decode fun v image =>
    v.Encodable ∧ ∃ scope, v.scope.Spelled scope ∧ image = v.encodeWith scope := by
  refine (exact_envelope.bind fun envelope => (exact_identifier .invalid).bind fun domain =>
    spells_nestedScope.bind fun scope => exact_u64.bind fun incarnation =>
      .pure (⟨envelope, domain, scope, incarnation⟩ : InspectRequest)).congr ?_
  rintro ⟨⟩ image
  simp [encodeWith, encodable_iff]
  grind

end InspectRequest

namespace InspectResponse

/-- A report that is too long is not sent at all. -/
def encode (v : InspectResponse) : Bytes :=
  if Limits.maxExplanationBytes * 8 < v.report.length then []
  else List.flatten [Writer.blob v.status.encode, Writer.text v.report,
    Writer.u64 v.registryGeneration, Writer.u64 v.lastRegistrySequence]

def decode : Reader.Read InspectResponse := do
  let status ← Reader.nested Status.decode
  let report ← Reader.text
  refuseIf (Limits.maxExplanationBytes * 8 < report.length)
    (.make .exhausted .impossibleLength (UInt64.ofNat report.length))
  let registryGeneration ← Reader.u64
  let lastRegistrySequence ← Reader.u64
  pure ⟨status, report, registryGeneration, lastRegistrySequence⟩

def Encodable (v : InspectResponse) : Prop := v.report.length ≤ Limits.maxExplanationBytes * 8

theorem exact_decode : Exact decode Encodable encode := by
  refine (exact_nestedStatus.bind fun status => exact_text.bind fun report =>
    .refuseIf (exact_u64.bind fun registryGeneration =>
    exact_u64.bind fun lastRegistrySequence => .pure (⟨status, report, registryGeneration,
      lastRegistrySequence⟩ : InspectResponse))).congr ?_
  rintro ⟨⟩ image
  simp [encode, Encodable, Limits.maxExplanationBytes]
  grind

end InspectResponse

namespace AttestRequest

def encodeWith (scope : Bytes) (v : AttestRequest) : Bytes :=
  List.flatten [Writer.blob v.envelope.encode, Writer.text v.subjectDomain.value,
    Writer.blob scope, Writer.u64 v.epoch, Writer.u64 v.incarnation, Writer.u64 v.fenceToken,
    Writer.u64 v.policyGeneration, Writer.u64 v.requesterStep, encodeWallClock v.requestedAt]

def encode (v : AttestRequest) : Bytes := v.encodeWith v.subjectScope.encode

def decode : Reader.Read AttestRequest := do
  let envelope ← Reader.nested RequestEnvelope.decode
  let subjectDomain ← Reader.identifier .invalid
  let subjectScope ← Reader.nested Scope.decode
  let epoch ← Reader.u64
  let incarnation ← Reader.u64
  let fenceToken ← Reader.u64
  let policyGeneration ← Reader.u64
  let requesterStep ← Reader.u64
  let requestedAt ← decodeWallClock
  pure ⟨envelope, subjectDomain, subjectScope, epoch, incarnation, fenceToken, policyGeneration,
    requesterStep, requestedAt⟩

@[mk_iff] structure Encodable (v : AttestRequest) : Prop where
  envelope : v.envelope.Encodable
  subjectDomain : v.subjectDomain.isEmpty = false

theorem spells_decode : Spells decode fun v image =>
    v.Encodable ∧ ∃ scope, v.subjectScope.Spelled scope ∧ image = v.encodeWith scope := by
  refine (exact_envelope.bind fun envelope => (exact_identifier .invalid).bind fun subjectDomain =>
    spells_nestedScope.bind fun subjectScope => exact_u64.bind fun epoch =>
    exact_u64.bind fun incarnation => exact_u64.bind fun fenceToken =>
    exact_u64.bind fun policyGeneration => exact_u64.bind fun requesterStep =>
    exact_wallClock.bind fun requestedAt => .pure (⟨envelope, subjectDomain, subjectScope, epoch,
      incarnation, fenceToken, policyGeneration, requesterStep, requestedAt⟩ :
        AttestRequest)).congr ?_
  rintro ⟨⟩ image
  simp [encodeWith, encodable_iff]
  grind

end AttestRequest

namespace AttestResponse

def encode (v : AttestResponse) : Bytes :=
  List.flatten [Writer.blob v.status.encode, Writer.blob v.attestation.encode]

def decode : Reader.Read AttestResponse := do
  let status ← Reader.nested Status.decode
  let attestation ← Reader.nested WitnessAttestation.decode
  pure ⟨status, attestation⟩

def Encodable (v : AttestResponse) : Prop := v.attestation.Encodable

theorem exact_decode : Exact decode Encodable encode := by
  have attestation := exact_nested WitnessAttestation.exact_decode fun a _ =>
    a.encode_length.trans (by decide)
  refine (exact_nestedStatus.bind fun status => attestation.bind fun attestation =>
    .pure (⟨status, attestation⟩ : AttestResponse)).congr ?_
  rintro ⟨⟩ image
  simp [encode, Encodable]

end AttestResponse

namespace WitnessStatusRequest

def encode (v : WitnessStatusRequest) : Bytes := Writer.blob v.envelope.encode

def decode : Reader.Read WitnessStatusRequest := do
  let envelope ← Reader.nested RequestEnvelope.decode
  pure ⟨envelope⟩

def Encodable (v : WitnessStatusRequest) : Prop := v.envelope.Encodable

theorem exact_decode : Exact decode Encodable encode := by
  refine (exact_envelope.bind fun envelope =>
    .pure (⟨envelope⟩ : WitnessStatusRequest)).congr ?_
  rintro ⟨⟩ image
  simp [encode, Encodable]

end WitnessStatusRequest

namespace WitnessStatusResponse

def encode (v : WitnessStatusResponse) : Bytes :=
  List.flatten [Writer.blob v.status.encode, Writer.text v.witness.value,
    Writer.text v.faultDomain.value, Writer.u64 v.generation, Writer.u64 v.lastSequence,
    Writer.u64 v.attestationsIssued, Writer.u64 v.refusalsConflict, Writer.u64 v.refusalsReplay,
    Writer.u64 v.refusalsEpochRegression, Writer.u64 v.step]

def decode : Reader.Read WitnessStatusResponse := do
  let status ← Reader.nested Status.decode
  let witnessText ← Reader.text
  let domainText ← Reader.text
  let witness ← Reader.idOf .invalid witnessText
  let faultDomain ← Reader.idOf .invalid domainText
  let generation ← Reader.u64
  let lastSequence ← Reader.u64
  let attestationsIssued ← Reader.u64
  let refusalsConflict ← Reader.u64
  let refusalsReplay ← Reader.u64
  let refusalsEpochRegression ← Reader.u64
  let step ← Reader.u64
  pure ⟨status, witness, faultDomain, generation, lastSequence, attestationsIssued,
    refusalsConflict, refusalsReplay, refusalsEpochRegression, step⟩

def Encodable (v : WitnessStatusResponse) : Prop :=
  v.witness.isEmpty = false ∧ v.faultDomain.isEmpty = false

theorem exact_decode : Exact decode Encodable encode := by
  refine (exact_nestedStatus.bind fun status => exact_text.bind fun witnessText =>
    exact_text.bind fun domainText => (spells_idOf .invalid witnessText).bind fun witness =>
    (spells_idOf .invalid domainText).bind fun faultDomain => exact_u64.bind fun generation =>
    exact_u64.bind fun lastSequence => exact_u64.bind fun attestationsIssued =>
    exact_u64.bind fun refusalsConflict => exact_u64.bind fun refusalsReplay =>
    exact_u64.bind fun refusalsEpochRegression => exact_u64.bind fun step =>
      .pure (⟨status, witness, faultDomain, generation, lastSequence, attestationsIssued,
        refusalsConflict, refusalsReplay, refusalsEpochRegression, step⟩ :
          WitnessStatusResponse)).congr ?_
  rintro ⟨status, witness, faultDomain⟩ image
  have first := witness.length_le
  have second := faultDomain.length_le
  simp [encode, Encodable]
  grind

end WitnessStatusResponse

namespace DefineDomainRequest

def encodeWith (definition : Bytes) (v : DefineDomainRequest) : Bytes :=
  List.flatten [Writer.blob v.envelope.encode, Writer.blob definition]

def encode (v : DefineDomainRequest) : Bytes := v.encodeWith v.definition.encode

def decode : Reader.Read DefineDomainRequest := do
  let envelope ← Reader.nested RequestEnvelope.decode
  let definition ← Reader.nested DomainDefinition.decode
  pure ⟨envelope, definition⟩

def Encodable (v : DefineDomainRequest) : Prop :=
  v.envelope.Encodable ∧ v.definition.Encodable

theorem spells_decode : Spells decode fun v image => v.envelope.Encodable ∧
    ∃ definition, v.definition.Spelled definition ∧ image = v.encodeWith definition := by
  have definition := spells_nested DomainDefinition.spells_decode fun d i spelled =>
    spelled.length
  refine (exact_envelope.bind fun envelope => definition.bind fun definition =>
    .pure (⟨envelope, definition⟩ : DefineDomainRequest)).congr ?_
  rintro ⟨⟩ image
  simp [encodeWith]

end DefineDomainRequest

namespace DefineDomainResponse

def encode (v : DefineDomainResponse) : Bytes :=
  List.flatten [Writer.blob v.status.encode, Writer.u64 v.domainGeneration]

def decode : Reader.Read DefineDomainResponse := do
  let status ← Reader.nested Status.decode
  let domainGeneration ← Reader.u64
  pure ⟨status, domainGeneration⟩

theorem exact_decode : Exact decode (fun _ => True) encode := by
  refine (exact_nestedStatus.bind fun status => exact_u64.bind fun domainGeneration =>
    .pure (⟨status, domainGeneration⟩ : DefineDomainResponse)).congr ?_
  rintro ⟨⟩ image
  simp [encode]

end DefineDomainResponse

namespace ErrorResponse

/-- A detail that is too long is not sent at all. -/
def encode (v : ErrorResponse) : Bytes :=
  if Limits.maxExplanationBytes < v.detail.length then []
  else List.flatten [Writer.blob v.status.encode, Writer.text v.detail]

def decode : Reader.Read ErrorResponse := do
  let status ← Reader.nested Status.decode
  let detail ← Reader.text
  refuseIf (Limits.maxExplanationBytes < detail.length)
    (.make .exhausted .impossibleLength (UInt64.ofNat detail.length))
  pure ⟨status, detail⟩

def Encodable (v : ErrorResponse) : Prop := v.detail.length ≤ Limits.maxExplanationBytes

theorem exact_decode : Exact decode Encodable encode := by
  refine (exact_nestedStatus.bind fun status => exact_text.bind fun detail =>
    .refuseIf (.pure (⟨status, detail⟩ : ErrorResponse))).congr ?_
  rintro ⟨⟩ image
  simp [encode, Encodable, Limits.maxExplanationBytes]
  grind

end ErrorResponse

end SplitBrainFabric
