import SplitBrainFabric.Registry
import SplitBrainFabric.Session

/-! Requests and responses of the registry, as the handlers see them. -/

namespace SplitBrainFabric
open Words

structure AllocateEpochRequest where
  envelope : RequestEnvelope := {}
  domain : DomainId := Id.empty
  scope : Scope := Scope.empty
  incarnation : IncarnationId := 0
  boot : BootId := 0
  attemptSequence : Sequence := 0
  requestedAt : WallClockReading := {}

structure AllocateEpochResponse where
  status : Status := .ok
  epoch : Epoch := 0
  fenceToken : FenceToken := 0
  grant : GrantId := 0
  validUntil : Step := 0
  lineageGeneration : Generation := 0
  policyGeneration : Generation := 0
  fenceGeneration : Generation := 0
  policy : PolicyId := Id.empty
  allocationStep : Step := 0
  deriving DecidableEq

structure DecideRequest where
  envelope : RequestEnvelope := {}
  domain : DomainId := Id.empty
  scope : Scope := Scope.empty
  epoch : Epoch := 0
  incarnation : IncarnationId := 0
  boot : BootId := 0
  presentedFenceToken : FenceToken := 0
  mode : AuthorityMode := .exclusiveMutation
  attemptSequence : Sequence := 0
  evidence : EvidenceBundle := {}
  requestedAt : WallClockReading := {}

structure DecideResponse where
  status : Status := .ok
  decision : AuthorityDecision := {}
  deriving DecidableEq

structure CommitRequest where
  envelope : RequestEnvelope := {}
  domain : DomainId := Id.empty
  scope : Scope := Scope.empty
  epoch : Epoch := 0
  incarnation : IncarnationId := 0
  grant : GrantId := 0
  fenceToken : FenceToken := 0
  attemptSequence : Sequence := 0
  operation : Bytes := []
  payloadDigest : Digest256 := Digest256.zero
  requestedAt : WallClockReading := {}

structure CommitResponse where
  status : Status := .ok
  storeSequence : Sequence := 0
  admittedToken : FenceToken := 0
  effectDigest : Digest256 := Digest256.zero
  verified : Bool := false
  deriving DecidableEq

structure FenceRequest where
  envelope : RequestEnvelope := {}
  domain : DomainId := Id.empty
  scope : Scope := Scope.empty
  epoch : Epoch := 0
  incarnation : IncarnationId := 0
  cause : Reason := .none

structure FenceResponse where
  status : Status := .ok
  newHighWater : FenceToken := 0
  registrySequence : Sequence := 0
  deriving DecidableEq

structure ReleaseRequest where
  envelope : RequestEnvelope := {}
  grant : GrantId := 0
  cause : Reason := .none

structure ReleaseResponse where
  status : Status := .ok
  closedEpoch : Epoch := 0
  newHighWater : FenceToken := 0
  deriving DecidableEq

end SplitBrainFabric
