import SplitBrainFabric.Evidence
import SplitBrainFabric.Fence
import SplitBrainFabric.Lineage

/-! The authority decision: a pure function of a request and a view of the registry.
Exactly one verdict carries authority. -/

namespace SplitBrainFabric
open Words

inductive AuthorityMode where
  | observation | eligibilityProbe | recommendationRequest | sharedRead | exclusiveMutation
  deriving DecidableEq

inductive AuthorityVerdict where
  | authoritative | fenced | observeOnly | eligible | recommended | acknowledged | applied
  | unknown | stale | conflict | invalid | unsupported | refused | interrupted
  deriving DecidableEq

/-- Reason codes without repetition, at most sixteen of them. -/
structure Explanation where
  codes : List Reason := []
  deriving DecidableEq

def Explanation.add (e : Explanation) (reason : Reason) : Explanation :=
  if reason = .none ∨ reason ∈ e.codes ∨ Limits.maxExplanationCodes ≤ e.codes.length then e
  else ⟨e.codes ++ [reason]⟩

structure AuthorityVector where
  domain : DomainId := Id.empty
  scope : Digest256 := Digest256.zero
  epoch : Epoch := 0
  incarnation : IncarnationId := 0
  fenceToken : FenceToken := 0
  grant : GrantId := 0
  authoritySequence : Sequence := 1
  policyGeneration : Generation := 0
  evidenceGeneration : Generation := 0
  fenceGeneration : Generation := 0
  deriving DecidableEq

structure AuthorityRequest where
  claim : ClaimId := Id.empty
  domain : DomainId := Id.empty
  scope : Scope := Scope.empty
  epoch : Epoch := 0
  incarnation : IncarnationId := 0
  boot : BootId := 0
  presentedFenceToken : FenceToken := 0
  mode : AuthorityMode := .exclusiveMutation
  attemptSequence : Sequence := 1
  evidence : EvidenceBundle := {}
  requestedAt : WallClockReading := {}

structure CompetingClaim where
  claim : ClaimId := Id.empty
  domain : DomainId := Id.empty
  scope : Scope := Scope.empty
  epoch : Epoch := 0
  incarnation : IncarnationId := 0
  fenceToken : FenceToken := 0
  grant : GrantId := 0
  mode : AuthorityMode := .exclusiveMutation
  evidenceState : EvidenceState := .unknown
  active : Bool := false

structure AuthorityDecision where
  verdict : AuthorityVerdict := .unknown
  status : Status := .ok
  explanation : Explanation := {}
  vector : AuthorityVector := {}
  claim : ClaimId := Id.empty
  scope : Scope := Scope.empty
  validFrom : Step := 0
  validUntil : Step := 0
  mustFence : List ClaimId := []
  fencedExtents : List ExtentId := []
  decisionSequence : Sequence := 1
  revocable : Bool := true
  deriving DecidableEq

namespace AuthorityDecision

def isAuthoritative (d : AuthorityDecision) : Bool := d.verdict = .authoritative

def fail (d : AuthorityDecision) (verdict : AuthorityVerdict) (outcome : Outcome) (reason : Reason)
    (aux : UInt64 := 0) : AuthorityDecision :=
  { d with verdict := verdict, status := .make outcome reason aux
           explanation := d.explanation.add reason, revocable := true }

end AuthorityDecision

structure ArbiterPolicy where
  policy : PolicyId := Id.empty
  generation : Generation := 1
  quorum : QuorumProfile := {}
  requireQuorumForExclusive : Bool := true
  requireLeaseForExclusive : Bool := false
  allowNonOverlappingAuthority : Bool := true
  fenceLowerEpochClaimants : Bool := true
  equalEpochConflictIsFatal : Bool := true
  leaseDefaultHorizonSteps : UInt64 := 1000
  deriving DecidableEq

def ArbiterPolicy.validate (p : ArbiterPolicy) : Except Status Unit :=
  if p.policy.isEmpty then .error (.make .invalid .policyNotRegistered)
  else if p.generation = 0 then .error (.make .invalid .valueOutOfRange)
  else if p.leaseDefaultHorizonSteps = 0 ∨
      Limits.maxLeaseHorizonSteps < p.leaseDefaultHorizonSteps then
    .error (.make .invalid .valueOutOfRange p.leaseDefaultHorizonSteps)
  else p.quorum.validate

theorem ArbiterPolicy.validate_bounded {p : ArbiterPolicy} (valid : p.validate = .ok ()) :
    p.quorum.witnesses.length ≤ Limits.maxWitnessesPerProfile := by
  unfold ArbiterPolicy.validate at valid
  obtain ⟨_, valid⟩ := else_of_ne valid nofun
  obtain ⟨_, valid⟩ := else_of_ne valid nofun
  obtain ⟨_, valid⟩ := else_of_ne valid nofun
  exact (QuorumProfile.validate_size valid).2

/-- What a decision may look at; a missing part makes every decision unknown. -/
structure ArbiterView where
  policy : Option ArbiterPolicy := none
  fences : Option FenceTable := none
  lineage : Option LineageTable := none
  now : Step := 0
  registryGeneration : Generation := 0
  domainGeneration : Generation := 0
  competing : List CompetingClaim := []
  witnessFloors : List WitnessFloor := []

/-- The first loop over overlapping claims; an early return is the error. -/
def weighClaims (request : AuthorityRequest) (policy : ArbiterPolicy) :
    List CompetingClaim → AuthorityDecision → Except AuthorityDecision AuthorityDecision
  | [], d => .ok d
  | c :: rest, d =>
    if c.mode ≠ .exclusiveMutation then weighClaims request policy rest d
    else if request.epoch < c.epoch then
      if c.evidenceState = .current then
        .error (d.fail .conflict .conflict .higherEpochClaimant c.epoch)
      else .error (d.fail .unknown .unknown .quorumUnreachable c.epoch)
    else if c.epoch = request.epoch ∧ c.incarnation ≠ request.incarnation ∧
        policy.equalEpochConflictIsFatal then
      let named := { d with mustFence := d.mustFence ++ [c.claim] }
      if c.evidenceState = .current then
        let failed := named.fail .conflict .conflict .equalEpochConflict c.epoch
        .error { failed with mustFence := failed.mustFence ++ [request.claim] }
      else .error (named.fail .unknown .unknown .equalEpochConflict c.epoch)
    else if c.epoch < request.epoch ∧ policy.fenceLowerEpochClaimants then
      let named := { d with mustFence := d.mustFence ++ [c.claim] }
      if c.active then
        .error (named.fail .conflict .conflict .compensatingFenceRequired c.epoch)
      else weighClaims request policy rest named
    else weighClaims request policy rest d

/-- The second loop: claims of the same incarnation at the same epoch. -/
def ownClaims (request : AuthorityRequest) :
    List CompetingClaim → AuthorityDecision → Except AuthorityDecision AuthorityDecision
  | [], d => .ok d
  | c :: rest, d =>
    if c.mode = .exclusiveMutation ∧ c.epoch = request.epoch ∧
        c.incarnation = request.incarnation then
      if c.fenceToken ≠ request.presentedFenceToken then
        .error (d.fail .conflict .conflict .storeOwnerMismatch c.fenceToken)
      else if c.claim ≠ request.claim then
        .error (d.fail .refused .refused .overlappingExclusiveClaim c.fenceToken)
      else ownClaims request rest d
    else ownClaims request rest d

/-- The decision once the evidence is current and the mode is exclusive. -/
def decideExclusive (sorting : Sorting) (request : AuthorityRequest) (view : ArbiterView)
    (policy : ArbiterPolicy) (assessment : EvidenceAssessment) (d : AuthorityDecision) :
    AuthorityDecision :=
  let overlapping := sorting.claims.sort (·.claim) (view.competing.filter fun c =>
    decide (c.claim ≠ request.claim) && request.scope.overlaps c.scope)
  match weighClaims request policy overlapping d with
  | .error failed => failed
  | .ok d =>
    match ownClaims request overlapping d with
    | .error failed => failed
    | .ok d =>
      if overlapping ≠ [] ∧ policy.allowNonOverlappingAuthority = false then
        d.fail .conflict .conflict .overlappingExclusiveClaim (UInt64.ofNat overlapping.length)
      else
        { d with
          verdict := .authoritative
          status := .ok
          validFrom := view.now
          validUntil := if assessment.leasePresent then assessment.leaseValidUntil
            else view.now + policy.quorum.evidenceHorizonSteps
          revocable := true
          mustFence := (SortedTable.ofList d.mustFence : SortedTable (id : ClaimId → ClaimId)).rows }

/-- The verdict on the evidence, and on the modes that never carry authority. -/
def decideEvidence (sorting : Sorting) (request : AuthorityRequest) (view : ArbiterView)
    (policy : ArbiterPolicy) (assessment : EvidenceAssessment) (d : AuthorityDecision) :
    AuthorityDecision :=
  match assessment.state with
  | .conflict => d.fail .conflict .conflict assessment.reason
      assessment.distinctSupportingWitnesses.toUInt64
  | .invalid => d.fail .invalid .invalid assessment.reason
  | .unsupported => d.fail .unsupported .unsupported assessment.reason
  | .stale => d.fail .stale .stale assessment.reason assessment.rejectedAttestations
  | .unknown =>
    match request.mode with
    | .eligibilityProbe =>
      let failed := d.fail .stale .unknown assessment.reason
      { failed with
        verdict := .eligible
        status := .make .unknown .eligibilityNotAuthorization
          assessment.distinctSupportingWitnesses.toUInt64
        explanation := failed.explanation.add .eligibilityNotAuthorization }
    | .recommendationRequest =>
      { d with
        verdict := .recommended
        status := .make .unknown .recommendationNotAuthority
        explanation := d.explanation.add .recommendationNotAuthority }
    | _ => d.fail .unknown .unknown assessment.reason
        assessment.distinctSupportingWitnesses.toUInt64
  | .current =>
    if policy.requireLeaseForExclusive ∧ request.mode = .exclusiveMutation ∧
        assessment.leasePresent = false then
      d.fail .refused .refused .leaseMissing
    else match request.mode with
    | .eligibilityProbe =>
      { d with
        verdict := .eligible
        status := .make .ok .eligibilityNotAuthorization
        explanation := d.explanation.add .eligibilityNotAuthorization }
    | .recommendationRequest | .sharedRead =>
      { d with
        verdict := .recommended
        status := .make .ok .recommendationNotAuthority
        explanation := d.explanation.add .recommendationNotAuthority }
    | _ => decideExclusive sorting request view policy assessment d

/-- The checks against a complete view. -/
def decideOver (sorting : Sorting) (request : AuthorityRequest) (view : ArbiterView)
    (policy : ArbiterPolicy) (fences : FenceTable) (lineage : LineageTable)
    (d : AuthorityDecision) : AuthorityDecision :=
  match policy.validate with
  | .error st =>
    { d with
      verdict := .unsupported
      status := .make .unsupported st.reason st.aux
      explanation := d.explanation.add st.reason }
  | .ok () =>
    let highest := lineage.maxEpoch request.domain
    let above := request.scope.extents.filter fun e => request.presentedFenceToken < fences.highWater e
    if request.evidence.policy ≠ policy.policy then
      d.fail .stale .stale .policyGenerationMismatch
    else if request.evidence.policyGeneration ≠ policy.generation then
      d.fail .stale .stale .policyGenerationMismatch
    else if policy.policy.isEmpty = false ∧ request.evidence.policy.isEmpty then
      d.fail .invalid .invalid .policyNotRegistered
    else if request.mode = .observation then
      let failed := d.fail .observeOnly .ok .observationNotAuthority
      { failed with
        status := .ok, explanation := failed.explanation.add .observationNotAuthority }
    else if request.epoch < highest then d.fail .stale .stale .staleEpoch highest
    else if fences.incarnationFenced request.incarnation then
      d.fail .fenced .fenced .incarnationFenced request.incarnation
    else if fences.epochFenced request.domain request.epoch then
      d.fail .fenced .fenced .epochFenced request.epoch
    else if above ≠ [] then
      ({ d with fencedExtents := above }).fail .fenced .fenced .tokenFloorRejected
        (UInt64.ofNat above.length)
    else
      let assessment := assessEvidence sorting ⟨request.domain, request.scope.digest,
        request.epoch, request.incarnation, request.presentedFenceToken, view.now⟩ policy.quorum
        request.evidence view.witnessFloors
      decideEvidence sorting request view policy assessment
        { d with vector := { d.vector with evidenceGeneration := assessment.floorGeneration } }

def decideAuthority (sorting : Sorting) (request : AuthorityRequest) (view : ArbiterView) :
    AuthorityDecision :=
  let start : AuthorityDecision := {
    decisionSequence := request.attemptSequence
    claim := request.claim
    scope := request.scope
    vector := {
      domain := request.domain
      scope := request.scope.digest
      epoch := request.epoch
      incarnation := request.incarnation
      fenceToken := request.presentedFenceToken
      policyGeneration := (view.policy.map (·.generation)).getD 0
      fenceGeneration := (view.fences.map (·.generation)).getD 0 } }
  if request.claim.isEmpty then start.fail .invalid .invalid .claimNotRegistered
  else if request.domain.isEmpty then start.fail .invalid .invalid .domainNotRegistered
  else if request.scope.isEmpty then start.fail .invalid .invalid .emptyExtentSet
  else if request.epoch = 0 ∨ request.incarnation = 0 then
    start.fail .invalid .invalid .valueOutOfRange
  else if request.presentedFenceToken = 0 then start.fail .invalid .invalid .fenceTokenMissing
  else match view.policy, view.fences, view.lineage with
  | some policy, some fences, some lineage =>
    decideOver sorting request view policy fences lineage start
  | _, _, _ => start.fail .unknown .unknown .dependencyUnreachable

end SplitBrainFabric
