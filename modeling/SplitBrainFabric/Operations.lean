import SplitBrainFabric.Protocol

/-! The operations of the registry. A refusal carries its response; what was emitted
before it stays emitted. -/

namespace SplitBrainFabric
open Words

/-- The alphabet of `hex_u64`, most significant digit first, without the `0x`. -/
def hexDigits (value : UInt64) : Bytes :=
  let digits := (List.range 16).map fun i =>
    Digest256.hexDigit (UInt8.ofNat (value.toNat / 16 ^ (15 - i) % 16))
  match digits.dropWhile (· = 48) with
  | [] => [48]
  | shown => shown

/-- `text::hex_u64`. -/
def hexU64 (value : UInt64) : Bytes := [48, 120] ++ hexDigits value

/-- `claim-<domain>-<id>`, cut to the length of an identifier. -/
def claimIdForGrant (g : EpochGrant) : Bytes :=
  ([99, 108, 97, 105, 109, 45] ++ g.domain.value ++ [45] ++ hexDigits g.id).take Limits.maxIdLength

namespace Work

/-- The highest mark among the extents of a scope. -/
def previousHighWater (fences : FenceTable) (scope : Scope) : FenceToken :=
  scope.extents.foldl (fun high e => max high (fences.highWater e)) 0

def fenceRecord (w : Work) (domain : DomainId) (scope : Scope) (epoch : Epoch)
    (incarnation : IncarnationId) (superseded : GrantId) (cause : Reason) (fenceIncarnation : Bool)
    (now : Step) : FenceRecord where
  token := w.state.tokenCounter + 1
  domain := domain
  scope := scope.digest
  fencedEpoch := epoch
  fencedIncarnation := if fenceIncarnation then incarnation else 0
  cause := cause
  issuedAt := now
  supersededGrant := superseded
  registrySequence := w.state.registrySequence + 1
  previousHighWater := previousHighWater w.state.fences scope

def fenceScope (domain : DomainId) (scope : Scope) (epoch : Epoch) (incarnation : IncarnationId)
    (superseded : GrantId) (cause : Reason) (fenceIncarnation : Bool) (now : Step) :
    Prog Status Work FenceToken := do
  let w ← get
  Prog.refuseIf (w.state.tokenCounter = maxWord) (.make .exhausted .counterOverflow)
  let record := w.fenceRecord domain scope epoch incarnation superseded cause fenceIncarnation now
  emit .fence (encodeFencePayload record scope) (.make .fenced cause record.token) now
  pure record.token

def closeGrant (g : EpochGrant) (state : GrantState) (reason : Reason) (now : Step) :
    Prog Status Work PUnit := do
  let w ← get
  emit .grantClose (encodeGrant
    { g.close state reason now with registrySequence := w.state.registrySequence + 1 })
    (.make .fenced reason) now

/-- A boot without a durable end is ended now. -/
def endBootRecord (now : Step) (record : BootRecord) : Prog Status Work PUnit :=
  if record.endedAt = 0 then
    emit .bootEnd (encodeBootRecord
      { record with endedAt := now, cleanStop := false, interrupted := true })
      (.make .interrupted .interruptedByRestart) now
  else pure ⟨⟩

def interruptGrant (now : Step) (g : EpochGrant) : Prog Status Work PUnit := do
  let _ ← fenceScope g.domain g.extents g.epoch g.incarnation g.id .interruptedByRestart true now
  emit .interruptMark (encodeInterrupt
    { grant := g.id, domain := g.domain, epoch := g.epoch, incarnation := g.incarnation
      boot := g.boot, markedAt := now, reason := .interruptedByRestart })
    (.make .interrupted .interruptedByRestart) now
  closeGrant g .interrupted .interruptedByRestart now
  modify (update fun s => { s with restartFences := s.restartFences + 1 })

/-- The counter moves before the record that makes the move durable. -/
def openBoot (now : Step) : Prog Status Work PUnit := do
  let w ← get
  Prog.refuseIf (w.state.incarnationCounter = maxWord) (.make .exhausted .counterOverflow)
  modify (update fun s => { s with incarnationCounter := s.incarnationCounter + 1 })
  let w ← get
  emit .bootBegin (encodeBootRecord
    { boot := w.state.incarnationCounter, incarnation := w.state.incarnationCounter
      node := w.state.config.node, startedAt := now
      registrySequence := w.state.registrySequence + 1 }) .ok now

def recoverAfterRestart (now : Step) : Prog Status Work PUnit := do
  let w ← get
  w.state.lineage.boots.forM (endBootRecord now)
  let w ← get
  w.state.lineage.openGrants.forM (interruptGrant now)
  openBoot now

def allocateIncarnation (now : Step) : Prog Status Work IncarnationId := do
  let w ← get
  Prog.refuseIf (w.state.incarnationCounter = maxWord) (.make .exhausted .counterOverflow)
  emit .incarnationAllocate (Writer.u64 (w.state.incarnationCounter + 1)) .ok now
  pure (w.state.incarnationCounter + 1)

def defineDomain (d : DomainDefinition) (now : Step) : Prog Status Work PUnit := do
  Prog.refuseIf (d.domain.isEmpty = true ∨ d.node.isEmpty = true) (.make .invalid .emptyValue)
  Prog.refuseIf (d.scope.isEmpty = true) (.make .invalid .emptyExtentSet)
  let w ← get
  match w.state.domains.find d.domain with
  | some known =>
    if RegistryState.sameDefinition known d then pure ⟨⟩
    else throw (.make .alreadyExists .duplicateEntry)
  | none => do
    Prog.refuseIf (Limits.maxDomains ≤ w.state.domains.size)
      (.make .exhausted .boundedTableFull (UInt64.ofNat w.state.domains.size))
    emit .domainDefine (encodeDomain d) .ok now

def definePolicy (policy : ArbiterPolicy) (now : Step) : Prog Status Work PUnit := do
  Prog.ofExcept policy.validate
  let w ← get
  emit .policyDefine (encodePolicy { policy with generation := w.state.policy.generation + 1 })
    .ok now

/-- The domain is registered with exactly this scope. -/
def checkScope {ρ : Type} (answer : Status → ρ) (w : Work) (domain : DomainId) (scope : Scope) :
    Prog ρ Work PUnit := do
  match w.state.domains.find domain with
  | none => throw (answer (.make .notFound .domainNotRegistered))
  | some known => Prog.refuseIf (known.scope ≠ scope) (answer (.make .invalid .scopeNotRegistered))

def allocation (w : Work) (now : Step) (g : EpochGrant) : AllocateEpochResponse where
  status := .ok
  epoch := g.epoch
  fenceToken := g.fenceToken
  grant := g.id
  validUntil := now + w.state.config.leaseHorizonSteps
  lineageGeneration := w.state.lineage.generation
  policyGeneration := w.state.policy.generation
  fenceGeneration := w.state.fences.generation
  policy := w.state.policy.policy
  allocationStep := now

/-- The open grant a repeated attempt already has. -/
def repeatedAttempt (w : Work) (request : AllocateEpochRequest) : Option EpochGrant :=
  w.state.lineage.grants.find? fun g =>
    decide (g.incarnation = request.incarnation) && decide (g.attempt = request.attemptSequence) &&
      decide (g.domain = request.domain) && g.isOpen

/-- Only a different incarnation is disqualified by the fence. -/
def supersede (request : AllocateEpochRequest) (now : Step) (g : EpochGrant) :
    Prog Status Work PUnit :=
  if g.extents.overlaps request.scope then do
    let _ ← fenceScope g.domain g.extents g.epoch g.incarnation g.id .compensatingFenceRequired
      (decide (g.incarnation ≠ request.incarnation)) now
    closeGrant g .fenced .compensatingFenceRequired now
  else pure ⟨⟩

def freshGrant (w : Work) (request : AllocateEpochRequest) (now : Step) : EpochGrant where
  id := w.state.grantCounter + 1
  domain := request.domain
  scope := request.scope.digest
  extents := request.scope
  attempt := request.attemptSequence
  epoch := w.state.lineage.maxEpoch request.domain + 1
  incarnation := request.incarnation
  boot := request.boot
  fenceToken := w.state.tokenCounter + 1
  openedAt := now
  state := .open
  registrySequence := w.state.registrySequence + 1
  lineageGeneration := w.state.lineage.generation + 1
  policyGeneration := w.state.policy.generation

def adoptRecord (g : EpochGrant) (now : Step) : FenceRecord where
  token := g.fenceToken
  domain := g.domain
  scope := g.scope
  fencedEpoch := g.epoch
  fencedIncarnation := g.incarnation
  cause := .none
  issuedAt := now
  supersededGrant := g.id
  registrySequence := g.registrySequence

/-- Adopt the scope under a new token, then open the grant that holds it. -/
def openFresh (request : AllocateEpochRequest) (now : Step) : Prog Status Work EpochGrant := do
  let w ← get
  Prog.refuseIf (w.state.lineage.maxEpoch request.domain + 1 = 0) (.make .exhausted .counterOverflow)
  Prog.refuseIf (w.state.tokenCounter = maxWord ∨ w.state.grantCounter = maxWord)
    (.make .exhausted .counterOverflow)
  let g := w.freshGrant request now
  emit .extentAdopt (encodeFencePayload (adoptRecord g now) request.scope) .ok now
  emit .grantOpen (encodeGrant g) .ok now
  pure g

/-- The checks of `allocate_epoch` before it changes anything. -/
def admitAllocation (w : Work) (request : AllocateEpochRequest) :
    Prog AllocateEpochResponse Work PUnit := do
  Prog.refuseIf (request.domain.isEmpty = true) { status := .make .invalid .domainNotRegistered }
  Prog.refuseIf (request.scope.isEmpty = true) { status := .make .invalid .emptyExtentSet }
  Prog.refuseIf (request.incarnation = 0 ∨ request.boot = 0)
    { status := .make .invalid .valueOutOfRange }
  checkScope (fun st => { status := st }) w request.domain request.scope
  Prog.refuseIf (w.state.fences.incarnationFenced request.incarnation = true)
    { status := .make .fenced .incarnationFenced request.incarnation }
  Prog.refuseIf (w.state.incarnationCounter < request.incarnation ∨
      request.incarnation ≤ w.state.boot.incarnation)
    { status := .make .fenced .incarnationNotCurrent w.state.incarnationCounter }

def allocateEpoch (request : AllocateEpochRequest) (now : Step) :
    Prog AllocateEpochResponse Work AllocateEpochResponse := do
  let w ← get
  admitAllocation w request
  match w.repeatedAttempt request with
  | some g => do
    modify (update fun s => { s with idempotencyHits := s.idempotencyHits + 1 })
    pure (w.allocation now g)
  | none => do
    Prog.mapError (fun st => { status := st })
      (w.state.lineage.openGrants.forM (supersede request now))
    let g ← Prog.mapError (fun st => { status := st }) (openFresh request now)
    let w ← get
    pure (w.allocation now g)

/-- The open grant a decision is about. -/
def decidedGrant (w : Work) (request : DecideRequest) : Option EpochGrant :=
  w.state.lineage.grants.find? fun g =>
    decide (g.domain = request.domain) && decide (g.epoch = request.epoch) &&
      decide (g.incarnation = request.incarnation) && g.isOpen && decide (g.extents = request.scope)

def ungranted (w : Work) (request : DecideRequest) : DecideResponse :=
  let highest := w.state.lineage.maxEpoch request.domain
  let status : Status :=
    if request.epoch < highest then .make .stale .staleEpoch highest
    else if w.state.fences.incarnationFenced request.incarnation then
      .make .fenced .incarnationFenced request.incarnation
    else .make .fenced .extentFenced
  { status := status
    decision := {
      verdict := if status.outcome = .stale then .stale else .fenced
      status := status
      explanation := Explanation.add {} status.reason
      scope := request.scope
      vector := {
        domain := request.domain
        scope := request.scope.digest
        epoch := request.epoch
        incarnation := request.incarnation
        fenceToken := request.presentedFenceToken } } }

def mistoken (g : EpochGrant) : DecideResponse :=
  let status : Status := .make .fenced .fenceTokenRegressed g.fenceToken
  { status := status
    decision := {
      verdict := .fenced
      status := status
      explanation := Explanation.add {} .fenceTokenRegressed
      claim := Id.make (claimIdForGrant g)
      scope := g.extents
      vector := {
        domain := g.domain
        scope := g.scope
        epoch := g.epoch
        incarnation := g.incarnation
        fenceToken := g.fenceToken
        grant := g.id } } }

def competingClaim (g : EpochGrant) : CompetingClaim where
  claim := Id.make (claimIdForGrant g)
  domain := g.domain
  scope := g.extents
  epoch := g.epoch
  incarnation := g.incarnation
  fenceToken := g.fenceToken
  grant := g.id
  mode := .exclusiveMutation
  evidenceState := .current
  active := true

def arbiterView (w : Work) (g : EpochGrant) (now : Step) : ArbiterView where
  policy := some w.state.policy
  fences := some w.state.fences
  lineage := some w.state.lineage
  now := now
  registryGeneration := w.state.generation
  domainGeneration := UInt64.ofNat w.state.domains.size
  competing := (w.state.lineage.openGrants.filter fun other => decide (other.id ≠ g.id)).map
    competingClaim

/-- The registry's own step replaces the caller's. -/
def authorityRequest (request : DecideRequest) (g : EpochGrant) (now : Step) : AuthorityRequest where
  claim := Id.make (claimIdForGrant g)
  domain := request.domain
  scope := request.scope
  epoch := request.epoch
  incarnation := request.incarnation
  boot := request.boot
  presentedFenceToken := request.presentedFenceToken
  mode := request.mode
  attemptSequence := request.attemptSequence
  evidence := { request.evidence with asOf := now }
  requestedAt := request.requestedAt

def decide (sorting : Sorting) (request : DecideRequest) (now : Step) :
    Prog DecideResponse Work DecideResponse := do
  let w ← get
  Prog.refuseIf (request.domain.isEmpty = true ∨ request.scope.isEmpty = true)
    { status := .make .invalid .emptyValue }
  checkScope (fun st => { status := st }) w request.domain request.scope
  match w.decidedGrant request with
  | none => throw (w.ungranted request)
  | some g => do
    Prog.refuseIf (g.fenceToken ≠ request.presentedFenceToken) (mistoken g)
    let decision := decideAuthority sorting (authorityRequest request g now) (w.arbiterView g now)
    let response : DecideResponse := {
      status := decision.status
      decision := if decision.isAuthoritative then
        { decision with validUntil := now + w.state.config.leaseHorizonSteps } else decision }
    if decision.status.isOk then pure response else throw response

def onFabric {α : Type} (m : Prog Status FabricStore α) : Prog Status Work α :=
  Prog.zoom (·.state.fabric) (fun f w => w.update fun s => { s with fabric := f }) m

def commit (request : CommitRequest) (now : Step) (io : AppendIo) :
    Prog CommitResponse Work CommitResponse := do
  let w ← get
  Prog.refuseIf (request.domain.isEmpty = true ∨ request.scope.isEmpty = true)
    { status := .make .invalid .emptyValue }
  Prog.refuseIf (request.operation = [] ∨ Limits.maxTextLength < request.operation.length)
    { status := .make .invalid .valueOutOfRange (UInt64.ofNat request.operation.length) }
  checkScope (fun st => { status := st }) w request.domain request.scope
  match w.state.lineage.find request.grant with
  | none => throw { status := .make .fenced .extentFenced request.grant }
  | some g => do
    Prog.refuseIf (g.state ≠ .open) { status := .make .fenced .extentFenced request.grant }
    Prog.refuseIf (g.domain ≠ request.domain ∨ g.extents ≠ request.scope ∨
        g.epoch ≠ request.epoch ∨ g.incarnation ≠ request.incarnation)
      { status := .make .invalid .storeOwnerMismatch }
    Prog.refuseIf (g.fenceToken ≠ request.fenceToken)
      { status := .make .fenced .fenceTokenRegressed g.fenceToken }
    let record ← Prog.mapError (fun st => { status := st }) (onFabric
      (FabricStore.admitMutation request.domain request.fenceToken request.scope request.epoch
        request.incarnation request.grant request.operation request.payloadDigest now io))
    Prog.mapError (fun st => { status := st }) (emit .commitRecord
      (Writer.u64 record.storeSequence ++ Writer.digest record.recordDigest) .ok now)
    pure {
      status := .ok
      storeSequence := record.storeSequence
      admittedToken := record.fenceToken
      effectDigest := record.recordDigest
      verified := true }

def causeOr (cause fallback : Reason) : Reason := if cause = .none then fallback else cause

/-- The open grants a fence request is about. -/
def fencedBy (request : FenceRequest) (g : EpochGrant) : Bool :=
  Decidable.decide (g.domain = request.domain) && Decidable.decide (g.extents = request.scope) &&
    (request.epoch == 0 || Decidable.decide (g.epoch = request.epoch))

/-- The token of the last fence, which the response keeps even when the next fails. -/
def fenceGrant (request : FenceRequest) (now : Step) (highest : FenceToken) (g : EpochGrant) :
    Prog FenceResponse Work FenceToken := do
  let cause := causeOr request.cause .extentFenced
  let token ← Prog.mapError (fun st => { status := st, newHighWater := highest })
    (fenceScope g.domain g.extents g.epoch g.incarnation g.id cause true now)
  Prog.mapError (fun st => { status := st, newHighWater := token })
    (closeGrant g .fenced cause now)
  pure token

def fence (request : FenceRequest) (now : Step) : Prog FenceResponse Work FenceResponse := do
  let w ← get
  Prog.refuseIf (request.domain.isEmpty = true ∨ request.scope.isEmpty = true)
    { status := .make .invalid .emptyValue }
  checkScope (fun st => { status := st }) w request.domain request.scope
  match w.state.lineage.openGrants.filter (fencedBy request) with
  | [] => do
    let token ← Prog.mapError (fun st => { status := st })
      (fenceScope request.domain request.scope request.epoch request.incarnation 0
        (causeOr request.cause .extentFenced) true now)
    let w ← get
    pure { status := .ok, newHighWater := token, registrySequence := w.state.registrySequence }
  | g :: rest => do
    let token ← (g :: rest).foldlM (fenceGrant request now) 0
    let w ← get
    pure { status := .ok, newHighWater := token, registrySequence := w.state.registrySequence }

def release (request : ReleaseRequest) (now : Step) : Prog ReleaseResponse Work ReleaseResponse := do
  let w ← get
  match w.state.lineage.find request.grant with
  | none => throw { status := .make .notFound .grantNotRegistered request.grant }
  | some g => do
    Prog.refuseIf (g.state ≠ .open)
      { status := .make .alreadyExists .duplicateEntry request.grant, closedEpoch := g.epoch }
    let cause := causeOr request.cause .compensatingFenceRequired
    let token ← Prog.mapError (fun st => { status := st })
      (fenceScope g.domain g.extents g.epoch g.incarnation g.id cause true now)
    Prog.mapError (fun st => { status := st }) (closeGrant g .closed cause now)
    pure { status := .ok, closedEpoch := g.epoch, newHighWater := token }

end Work
end SplitBrainFabric
