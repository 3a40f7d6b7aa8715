import SplitBrainFabric.Clients

/-! A coordinator mutates through a registry and its witnesses, attempt after attempt. A
refusal costs it the authority flag, and nothing in the loop looks at the flag. -/

namespace SplitBrainFabric
open Words

inductive MutationOutcome where
  | applied | acknowledgedNotVerified | refused | fenced | unknown | conflict | invalid
  | unreachable | interrupted
  deriving DecidableEq

def classify (st : Status) : MutationOutcome :=
  match st.outcome with
  | .ok => .applied
  | .fenced | .stale => .fenced
  | .conflict => .conflict
  | .unknown => .unknown
  | .unreachable | .closed => .unreachable
  | .interrupted => .interrupted
  | .invalid | .unsupported | .refused | .exhausted | .indeterminate | .searchLimitReached
  | .notFound | .alreadyExists | .corrupt => .refused

def operationDigest (operation : Bytes) (attempt : Sequence) : Digest256 :=
  Digest256.of (Writer.text operation ++ Writer.u64 attempt)

structure MutationAttempt where
  attempt : Sequence
  outcome : MutationOutcome := .unknown
  status : Status := .ok
  epoch : Epoch
  fenceToken : FenceToken
  storeSequence : Sequence := 0
  effectDigest : Digest256 := Digest256.zero
  operation : Bytes

structure CoordinatorReport where
  attempted : UInt64 := 0
  applied : UInt64 := 0
  refused : UInt64 := 0
  fenced : UInt64 := 0
  unreachable : UInt64 := 0
  unknown : UInt64 := 0
  acknowledgedNotVerified : UInt64 := 0
  conflicts : UInt64 := 0
  attempts : List MutationAttempt := []
  finalEpoch : Epoch := 0
  finalToken : FenceToken := 0
  finalGrant : GrantId := 0
  holdsAuthority : Bool := false

namespace CoordinatorReport

def push (attempt : MutationAttempt) (r : CoordinatorReport) : CoordinatorReport :=
  if r.attempts.length < 4096 then { r with attempts := r.attempts ++ [attempt] } else r

/-- A refused decision is booked as refused, and under its outcome as well. -/
def bookRefusal (outcome : MutationOutcome) (r : CoordinatorReport) : CoordinatorReport :=
  let r := { r with refused := r.refused + 1 }
  match outcome with
  | .fenced => { r with fenced := r.fenced + 1 }
  | .unreachable => { r with unreachable := r.unreachable + 1 }
  | .conflict => { r with conflicts := r.conflicts + 1 }
  | .unknown => { r with unknown := r.unknown + 1 }
  | _ => r

/-- A refused commit is booked once. -/
def bookCommit (outcome : MutationOutcome) (r : CoordinatorReport) : CoordinatorReport :=
  match outcome with
  | .fenced => { r with fenced := r.fenced + 1 }
  | .conflict => { r with conflicts := r.conflicts + 1 }
  | .unknown => { r with unknown := r.unknown + 1 }
  | _ => { r with refused := r.refused + 1 }

end CoordinatorReport

structure CoordinatorConfig where
  domain : DomainId := Id.empty
  scope : Scope := Scope.empty
  requireQuorum : Bool := true

structure Coordinator where
  config : CoordinatorConfig := {}
  client : RegistryClient := {}
  witnesses : List WitnessClient := []
  incarnation : IncarnationId := 0
  boot : BootId := 0
  epoch : Epoch := 0
  token : FenceToken := 0
  grant : GrantId := 0
  attemptSequence : Sequence := 0
  policy : PolicyId := Id.empty
  policyGeneration : Generation := 0
  allocationStep : Step := 0
  authority : Bool := false

namespace Coordinator

def acquireAuthority (exchange : Exchange) : Prog Status Coordinator PUnit := do
  let c ← get
  Prog.refuseIf (c.client.connected = false) (.make .unreachable .dependencyUnreachable)
  Prog.refuseIf (c.attemptSequence = maxWord) (.make .exhausted .counterOverflow)
  modify fun c => { c with attemptSequence := c.attemptSequence + 1 }
  let response ← Prog.zoom (·.client) (fun client c => { c with client := client })
    (RegistryClient.allocateEpoch c.config.domain c.config.scope c.incarnation c.boot
      (c.attemptSequence + 1) exchange)
  Prog.refuseIf (response.status.isOk = false) response.status
  modify fun c => { c with
    epoch := response.epoch
    token := response.fenceToken
    grant := response.grant
    policy := response.policy
    policyGeneration := response.policyGeneration
    allocationStep := response.allocationStep
    authority := true }

/-- Every witness is asked in its turn, until the bundle is full. -/
def askWitnesses (subject : AttestRequest) (statements : Nat → Exchange) :
    Nat → List WitnessClient → List WitnessAttestation →
    List WitnessClient × List WitnessAttestation
  | _, [], heard => ([], heard)
  | i, witness :: rest, heard =>
    match (WitnessClient.attest subject (statements i)).exec witness with
    | (.error _, witness') =>
      let (others, heard) := askWitnesses subject statements (i + 1) rest heard
      (witness' :: others, heard)
    | (.ok response, witness') =>
      if Limits.maxAttestationsPerBundle ≤ heard.length then (witness' :: rest, heard)
      else
        let (others, heard) := askWitnesses subject statements (i + 1) rest
          (heard ++ [response.attestation])
        (witness' :: others, heard)

def bundle (c : Coordinator) : EvidenceBundle where
  policy := c.policy
  policyGeneration := c.policyGeneration
  asOf := c.allocationStep

def collectEvidence (statements : Nat → Exchange) (c : Coordinator) :
    EvidenceBundle × Coordinator :=
  if c.policy.isEmpty then ({}, c)
  else
    let subject : AttestRequest := {
      subjectDomain := c.config.domain, subjectScope := c.config.scope, epoch := c.epoch
      incarnation := c.incarnation, fenceToken := c.token, policyGeneration := c.policyGeneration
      requesterStep := c.allocationStep }
    let (witnesses, attestations) := askWitnesses subject statements 0 c.witnesses []
    ({ c.bundle with attestations := attestations }, { c with witnesses := witnesses })

def evidence (statements : Nat → Exchange) (c : Coordinator) : EvidenceBundle × Coordinator :=
  if c.config.requireQuorum then c.collectEvidence statements else (c.bundle, c)

/-- Without a response there is no decision, and no verdict on it either. -/
def evaluate (bundle : EvidenceBundle) (exchange : Exchange) (c : Coordinator) :
    (Status × AuthorityDecision) × Coordinator :=
  let request : DecideRequest := {
    domain := c.config.domain, scope := c.config.scope, epoch := c.epoch
    incarnation := c.incarnation, boot := c.boot, presentedFenceToken := c.token
    mode := .exclusiveMutation, attemptSequence := c.attemptSequence, evidence := bundle }
  match (RegistryClient.decide request exchange).exec c.client with
  | (.error st, client) => ((st, {}), { c with client := client })
  | (.ok response, client) =>
    ((if response.status.isOk then .ok else response.status, response.decision),
      { c with client := client })

def commit (operation : Bytes) (exchange : Exchange) (c : Coordinator) :
    Except Status CommitResponse × Coordinator :=
  let request : CommitRequest := {
    domain := c.config.domain, scope := c.config.scope, epoch := c.epoch
    incarnation := c.incarnation, grant := c.grant, fenceToken := c.token
    attemptSequence := c.attemptSequence, operation := operation
    payloadDigest := operationDigest operation c.attemptSequence }
  let (committed, client) := (RegistryClient.commit request exchange).exec c.client
  (committed, { c with client := client })

end Coordinator

/-- What the services do during one attempt: each witness in its turn, and the registry to
the decide and to the commit. -/
structure AttemptReplies where
  statements : Nat → Exchange
  decide : Exchange
  commit : Exchange

/-- What shows of an attempt: the authority it was refused, and the requests it sent. -/
structure AttemptTrace where
  refused : Option (Epoch × FenceToken)
  sent : List RegistryRequest

structure Mutation where
  coordinator : Coordinator
  report : CoordinatorReport := {}
  traces : List AttemptTrace := []

namespace Mutation

/-- An attempt that got as far as `c`. -/
def record (m : Mutation) (c : Coordinator) (refused : Bool) : List AttemptTrace :=
  m.traces ++ [{
    refused := if refused then some (m.coordinator.epoch, m.coordinator.token) else none
    sent := c.client.sent.drop m.coordinator.client.sent.length }]

/-- The end of an attempt that failed: no authority is held any more. -/
def lose (m : Mutation) (c : Coordinator) (attempt : MutationAttempt)
    (book : CoordinatorReport → CoordinatorReport) (refused : Bool) : Mutation where
  coordinator := { c with authority := false }
  report := { (book m.report).push attempt with holdsAuthority := false }
  traces := m.record c refused

def turn (operation : Bytes) (replies : AttemptReplies) (m : Mutation) : Mutation :=
  let attempt : MutationAttempt := {
    attempt := m.coordinator.attemptSequence, epoch := m.coordinator.epoch
    fenceToken := m.coordinator.token, operation := operation }
  let (bundle, c) := m.coordinator.evidence replies.statements
  let ((evaluated, decision), c) := c.evaluate bundle replies.decide
  if evaluated.isOk = false ∨ decision.isAuthoritative = false then
    let status := if evaluated.isOk then decision.status else evaluated
    let outcome := if decision.verdict = .unknown then .unknown else classify status
    m.lose c { attempt with outcome := outcome, status := status } (·.bookRefusal outcome) true
  else
    let (committed, c) := c.commit operation replies.commit
    match committed with
    | .error st =>
      m.lose c { attempt with outcome := .unreachable, status := st }
        (fun r => { r with unreachable := r.unreachable + 1 }) false
    | .ok response =>
      let attempt := { attempt with storeSequence := response.storeSequence }
      if response.status.isOk = false then
        let outcome := classify response.status
        -- the comment in the source says to acquire anew here; the loop just goes on
        m.lose c { attempt with outcome := outcome, status := response.status }
          (·.bookCommit outcome) true
      else
        let outcome := if response.verified then .applied else .acknowledgedNotVerified
        let report := if response.verified then { m.report with applied := m.report.applied + 1 }
          else { m.report with
            acknowledgedNotVerified := m.report.acknowledgedNotVerified + 1 }
        { coordinator := c
          report := report.push { attempt with
            outcome := outcome
            fenceToken := response.admittedToken
            effectDigest := response.effectDigest }
          traces := m.record c false }

/-- One round of the loop. -/
def attempt (operation : Bytes) (replies : AttemptReplies) : Prog Status Mutation PUnit := do
  modify fun m => { m with report := { m.report with attempted := m.report.attempted + 1 } }
  let m ← get
  Prog.refuseIf (m.coordinator.attemptSequence = maxWord) (.make .exhausted .counterOverflow)
  modify fun m => turn operation replies { m with coordinator := { m.coordinator with
    attemptSequence := m.coordinator.attemptSequence + 1 } }

/-- The grant is shown in the report however the loop goes. -/
def showGrant (m : Mutation) : Mutation :=
  { m with report := { m.report with
      finalEpoch := m.coordinator.epoch
      finalToken := m.coordinator.token
      finalGrant := m.coordinator.grant } }

/-- Authority is acquired before the first attempt, and only there. -/
def enter (exchange : Exchange) : Prog Status Mutation PUnit := do
  let m ← get
  if m.coordinator.authority then set m.showGrant
  else
    match (Coordinator.acquireAuthority exchange).exec m.coordinator with
    | (.ok _, c) => set (showGrant { m with coordinator := c })
    | (.error st, c) => do
      set (showGrant { m with
        coordinator := c
        report := { m.report with
          unreachable := m.report.unreachable + 1, holdsAuthority := false } })
      throw st

end Mutation

/-- What the services do during one call. -/
structure Services where
  allocation : Exchange
  attempts : Nat → AttemptReplies

/-- The replies to the first so many attempts. -/
def Services.first (services : Services) (n : Nat) : List AttemptReplies :=
  (List.range n).map services.attempts

def Coordinator.mutate (operation : Bytes) (count : UInt64) (services : Services) :
    Prog Status Mutation PUnit := do
  modify fun m => { m with traces := [] }
  Prog.refuseIf (operation = [] ∨ Limits.maxTextLength < operation.length)
    (.make .invalid .valueOutOfRange)
  modify fun m => { m with report := {} }
  Mutation.enter services.allocation
  (services.first count.toNat).forM (Mutation.attempt operation)
  modify fun m => { m with report := { m.report with holdsAuthority := m.coordinator.authority } }

end SplitBrainFabric
