import SplitBrainFabric.Evidence
import SplitBrainFabric.Scope
import SplitBrainFabric.Session

/-! A witness remembers, for each subject, the last statement it made, and refuses to
contradict it. -/

namespace SplitBrainFabric
open Words

structure AttestRequest where
  envelope : RequestEnvelope := {}
  subjectDomain : DomainId := Id.empty
  subjectScope : Scope := Scope.empty
  epoch : Epoch := 0
  incarnation : IncarnationId := 0
  fenceToken : FenceToken := 0
  policyGeneration : Generation := 0
  requesterStep : Step := 0
  requestedAt : WallClockReading := {}

structure AttestedSubject where
  domain : DomainId
  scope : Digest256
  epoch : Epoch
  incarnation : IncarnationId
  fenceToken : FenceToken
  generation : Generation
  sequence : Sequence
  issuedAt : Step
  validUntil : Step
  attestations : UInt64

/-- Subjects are indexed by the texts of their domain and scope digest. -/
abbrev SubjectKey := Bytes ×ₗ Bytes

def keyFor (domain : DomainId) (scope : Digest256) : SubjectKey := toLex (domain.value, scope.hex)

def AttestedSubject.key (s : AttestedSubject) : SubjectKey := keyFor s.domain s.scope

structure WitnessConfig where
  witness : WitnessId := Id.empty
  faultDomain : FaultDomainId := Id.empty
  attestationHorizonSteps : UInt64 := 1000
  maxSubjects : UInt32 := 512

structure WitnessService where
  config : WitnessConfig := {}
  subjects : SortedTable AttestedSubject.key := SortedTable.empty
  lastSequence : Sequence := 0
  clock : Step := 0
  issued : UInt64 := 0
  refusalsConflict : UInt64 := 0
  refusalsRegression : UInt64 := 0

namespace WitnessService

def configure (config : WitnessConfig) : Prog Status WitnessService PUnit := do
  Prog.refuseIf (config.witness.isEmpty = true ∨ config.faultDomain.isEmpty = true)
    (.make .invalid .emptyValue)
  Prog.refuseIf (config.attestationHorizonSteps = 0 ∨
      Limits.maxLeaseHorizonSteps < config.attestationHorizonSteps)
    (.make .invalid .valueOutOfRange config.attestationHorizonSteps)
  Prog.refuseIf (config.maxSubjects = 0 ∨ 65536 < config.maxSubjects)
    (.make .invalid .valueOutOfRange config.maxSubjects.toUInt64)
  modify fun s => { s with config := config }

/-- The refusal a remembered statement calls for, with the counter it is booked on. -/
def contradiction (previous : AttestedSubject) (request : AttestRequest) (s : WitnessService) :
    Option (WitnessService × Status) :=
  if request.epoch < previous.epoch then
    some ({ s with refusalsRegression := s.refusalsRegression + 1 },
      .make .stale .epochRegression previous.epoch)
  else if request.epoch = previous.epoch ∧ previous.incarnation ≠ request.incarnation then
    some ({ s with refusalsConflict := s.refusalsConflict + 1 },
      .make .conflict .conflictingAttestations previous.incarnation)
  else if request.epoch = previous.epoch ∧ request.fenceToken ≠ previous.fenceToken then
    some ({ s with refusalsConflict := s.refusalsConflict + 1 },
      .make .conflict .fenceTokenRegressed previous.fenceToken)
  else none

def objection (request : AttestRequest) (s : WitnessService) : Option (WitnessService × Status) :=
  match s.subjects.find (keyFor request.subjectDomain request.subjectScope.digest) with
  | some previous => contradiction previous request s
  | none =>
    if s.config.maxSubjects.toNat ≤ s.subjects.size then
      some (s, .make .exhausted .boundedTableFull (UInt64.ofNat s.subjects.size))
    else none

def remember (request : AttestRequest) (s : WitnessService) : AttestedSubject :=
  let previous := s.subjects.find (keyFor request.subjectDomain request.subjectScope.digest)
  { domain := request.subjectDomain
    scope := request.subjectScope.digest
    epoch := request.epoch
    incarnation := request.incarnation
    fenceToken := request.fenceToken
    generation := (previous.map (·.generation + 1)).getD 1
    sequence := s.lastSequence
    issuedAt := request.requesterStep
    validUntil := request.requesterStep + s.config.attestationHorizonSteps
    attestations := (previous.map (·.attestations + 1)).getD 1 }

def statement (request : AttestRequest) (s : WitnessService) (subject : AttestedSubject) :
    WitnessAttestation where
  witness := s.config.witness
  subjectDomain := request.subjectDomain
  subjectScope := request.subjectScope.digest
  epoch := request.epoch
  incarnation := request.incarnation
  fenceToken := request.fenceToken
  witnessGeneration := subject.generation
  policyGeneration := request.policyGeneration
  issuedAt := subject.issuedAt
  validUntil := subject.validUntil
  witnessSequence := subject.sequence
  support := true
  observedAt := request.requestedAt

/-- The clock and the refusal counters move even when the answer is a refusal. -/
def attest (request : AttestRequest) : Prog Status WitnessService WitnessAttestation := do
  Prog.refuseIf (request.subjectDomain.isEmpty = true) (.make .invalid .domainNotRegistered)
  Prog.refuseIf (request.subjectScope.isEmpty = true) (.make .invalid .emptyExtentSet)
  Prog.refuseIf (request.epoch = 0 ∨ request.incarnation = 0 ∨ request.fenceToken = 0)
    (.make .invalid .valueOutOfRange)
  Prog.refuseIf (request.requesterStep = 0) (.make .unknown .valueOutOfRange)
  let s ← get
  Prog.refuseIf (s.clock = maxWord) (.make .exhausted .counterOverflow)
  modify fun s => { s with clock := s.clock + 1 }
  let s ← get
  match objection request s with
  | some (s', refusal) => do
    set s'
    throw refusal
  | none => do
    Prog.refuseIf (s.lastSequence = maxWord) (.make .exhausted .counterOverflow)
    modify fun s => { s with lastSequence := s.lastSequence + 1 }
    let s ← get
    let subject := remember request s
    modify fun s => { s with subjects := s.subjects.put subject, issued := s.issued + 1 }
    pure (statement request s subject)

/-- The statement does not contradict what is remembered of its subject. -/
def Consistent (s : WitnessService) (a : WitnessAttestation) : Prop :=
  ∀ previous, s.subjects.find (keyFor a.subjectDomain a.subjectScope) = some previous →
    previous.epoch ≤ a.epoch ∧ (previous.epoch = a.epoch →
      previous.incarnation = a.incarnation ∧ previous.fenceToken = a.fenceToken)

section Attest

variable {s s' : WitnessService} {request : AttestRequest} {config : WitnessConfig}

theorem objection_none (quiet : objection request s = none) (a : WitnessAttestation)
    (subject : a.subjectDomain = request.subjectDomain ∧
      a.subjectScope = request.subjectScope.digest)
    (holder : a.epoch = request.epoch ∧ a.incarnation = request.incarnation ∧
      a.fenceToken = request.fenceToken) : s.Consistent a := by
  intro previous found
  rw [subject.1, subject.2] at found
  rw [holder.1, holder.2.1, holder.2.2]
  simp only [objection, found, contradiction] at quiet
  obtain ⟨notBelow, quiet⟩ := else_of_ne quiet (by simp)
  obtain ⟨sameHolder, quiet⟩ := else_of_ne quiet (by simp)
  obtain ⟨sameToken, _⟩ := else_of_ne quiet (by simp)
  refine ⟨not_lt.mp notBelow, fun same => ⟨?_, ?_⟩⟩
  · by_contra differ
    exact sameHolder ⟨same.symm, differ⟩
  · by_contra differ
    exact sameToken ⟨same.symm, Ne.symm differ⟩

theorem objection_some {st : Status} (objects : objection request s = some (s', st)) :
    s'.subjects = s.subjects ∧ s'.config = s.config := by
  unfold objection contradiction at objects
  split at objects
  · split_ifs at objects <;> · cases objects; exact ⟨rfl, rfl⟩
  · split_ifs at objects
    cases objects
    exact ⟨rfl, rfl⟩

theorem configure_ok (ran : (configure config).exec s = (.ok ⟨⟩, s')) :
    s' = { s with config := config } := by
  obtain ⟨_, ran⟩ := Prog.refuseIf_ok ran
  obtain ⟨_, ran⟩ := Prog.refuseIf_ok ran
  obtain ⟨_, ran⟩ := Prog.refuseIf_ok ran
  cases ran
  rfl

/-- A statement is made after one tick, under the next sequence and without objection. -/
theorem attest_made {a : WitnessAttestation} (ran : (attest request).exec s = (.ok a, s')) :
    objection request { s with clock := s.clock + 1 } = none ∧ ∃ t : WitnessService,
      t = { s with clock := s.clock + 1, lastSequence := s.lastSequence + 1 } ∧
      a = statement request t (remember request t) ∧
      s' = { t with subjects := t.subjects.put (remember request t), issued := t.issued + 1 } := by
  obtain ⟨_, ran⟩ := Prog.refuseIf_ok ran
  obtain ⟨_, ran⟩ := Prog.refuseIf_ok ran
  obtain ⟨_, ran⟩ := Prog.refuseIf_ok ran
  obtain ⟨_, ran⟩ := Prog.refuseIf_ok ran
  rw [Prog.exec_get_bind] at ran
  obtain ⟨_, ran⟩ := Prog.refuseIf_ok ran
  rw [Prog.exec_modify_bind, Prog.exec_get_bind] at ran
  cases quiet : objection request { s with clock := s.clock + 1 } with
  | some refusal => rw [quiet] at ran; cases ran
  | none =>
    rw [quiet] at ran
    obtain ⟨_, ran⟩ := Prog.refuseIf_ok ran
    cases ran
    exact ⟨rfl, _, rfl, rfl, rfl⟩

/-- A statement is consistent with the memory it was made from, and replaces it. -/
theorem attest_ok {a : WitnessAttestation} (ran : (attest request).exec s = (.ok a, s')) :
    s.Consistent a ∧ a.witness = s.config.witness ∧ s'.config = s.config ∧
      ∃ subject : AttestedSubject, s'.subjects = s.subjects.put subject ∧
        subject.key = keyFor a.subjectDomain a.subjectScope ∧ subject.epoch = a.epoch ∧
        subject.incarnation = a.incarnation ∧ subject.fenceToken = a.fenceToken := by
  obtain ⟨quiet, t, rfl, rfl, rfl⟩ := attest_made ran
  refine ⟨?_, rfl, rfl, _, rfl, rfl, rfl, rfl, rfl⟩
  exact objection_none quiet _ ⟨rfl, rfl⟩ ⟨rfl, rfl, rfl⟩

theorem attest_error {st : Status} (ran : (attest request).exec s = (.error st, s')) :
    s'.subjects = s.subjects ∧ s'.config = s.config := by
  simp only [attest, Prog.exec_refuseIf, Prog.exec_get_bind, Prog.exec_modify_bind] at ran
  split at ran
  · cases ran; exact ⟨rfl, rfl⟩
  split at ran
  · cases ran; exact ⟨rfl, rfl⟩
  split at ran
  · cases ran; exact ⟨rfl, rfl⟩
  split at ran
  · cases ran; exact ⟨rfl, rfl⟩
  split at ran
  · cases ran; exact ⟨rfl, rfl⟩
  split at ran
  · rename_i objects
    cases ran
    have kept := objection_some objects
    exact kept
  · rw [Prog.exec_refuseIf] at ran
    split at ran
    · cases ran; exact ⟨rfl, rfl⟩
    · cases ran

end Attest
end WitnessService
end SplitBrainFabric
