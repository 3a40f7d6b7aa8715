import SplitBrainFabric.Library.Words

/-! Outcomes, reason codes and limits. The numeric codes are part of the durable
format, so they are kept as data and not as constructor positions. -/

namespace SplitBrainFabric

inductive Outcome where
  | ok | unknown | stale | conflict | invalid | unsupported | fenced | refused | exhausted
  | interrupted | indeterminate | searchLimitReached | notFound | alreadyExists | corrupt
  | unreachable | closed
  deriving DecidableEq, Repr

def Outcome.all : List Outcome := [
  .ok, .unknown, .stale, .conflict, .invalid, .unsupported, .fenced, .refused, .exhausted,
  .interrupted, .indeterminate, .searchLimitReached, .notFound, .alreadyExists, .corrupt,
  .unreachable, .closed]

def Outcome.code : Outcome → UInt16
  | .ok => 0
  | .unknown => 1
  | .stale => 2
  | .conflict => 3
  | .invalid => 4
  | .unsupported => 5
  | .fenced => 6
  | .refused => 7
  | .exhausted => 8
  | .interrupted => 9
  | .indeterminate => 10
  | .searchLimitReached => 11
  | .notFound => 12
  | .alreadyExists => 13
  | .corrupt => 14
  | .unreachable => 15
  | .closed => 16

/-- The name `to_string` gives it. -/
def Outcome.name : Outcome → String
  | .ok => "Ok"
  | .unknown => "Unknown"
  | .stale => "Stale"
  | .conflict => "Conflict"
  | .invalid => "Invalid"
  | .unsupported => "Unsupported"
  | .fenced => "Fenced"
  | .refused => "Refused"
  | .exhausted => "Exhausted"
  | .interrupted => "Interrupted"
  | .indeterminate => "Indeterminate"
  | .searchLimitReached => "SearchLimitReached"
  | .notFound => "NotFound"
  | .alreadyExists => "AlreadyExists"
  | .corrupt => "Corrupt"
  | .unreachable => "Unreachable"
  | .closed => "Closed"

inductive Reason where
  | none | emptyValue | idTooLong | idCharset | valueOutOfRange | counterOverflow
  | boundedTableFull | duplicateEntry | emptyExtentSet | scopeTooLarge | duplicateExtent
  | noAttestations | insufficientDistinctWitnesses | insufficientFaultDomains
  | witnessGenerationMismatch | witnessScopeMismatch | witnessEpochMismatch
  | witnessIncarnationMismatch | conflictingAttestations | duplicateWitness | unknownWitness
  | staleAttestation | policyGenerationMismatch | leaseMissing | leaseGenerationMismatch
  | leaseScopeMismatch | leaseDomainMismatch | leaseEpochMismatch | leaseIncarnationMismatch
  | leaseExpired | leaseNotYetValid | fenceTokenMissing | fenceTokenRegressed | extentFenced
  | incarnationFenced | epochFenced | staleEpoch | epochRegression | epochUnknown
  | overlappingExclusiveClaim | equalEpochConflict | higherEpochClaimant | nonOverlappingAllowed
  | compensatingFenceRequired | observationNotAuthority | eligibilityNotAuthorization
  | recommendationNotAuthority | acknowledgementNotEffect | permitNotApplied | corruptHeader
  | unsupportedVersion | integrityMismatch | sequenceRegression | trailingGarbage
  | impossibleLength | invalidEnum | tornTail | storeNotFound | storeBusy | badMagic
  | truncatedFrame | oversizedPayload | stickyFailure | sessionMismatch | requestIdRegression
  | requestIdReplay | connectionClosed | interruptedByRestart | preRestartAuthorityInvalid
  | incarnationNotCurrent | dependencyUnreachable | noCertificate | planInvalid
  | provenInfeasible | searchLimitReached | storeOwnerMismatch | effectNotVerified
  | tokenFloorRejected | scopeNotRegistered | domainNotRegistered | policyNotRegistered
  | claimNotRegistered | quorumUnreachable | grantNotRegistered | bootNotRegistered
  | reconciliationRequired | lineageDivergence | historyPreserved | internalInvariantViolation
  | resourceExhausted | shutdownInProgress
  deriving DecidableEq, Repr

def Reason.all : List Reason := [
  .none, .emptyValue, .idTooLong, .idCharset, .valueOutOfRange, .counterOverflow,
  .boundedTableFull, .duplicateEntry, .emptyExtentSet, .scopeTooLarge, .duplicateExtent,
  .noAttestations, .insufficientDistinctWitnesses, .insufficientFaultDomains,
  .witnessGenerationMismatch, .witnessScopeMismatch, .witnessEpochMismatch,
  .witnessIncarnationMismatch, .conflictingAttestations, .duplicateWitness, .unknownWitness,
  .staleAttestation, .policyGenerationMismatch, .leaseMissing, .leaseGenerationMismatch,
  .leaseScopeMismatch, .leaseDomainMismatch, .leaseEpochMismatch, .leaseIncarnationMismatch,
  .leaseExpired, .leaseNotYetValid, .fenceTokenMissing, .fenceTokenRegressed, .extentFenced,
  .incarnationFenced, .epochFenced, .staleEpoch, .epochRegression, .epochUnknown,
  .overlappingExclusiveClaim, .equalEpochConflict, .higherEpochClaimant, .nonOverlappingAllowed,
  .compensatingFenceRequired, .observationNotAuthority, .eligibilityNotAuthorization,
  .recommendationNotAuthority, .acknowledgementNotEffect, .permitNotApplied, .corruptHeader,
  .unsupportedVersion, .integrityMismatch, .sequenceRegression, .trailingGarbage,
  .impossibleLength, .invalidEnum, .tornTail, .storeNotFound, .storeBusy, .badMagic,
  .truncatedFrame, .oversizedPayload, .stickyFailure, .sessionMismatch, .requestIdRegression,
  .requestIdReplay, .connectionClosed, .interruptedByRestart, .preRestartAuthorityInvalid,
  .incarnationNotCurrent, .dependencyUnreachable, .noCertificate, .planInvalid,
  .provenInfeasible, .searchLimitReached, .storeOwnerMismatch, .effectNotVerified,
  .tokenFloorRejected, .scopeNotRegistered, .domainNotRegistered, .policyNotRegistered,
  .claimNotRegistered, .quorumUnreachable, .grantNotRegistered, .bootNotRegistered,
  .reconciliationRequired, .lineageDivergence, .historyPreserved, .internalInvariantViolation,
  .resourceExhausted, .shutdownInProgress]

def Reason.code : Reason → UInt16
  | .none => 0
  | .emptyValue => 1
  | .idTooLong => 2
  | .idCharset => 3
  | .valueOutOfRange => 4
  | .counterOverflow => 5
  | .boundedTableFull => 6
  | .duplicateEntry => 7
  | .emptyExtentSet => 8
  | .scopeTooLarge => 9
  | .duplicateExtent => 10
  | .noAttestations => 20
  | .insufficientDistinctWitnesses => 21
  | .insufficientFaultDomains => 22
  | .witnessGenerationMismatch => 23
  | .witnessScopeMismatch => 24
  | .witnessEpochMismatch => 25
  | .witnessIncarnationMismatch => 26
  | .conflictingAttestations => 27
  | .duplicateWitness => 28
  | .unknownWitness => 29
  | .staleAttestation => 30
  | .policyGenerationMismatch => 31
  | .leaseMissing => 40
  | .leaseGenerationMismatch => 41
  | .leaseScopeMismatch => 42
  | .leaseDomainMismatch => 43
  | .leaseEpochMismatch => 44
  | .leaseIncarnationMismatch => 45
  | .leaseExpired => 46
  | .leaseNotYetValid => 47
  | .fenceTokenMissing => 60
  | .fenceTokenRegressed => 61
  | .extentFenced => 62
  | .incarnationFenced => 63
  | .epochFenced => 64
  | .staleEpoch => 70
  | .epochRegression => 71
  | .epochUnknown => 72
  | .overlappingExclusiveClaim => 80
  | .equalEpochConflict => 81
  | .higherEpochClaimant => 82
  | .nonOverlappingAllowed => 83
  | .compensatingFenceRequired => 84
  | .observationNotAuthority => 90
  | .eligibilityNotAuthorization => 91
  | .recommendationNotAuthority => 92
  | .acknowledgementNotEffect => 93
  | .permitNotApplied => 94
  | .corruptHeader => 100
  | .unsupportedVersion => 101
  | .integrityMismatch => 102
  | .sequenceRegression => 103
  | .trailingGarbage => 104
  | .impossibleLength => 105
  | .invalidEnum => 106
  | .tornTail => 107
  | .storeNotFound => 108
  | .storeBusy => 109
  | .badMagic => 120
  | .truncatedFrame => 121
  | .oversizedPayload => 122
  | .stickyFailure => 123
  | .sessionMismatch => 124
  | .requestIdRegression => 125
  | .requestIdReplay => 126
  | .connectionClosed => 127
  | .interruptedByRestart => 140
  | .preRestartAuthorityInvalid => 141
  | .incarnationNotCurrent => 142
  | .dependencyUnreachable => 143
  | .noCertificate => 160
  | .planInvalid => 161
  | .provenInfeasible => 162
  | .searchLimitReached => 163
  | .storeOwnerMismatch => 180
  | .effectNotVerified => 181
  | .tokenFloorRejected => 182
  | .scopeNotRegistered => 190
  | .domainNotRegistered => 191
  | .policyNotRegistered => 192
  | .claimNotRegistered => 193
  | .quorumUnreachable => 194
  | .grantNotRegistered => 195
  | .bootNotRegistered => 196
  | .reconciliationRequired => 200
  | .lineageDivergence => 201
  | .historyPreserved => 202
  | .internalInvariantViolation => 220
  | .resourceExhausted => 221
  | .shutdownInProgress => 222

def Reason.name : Reason → String
  | .none => "None"
  | .emptyValue => "EmptyValue"
  | .idTooLong => "IdTooLong"
  | .idCharset => "IdCharset"
  | .valueOutOfRange => "ValueOutOfRange"
  | .counterOverflow => "CounterOverflow"
  | .boundedTableFull => "BoundedTableFull"
  | .duplicateEntry => "DuplicateEntry"
  | .emptyExtentSet => "EmptyExtentSet"
  | .scopeTooLarge => "ScopeTooLarge"
  | .duplicateExtent => "DuplicateExtent"
  | .noAttestations => "NoAttestations"
  | .insufficientDistinctWitnesses => "InsufficientDistinctWitnesses"
  | .insufficientFaultDomains => "InsufficientFaultDomains"
  | .witnessGenerationMismatch => "WitnessGenerationMismatch"
  | .witnessScopeMismatch => "WitnessScopeMismatch"
  | .witnessEpochMismatch => "WitnessEpochMismatch"
  | .witnessIncarnationMismatch => "WitnessIncarnationMismatch"
  | .conflictingAttestations => "ConflictingAttestations"
  | .duplicateWitness => "DuplicateWitness"
  | .unknownWitness => "UnknownWitness"
  | .staleAttestation => "StaleAttestation"
  | .policyGenerationMismatch => "PolicyGenerationMismatch"
  | .leaseMissing => "LeaseMissing"
  | .leaseGenerationMismatch => "LeaseGenerationMismatch"
  | .leaseScopeMismatch => "LeaseScopeMismatch"
  | .leaseDomainMismatch => "LeaseDomainMismatch"
  | .leaseEpochMismatch => "LeaseEpochMismatch"
  | .leaseIncarnationMismatch => "LeaseIncarnationMismatch"
  | .leaseExpired => "LeaseExpired"
  | .leaseNotYetValid => "LeaseNotYetValid"
  | .fenceTokenMissing => "FenceTokenMissing"
  | .fenceTokenRegressed => "FenceTokenRegressed"
  | .extentFenced => "ExtentFenced"
  | .incarnationFenced => "IncarnationFenced"
  | .epochFenced => "EpochFenced"
  | .staleEpoch => "StaleEpoch"
  | .epochRegression => "EpochRegression"
  | .epochUnknown => "EpochUnknown"
  | .overlappingExclusiveClaim => "OverlappingExclusiveClaim"
  | .equalEpochConflict => "EqualEpochConflict"
  | .higherEpochClaimant => "HigherEpochClaimant"
  | .nonOverlappingAllowed => "NonOverlappingAllowed"
  | .compensatingFenceRequired => "CompensatingFenceRequired"
  | .observationNotAuthority => "ObservationNotAuthority"
  | .eligibilityNotAuthorization => "EligibilityNotAuthorization"
  | .recommendationNotAuthority => "RecommendationNotAuthority"
  | .acknowledgementNotEffect => "AcknowledgementNotEffect"
  | .permitNotApplied => "PermitNotApplied"
  | .corruptHeader => "CorruptHeader"
  | .unsupportedVersion => "UnsupportedVersion"
  | .integrityMismatch => "IntegrityMismatch"
  | .sequenceRegression => "SequenceRegression"
  | .trailingGarbage => "TrailingGarbage"
  | .impossibleLength => "ImpossibleLength"
  | .invalidEnum => "InvalidEnum"
  | .tornTail => "TornTail"
  | .storeNotFound => "StoreNotFound"
  | .storeBusy => "StoreBusy"
  | .badMagic => "BadMagic"
  | .truncatedFrame => "TruncatedFrame"
  | .oversizedPayload => "OversizedPayload"
  | .stickyFailure => "StickyFailure"
  | .sessionMismatch => "SessionMismatch"
  | .requestIdRegression => "RequestIdRegression"
  | .requestIdReplay => "RequestIdReplay"
  | .connectionClosed => "ConnectionClosed"
  | .interruptedByRestart => "InterruptedByRestart"
  | .preRestartAuthorityInvalid => "PreRestartAuthorityInvalid"
  | .incarnationNotCurrent => "IncarnationNotCurrent"
  | .dependencyUnreachable => "DependencyUnreachable"
  | .noCertificate => "NoCertificate"
  | .planInvalid => "PlanInvalid"
  | .provenInfeasible => "ProvenInfeasible"
  | .searchLimitReached => "SearchLimitReached"
  | .storeOwnerMismatch => "StoreOwnerMismatch"
  | .effectNotVerified => "EffectNotVerified"
  | .tokenFloorRejected => "TokenFloorRejected"
  | .scopeNotRegistered => "ScopeNotRegistered"
  | .domainNotRegistered => "DomainNotRegistered"
  | .policyNotRegistered => "PolicyNotRegistered"
  | .claimNotRegistered => "ClaimNotRegistered"
  | .quorumUnreachable => "QuorumUnreachable"
  | .grantNotRegistered => "GrantNotRegistered"
  | .bootNotRegistered => "BootNotRegistered"
  | .reconciliationRequired => "ReconciliationRequired"
  | .lineageDivergence => "LineageDivergence"
  | .historyPreserved => "HistoryPreserved"
  | .internalInvariantViolation => "InternalInvariantViolation"
  | .resourceExhausted => "ResourceExhausted"
  | .shutdownInProgress => "ShutdownInProgress"

def outcomeFromCode (code : UInt16) : Option Outcome := Outcome.all.find? (·.code = code)

def reasonFromCode (code : UInt16) : Option Reason := Reason.all.find? (·.code = code)

@[simp] theorem outcomeFromCode_code (o : Outcome) : outcomeFromCode o.code = some o := by
  cases o <;> rfl

@[simp] theorem reasonFromCode_code (r : Reason) : reasonFromCode r.code = some r := by
  cases r <;> rfl

structure Status where
  outcome : Outcome := .ok
  reason : Reason := .none
  aux : UInt64 := 0
  deriving DecidableEq, Repr

namespace Status

def ok : Status := {}

def make (o : Outcome) (r : Reason) (aux : UInt64 := 0) : Status := ⟨o, r, aux⟩

def isOk (s : Status) : Bool := s.outcome = .ok

@[simp] theorem isOk_ok : ok.isOk = true := rfl

end Status

namespace Limits

def maxIdLength : Nat := 64
def maxTextLength : Nat := 256
def maxExplanationCodes : Nat := 16
def maxExtentsPerScope : Nat := 256
def maxIndexedExtents : Nat := 4096
def maxWitnessesPerProfile : Nat := 32
def maxAttestationsPerBundle : Nat := 64
def maxLeaseHorizonSteps : UInt64 := 1000000
def maxDomains : Nat := 64
def maxLineageEntries : Nat := 4096
def maxFenceRecords : Nat := 8192
def maxDedupEntries : Nat := 4096
def maxInterruptedMarks : Nat := 4096
def maxJournalRecordBytes : Nat := 256 * 1024
def maxSnapshotBytes : Nat := 32 * 1024 * 1024
def maxFabricStoreBytes : Nat := 512 * 1024 * 1024
def maxSnapshotRecords : Nat := 200000

end Limits

end SplitBrainFabric
