import SplitBrainFabric.Session
import SplitBrainFabric.Spellings

/-! The values that travel inside messages. Each decoder accepts the images of its
encoder; a decision also travels with its scope and its reasons spelled in other ways. -/

namespace SplitBrainFabric
open Words Decoder

namespace Limits

def maxExplanationBytes : Nat := 640
def maxCompetingClaims : Nat := 128

end Limits

namespace Status

def encode (s : Status) : Bytes :=
  List.flatten [Writer.outcome s.outcome, Writer.reason s.reason, Writer.u64 s.aux]

def decode : Reader.Read Status := do
  let outcome ← Reader.outcome
  let reason ← Reader.reason
  let aux ← Reader.u64
  pure ⟨outcome, reason, aux⟩

@[simp] theorem encode_length (s : Status) : s.encode.length = 12 := rfl

theorem exact_decode : Exact decode (fun _ => True) encode := by
  refine (exact_outcome.bind fun outcome => exact_reason.bind fun reason =>
    exact_u64.bind fun aux => .pure (⟨outcome, reason, aux⟩ : Status)).congr ?_
  rintro ⟨outcome, reason, aux⟩ image
  simp [encode]

end Status

def encodeWallClock (reading : WallClockReading) : Bytes :=
  List.flatten [Writer.i64 reading.unixNanos, Writer.u64 reading.source,
    Writer.boolean reading.observedRegression]

def decodeWallClock : Reader.Read WallClockReading := do
  let unixNanos ← Reader.i64
  let source ← Reader.u64
  let observedRegression ← Reader.boolean
  pure ⟨unixNanos, source, observedRegression⟩

@[simp] theorem encodeWallClock_length (reading : WallClockReading) :
    (encodeWallClock reading).length = 17 := rfl

theorem exact_wallClock : Exact decodeWallClock (fun _ => True) encodeWallClock := by
  refine (exact_i64.bind fun unixNanos => exact_u64.bind fun source =>
    exact_boolean.bind fun regression =>
      .pure (⟨unixNanos, source, regression⟩ : WallClockReading)).congr ?_
  rintro ⟨unixNanos, source, regression⟩ image
  simp [encodeWallClock, -Bool.exists_bool]

namespace RequestEnvelope

def encode (e : RequestEnvelope) : Bytes :=
  List.flatten [Writer.u64 e.session, Writer.text e.node.value, Writer.u64 e.boot,
    Writer.u64 e.incarnation]

def decode : Reader.Read RequestEnvelope := do
  let session ← Reader.u64
  let node ← Reader.identifier .invalid
  let boot ← Reader.u64
  let incarnation ← Reader.u64
  pure ⟨session, node, boot, incarnation⟩

def Encodable (e : RequestEnvelope) : Prop := e.node.isEmpty = false

theorem exact_decode : Exact decode Encodable encode := by
  refine (exact_u64.bind fun session => (exact_identifier .invalid).bind fun node =>
    exact_u64.bind fun boot => exact_u64.bind fun incarnation =>
      .pure (⟨session, node, boot, incarnation⟩ : RequestEnvelope)).congr ?_
  rintro ⟨session, node, boot, incarnation⟩ image
  simp [encode, Encodable]

theorem encode_length (e : RequestEnvelope) : e.encode.length ≤ 90 := by
  have name := e.node.length_le
  simp [encode]
  omega

end RequestEnvelope

namespace Lease

def encode (l : Lease) : Bytes :=
  List.flatten [Writer.u64 l.id, Writer.u64 l.grant, Writer.text l.domain.value,
    Writer.digest l.scope, Writer.u64 l.epoch, Writer.u64 l.incarnation, Writer.u64 l.fenceToken,
    Writer.u64 l.generation, Writer.u64 l.policyGeneration, Writer.u64 l.validFrom,
    Writer.u64 l.validUntil]

def decode : Reader.Read Lease := do
  let id ← Reader.u64
  let grant ← Reader.u64
  let domain ← Reader.identifier .invalid
  let scope ← Reader.digest
  let epoch ← Reader.u64
  let incarnation ← Reader.u64
  let fenceToken ← Reader.u64
  let generation ← Reader.u64
  let policyGeneration ← Reader.u64
  let validFrom ← Reader.u64
  let validUntil ← Reader.u64
  pure ⟨id, grant, domain, scope, epoch, incarnation, fenceToken, generation, policyGeneration,
    validFrom, validUntil⟩

def Encodable (l : Lease) : Prop := l.domain.isEmpty = false

theorem exact_decode : Exact decode Encodable encode := by
  refine (exact_u64.bind fun id => exact_u64.bind fun grant =>
    (exact_identifier .invalid).bind fun domain => exact_digest.bind fun scope =>
    exact_u64.bind fun epoch => exact_u64.bind fun incarnation =>
    exact_u64.bind fun fenceToken => exact_u64.bind fun generation =>
    exact_u64.bind fun policyGeneration => exact_u64.bind fun validFrom =>
    exact_u64.bind fun validUntil => .pure (⟨id, grant, domain, scope, epoch, incarnation,
      fenceToken, generation, policyGeneration, validFrom, validUntil⟩ : Lease)).congr ?_
  rintro ⟨⟩ image
  simp [encode, Encodable]

theorem encode_length (l : Lease) : l.encode.length ≤ 170 := by
  have name := l.domain.length_le
  simp [encode]
  omega

end Lease

namespace WitnessAttestation

def encode (a : WitnessAttestation) : Bytes :=
  List.flatten [Writer.text a.witness.value, Writer.text a.subjectDomain.value,
    Writer.digest a.subjectScope, Writer.u64 a.epoch, Writer.u64 a.incarnation,
    Writer.u64 a.fenceToken, Writer.u64 a.witnessGeneration, Writer.u64 a.policyGeneration,
    Writer.u64 a.issuedAt, Writer.u64 a.validUntil, Writer.u64 a.witnessSequence,
    Writer.boolean a.support, encodeWallClock a.observedAt]

def decode : Reader.Read WitnessAttestation := do
  let witnessText ← Reader.text
  let domainText ← Reader.text
  let witness ← Reader.idOf .invalid witnessText
  let subjectDomain ← Reader.idOf .invalid domainText
  let subjectScope ← Reader.digest
  let epoch ← Reader.u64
  let incarnation ← Reader.u64
  let fenceToken ← Reader.u64
  let witnessGeneration ← Reader.u64
  let policyGeneration ← Reader.u64
  let issuedAt ← Reader.u64
  let validUntil ← Reader.u64
  let witnessSequence ← Reader.u64
  let support ← Reader.boolean
  let observedAt ← decodeWallClock
  pure ⟨witness, subjectDomain, subjectScope, epoch, incarnation, fenceToken, witnessGeneration,
    policyGeneration, issuedAt, validUntil, witnessSequence, support, observedAt⟩

def Encodable (a : WitnessAttestation) : Prop :=
  a.witness.isEmpty = false ∧ a.subjectDomain.isEmpty = false

theorem exact_decode : Exact decode Encodable encode := by
  refine (exact_text.bind fun witnessText => exact_text.bind fun domainText =>
    (spells_idOf .invalid witnessText).bind fun witness =>
    (spells_idOf .invalid domainText).bind fun subjectDomain =>
    exact_digest.bind fun subjectScope => exact_u64.bind fun epoch =>
    exact_u64.bind fun incarnation => exact_u64.bind fun fenceToken =>
    exact_u64.bind fun witnessGeneration => exact_u64.bind fun policyGeneration =>
    exact_u64.bind fun issuedAt => exact_u64.bind fun validUntil =>
    exact_u64.bind fun witnessSequence => exact_boolean.bind fun support =>
    exact_wallClock.bind fun observedAt => .pure (⟨witness, subjectDomain, subjectScope, epoch,
      incarnation, fenceToken, witnessGeneration, policyGeneration, issuedAt, validUntil,
      witnessSequence, support, observedAt⟩ : WitnessAttestation)).congr ?_
  rintro ⟨witness, subjectDomain⟩ image
  have first := witness.length_le
  have second := subjectDomain.length_le
  simp [encode, Encodable]
  grind

theorem encode_length (a : WitnessAttestation) : a.encode.length ≤ 246 := by
  have first := a.witness.length_le
  have second := a.subjectDomain.length_le
  simp [encode]
  omega

end WitnessAttestation

namespace EvidenceBundle

def encode (b : EvidenceBundle) : Bytes :=
  List.flatten [Writer.text b.policy.value, Writer.u64 b.policyGeneration, Writer.u64 b.asOf,
    Writer.u64 b.fenceGeneration, Writer.sequence (fun a => Writer.blob a.encode) b.attestations,
    Writer.boolean b.hasLease, if b.hasLease then Writer.blob b.lease.encode else []]

def decode : Reader.Read EvidenceBundle := do
  let policy ← Reader.identifier .invalid
  let policyGeneration ← Reader.u64
  let asOf ← Reader.u64
  let fenceGeneration ← Reader.u64
  let attestations ← Reader.sequence Limits.maxAttestationsPerBundle
    (Reader.nested WitnessAttestation.decode)
  let present ← Reader.boolean
  if present = true then do
    let lease ← Reader.nested Lease.decode
    pure ⟨policy, policyGeneration, asOf, fenceGeneration, attestations, true, lease⟩
  else pure ⟨policy, policyGeneration, asOf, fenceGeneration, attestations, false, {}⟩

@[mk_iff] structure Encodable (b : EvidenceBundle) : Prop where
  policy : b.policy.isEmpty = false
  bounded : b.attestations.length ≤ Limits.maxAttestationsPerBundle
  attestations : ∀ a ∈ b.attestations, a.Encodable
  lease : if b.hasLease = true then b.lease.Encodable else b.lease = {}

theorem exact_decode : Exact decode Encodable encode := by
  have attestations : Exact (Reader.sequence Limits.maxAttestationsPerBundle
      (Reader.nested WitnessAttestation.decode))
      (fun xs => xs.length ≤ Limits.maxAttestationsPerBundle ∧ ∀ a ∈ xs, a.Encodable)
      (Writer.sequence fun a => Writer.blob a.encode) :=
    exact_sequence (exact_nested WitnessAttestation.exact_decode fun a _ =>
      a.encode_length.trans (by decide)) (by decide) fun a => blob_ne_nil _
  have lease := exact_nested Lease.exact_decode fun l _ => l.encode_length.trans (by decide)
  refine ((exact_identifier .invalid).bind fun policy => exact_u64.bind fun policyGeneration =>
    exact_u64.bind fun asOf => exact_u64.bind fun fenceGeneration =>
    attestations.bind fun attestations => exact_boolean.bind fun present =>
    Spells.ite (lease.bind fun lease => .pure (⟨policy, policyGeneration, asOf, fenceGeneration,
      attestations, true, lease⟩ : EvidenceBundle)) (.pure (⟨policy, policyGeneration, asOf,
      fenceGeneration, attestations, false, {}⟩ : EvidenceBundle))).congr ?_
  rintro ⟨policy, policyGeneration, asOf, fenceGeneration, attestations, hasLease, lease⟩ image
  cases hasLease
  · simp [encode, encodable_iff]
    grind
  · simp [encode, encodable_iff]
    grind

theorem encode_length {b : EvidenceBundle} (sound : b.Encodable) : b.encode.length ≤ 16400 := by
  have name := b.policy.length_le
  have lease := b.lease.encode_length
  have few := sound.bounded
  have items := length_flatMap_le b.attestations (fun a => Writer.blob a.encode)
    (k := 250) fun a _ => by
      have item := a.encode_length
      simp
      omega
  simp only [Limits.maxAttestationsPerBundle] at few
  simp only [encode, Writer.sequence]
  split
  · simp [-List.length_flatMap]
    omega
  · simp [-List.length_flatMap]
    omega

end EvidenceBundle

namespace AuthorityVector

def encode (v : AuthorityVector) : Bytes :=
  List.flatten [Writer.text v.domain.value, Writer.digest v.scope, Writer.u64 v.epoch,
    Writer.u64 v.incarnation, Writer.u64 v.fenceToken, Writer.u64 v.grant,
    Writer.u64 v.authoritySequence, Writer.u64 v.policyGeneration,
    Writer.u64 v.evidenceGeneration, Writer.u64 v.fenceGeneration]

/-- A vector without a domain is what a refusal carries that never got to a subject. -/
def decode : Reader.Read AuthorityVector := do
  let domain ← Reader.optionalId .invalid
  let scope ← Reader.digest
  let epoch ← Reader.u64
  let incarnation ← Reader.u64
  let fenceToken ← Reader.u64
  let grant ← Reader.u64
  let authoritySequence ← Reader.u64
  let policyGeneration ← Reader.u64
  let evidenceGeneration ← Reader.u64
  let fenceGeneration ← Reader.u64
  pure ⟨domain, scope, epoch, incarnation, fenceToken, grant, authoritySequence, policyGeneration,
    evidenceGeneration, fenceGeneration⟩

theorem exact_decode : Exact decode (fun _ => True) encode := by
  refine ((exact_optionalId .invalid).bind fun domain => exact_digest.bind fun scope =>
    exact_u64.bind fun epoch => exact_u64.bind fun incarnation =>
    exact_u64.bind fun fenceToken => exact_u64.bind fun grant =>
    exact_u64.bind fun authoritySequence => exact_u64.bind fun policyGeneration =>
    exact_u64.bind fun evidenceGeneration => exact_u64.bind fun fenceGeneration =>
      .pure (⟨domain, scope, epoch, incarnation, fenceToken, grant, authoritySequence,
        policyGeneration, evidenceGeneration, fenceGeneration⟩ : AuthorityVector)).congr ?_
  rintro ⟨⟩ image
  simp [encode]

theorem encode_length (v : AuthorityVector) : v.encode.length ≤ 162 := by
  have name := v.domain.length_le
  simp [encode]
  omega

end AuthorityVector

namespace AuthorityMode

def code : AuthorityMode → UInt16
  | .observation => 0
  | .eligibilityProbe => 1
  | .recommendationRequest => 2
  | .sharedRead => 3
  | .exclusiveMutation => 4

def fromCode (code : UInt16) : Option AuthorityMode :=
  [observation, eligibilityProbe, recommendationRequest, sharedRead, exclusiveMutation].find?
    (·.code = code)

@[simp] theorem fromCode_code (m : AuthorityMode) : fromCode m.code = some m := by cases m <;> rfl

theorem exact_read : Exact (Reader.enum fromCode) (fun _ => True) fun m => Writer.u16 m.code :=
  exact_enum fromCode_code code_of_find

end AuthorityMode

namespace AuthorityVerdict

def all : List AuthorityVerdict := [
  .authoritative, .fenced, .observeOnly, .eligible, .recommended, .acknowledged, .applied,
  .unknown, .stale, .conflict, .invalid, .unsupported, .refused, .interrupted]

def code : AuthorityVerdict → UInt16
  | .authoritative => 0
  | .fenced => 1
  | .observeOnly => 2
  | .eligible => 3
  | .recommended => 4
  | .acknowledged => 5
  | .applied => 6
  | .unknown => 7
  | .stale => 8
  | .conflict => 9
  | .invalid => 10
  | .unsupported => 11
  | .refused => 12
  | .interrupted => 13

def fromCode (code : UInt16) : Option AuthorityVerdict := all.find? (·.code = code)

@[simp] theorem fromCode_code (v : AuthorityVerdict) : fromCode v.code = some v := by
  cases v <;> rfl

theorem exact_read : Exact (Reader.enum fromCode) (fun _ => True) fun v => Writer.u16 v.code :=
  exact_enum fromCode_code code_of_find

end AuthorityVerdict

/-- A scope is spelled in as many bytes as its canonical image has. -/
theorem Scope.Spelled.length {s : Scope} {image : Bytes} (spelled : s.Spelled image) :
    image.length = s.encode.length := by
  obtain ⟨extents, same, rfl⟩ := spelled
  have items := (same.flatMap_right fun e => Writer.text e.value).length_eq
  simp [Scope.encode, Writer.sequence, items]

theorem spells_nestedScope : Spells (Reader.nested Scope.decode) fun s image =>
    ∃ i, s.Spelled i ∧ image = Writer.blob i :=
  spells_nested Scope.spells_decode fun s _ spelled => spelled.length.trans_le s.encode_fits

theorem exact_nestedStatus : Exact (Reader.nested Status.decode) (fun _ => True)
    fun s => Writer.blob s.encode :=
  exact_nested Status.exact_decode fun s _ => by rw [Status.encode_length]; decide

namespace Explanation

/-- The codes of an explanation as a list of codes adds them up. -/
def gather (codes : List Reason) : Explanation := codes.foldl add {}

/-- What adding codes one by one keeps. -/
structure Kept (e : Explanation) : Prop where
  distinct : e.codes.Nodup
  filled : Reason.none ∉ e.codes
  few : e.codes.length ≤ Limits.maxExplanationCodes

theorem Kept.add {e : Explanation} (kept : e.Kept) (reason : Reason) : (e.add reason).Kept := by
  unfold Explanation.add
  split
  · exact kept
  · rename_i fresh
    obtain ⟨filled, absent, room⟩ := by simpa only [not_or] using fresh
    constructor
    · exact List.nodup_append.mpr ⟨kept.distinct, List.nodup_singleton _, by
        rintro x member y here rfl
        exact absent (List.mem_singleton.mp here ▸ member)⟩
    · intro member
      rcases List.mem_append.mp member with old | new
      · exact kept.filled old
      · exact filled (List.mem_singleton.mp new).symm
    · simp only [List.length_append, List.length_singleton]
      omega

theorem kept_gather (codes : List Reason) : (gather codes).Kept := by
  have run : ∀ (e : Explanation), e.Kept → (codes.foldl Explanation.add e).Kept := by
    induction codes with
    | nil => exact fun e kept => kept
    | cons r rest ih => exact fun e kept => ih (e.add r) (kept.add r)
  exact run {} ⟨List.nodup_nil, by simp, by simp⟩

/-- Codes that would all be kept are gathered as they are. -/
theorem gather_of_kept {e : Explanation} (kept : e.Kept) : gather e.codes = e := by
  have run : ∀ (rest front : List Reason), (⟨front ++ rest⟩ : Explanation).Kept →
      rest.foldl Explanation.add ⟨front⟩ = ⟨front ++ rest⟩ := by
    intro rest
    induction rest with
    | nil =>
      intro front _
      rw [List.append_nil]
      rfl
    | cons r rest ih =>
      intro front kept
      have fresh : ¬ (r = .none ∨ r ∈ front ∨ Limits.maxExplanationCodes ≤ front.length) := by
        have few := kept.few
        simp only [List.length_append, List.length_cons] at few
        rintro (rfl | member | full)
        · exact kept.filled (by simp)
        · exact (List.nodup_append.mp kept.distinct).2.2 r member r List.mem_cons_self rfl
        · omega
      rw [List.foldl_cons, Explanation.add, if_neg fresh, ih]
      · simp
      · simpa using kept
  exact run e.codes [] kept

end Explanation

namespace AuthorityDecision

def digest (d : AuthorityDecision) : Digest256 :=
  Digest256.of (List.flatten [Writer.u16 d.verdict.code, Writer.outcome d.status.outcome,
    Writer.reason d.status.reason, Writer.u64 d.status.aux, d.vector.encode,
    Writer.u64 d.decisionSequence, Writer.boolean d.revocable])

/-- The image of a decision around given codes and a given image of its scope. -/
def encodeWith (codes : List Reason) (scope : Bytes) (d : AuthorityDecision) : Bytes :=
  List.flatten [Writer.u16 d.verdict.code, Writer.blob d.status.encode,
    Writer.sequence Writer.reason codes, Writer.blob d.vector.encode,
    Writer.text d.claim.value, Writer.blob scope, Writer.u64 d.validFrom, Writer.u64 d.validUntil,
    Writer.sequence (fun c => Writer.text c.value) d.mustFence,
    Writer.sequence (fun e => Writer.text e.value) d.fencedExtents,
    Writer.u64 d.decisionSequence, Writer.boolean d.revocable, Writer.digest d.digest]

def encode (d : AuthorityDecision) : Bytes := d.encodeWith d.explanation.codes d.scope.encode

def decode : Reader.Read AuthorityDecision := do
  let verdict ← Reader.enum AuthorityVerdict.fromCode
  let status ← Reader.nested Status.decode
  let codes ← Reader.sequence Limits.maxExplanationCodes Reader.reason
  let vector ← Reader.nested AuthorityVector.decode
  let claim ← Reader.optionalId .invalid
  let scope ← Reader.nested Scope.decode
  let validFrom ← Reader.u64
  let validUntil ← Reader.u64
  let mustFence ← Reader.sequence Limits.maxCompetingClaims (Reader.identifier .invalid)
  let fencedExtents ← Reader.sequence Limits.maxExtentsPerScope (Reader.identifier .invalid)
  let decisionSequence ← Reader.u64
  let revocable ← Reader.boolean
  let digest ← Reader.digest
  let decision : AuthorityDecision := ⟨verdict, status, Explanation.gather codes, vector, claim,
    scope, validFrom, validUntil, mustFence, fencedExtents, decisionSequence, revocable⟩
  refuseIf (digest ≠ decision.digest) (.make .corrupt .integrityMismatch)
  pure decision

/-- The two identifier lists of a decision are within their bounds and name something. -/
@[mk_iff] structure Listed (d : AuthorityDecision) : Prop where
  fewClaims : d.mustFence.length ≤ Limits.maxCompetingClaims
  claims : ∀ c ∈ d.mustFence, c.isEmpty = false
  fewExtents : d.fencedExtents.length ≤ Limits.maxExtentsPerScope
  extents : ∀ e ∈ d.fencedExtents, e.isEmpty = false

def Encodable (d : AuthorityDecision) : Prop :=
  d.Listed ∧ ∃ codes, d.explanation = Explanation.gather codes

/-- Codes that an explanation comes from, and a spelling of the scope. -/
def Spelled (d : AuthorityDecision) (image : Bytes) : Prop :=
  d.Listed ∧ ∃ codes scope, (codes.length ≤ Limits.maxExplanationCodes ∧
    Explanation.gather codes = d.explanation) ∧ d.scope.Spelled scope ∧
      image = d.encodeWith codes scope

theorem exact_ids {tag : IdTag} {bound : Nat} (small : bound < 2 ^ 32) :
    Exact (Reader.sequence bound (Reader.identifier .invalid : Reader.Read (Id tag)))
      (fun xs => xs.length ≤ bound ∧ ∀ x ∈ xs, x.isEmpty = false)
      (Writer.sequence fun x => Writer.text x.value) :=
  exact_sequence (exact_identifier _) small fun x none => by
    simpa using congrArg List.length none

theorem exact_codes : Exact (Reader.sequence Limits.maxExplanationCodes Reader.reason)
    (fun xs => xs.length ≤ Limits.maxExplanationCodes ∧ ∀ r ∈ xs, True)
    (Writer.sequence Writer.reason) :=
  exact_sequence exact_reason (by decide) fun r none => by simpa using congrArg List.length none

theorem spells_decode : Spells decode Spelled := by
  have vector := exact_nested AuthorityVector.exact_decode fun v _ =>
    v.encode_length.trans (by decide)
  refine (AuthorityVerdict.exact_read.bind fun verdict => exact_nestedStatus.bind fun status =>
    exact_codes.bind fun codes => vector.bind fun vector => (exact_optionalId .invalid).bind fun claim =>
    spells_nestedScope.bind fun scope => exact_u64.bind fun validFrom =>
    exact_u64.bind fun validUntil => (exact_ids (by decide)).bind fun mustFence =>
    (exact_ids (by decide)).bind fun fencedExtents => exact_u64.bind fun decisionSequence =>
    exact_boolean.bind fun revocable => exact_digest.bind fun digest =>
    .refuseIf (.pure (⟨verdict, status, Explanation.gather codes, vector, claim, scope, validFrom,
      validUntil, mustFence, fencedExtents, decisionSequence, revocable⟩ :
        AuthorityDecision))).congr ?_
  rintro ⟨⟩ image
  simp [Spelled, encodeWith, listed_iff, -Bool.exists_bool]
  constructor
  · rintro ⟨⟨fewClaims, claims, fewExtents, extents⟩, codes, ⟨few, gathered⟩, scope, spelled, rfl⟩
    subst gathered
    exact ⟨codes, scope, ⟨few, spelled, ⟨fewClaims, claims⟩, ⟨fewExtents, extents⟩, rfl⟩, rfl⟩
  · rintro ⟨codes, scope, ⟨few, spelled, ⟨fewClaims, claims⟩, ⟨fewExtents, extents⟩, rfl⟩, rfl⟩
    exact ⟨⟨fewClaims, claims, fewExtents, extents⟩, codes, ⟨few, rfl⟩, scope, spelled, rfl⟩

theorem Spelled.length {d : AuthorityDecision} {image : Bytes} (spelled : d.Spelled image) :
    image.length ≤ Limits.maxSnapshotBytes := by
  obtain ⟨listed, codes, scope, ⟨few, -⟩, around, rfl⟩ := spelled
  have reasons := length_flatMap_le codes Writer.reason (k := 2)
    fun r _ => le_of_eq (Writer.reason_length r)
  have claims := length_flatMap_le d.mustFence (fun c => Writer.text c.value) (k := 66)
    fun c _ => by
      have short := c.length_le
      simp
      omega
  have extents := length_flatMap_le d.fencedExtents (fun e => Writer.text e.value)
    (k := 66) fun e _ => by
      have short := e.length_le
      simp
      omega
  have size := around.length.trans_le d.scope.encode_length
  have vector := d.vector.encode_length
  have claim := d.claim.length_le
  have fewClaims := listed.fewClaims
  have fewExtents := listed.fewExtents
  simp only [Limits.maxCompetingClaims, Limits.maxExtentsPerScope,
    Limits.maxExplanationCodes] at fewClaims fewExtents few
  simp [encodeWith, Writer.sequence, Limits.maxSnapshotBytes, -List.length_flatMap]
  omega

end AuthorityDecision

namespace DomainDefinition

def encodeWith (scope : Bytes) (d : DomainDefinition) : Bytes :=
  List.flatten [Writer.text d.domain.value, Writer.text d.node.value, Writer.blob scope,
    Writer.text d.policy.value, Writer.boolean d.exclusive]

def encode (d : DomainDefinition) : Bytes := d.encodeWith d.scope.encode

def decode : Reader.Read DomainDefinition := do
  let domainText ← Reader.text
  let nodeText ← Reader.text
  let domain ← Reader.idOf .invalid domainText
  let node ← Reader.idOf .invalid nodeText
  let scope ← Reader.nested Scope.decode
  let policy ← Reader.identifier .invalid
  let exclusive ← Reader.boolean
  pure ⟨domain, node, scope, policy, exclusive⟩

@[mk_iff] structure Encodable (d : DomainDefinition) : Prop where
  domain : d.domain.isEmpty = false
  node : d.node.isEmpty = false
  policy : d.policy.isEmpty = false

def Spelled (d : DomainDefinition) (image : Bytes) : Prop :=
  d.Encodable ∧ ∃ scope, d.scope.Spelled scope ∧ image = d.encodeWith scope

theorem spells_decode : Spells decode Spelled := by
  refine (exact_text.bind fun domainText => exact_text.bind fun nodeText =>
    (spells_idOf .invalid domainText).bind fun domain =>
    (spells_idOf .invalid nodeText).bind fun node => spells_nestedScope.bind fun scope =>
    (exact_identifier .invalid).bind fun policy => exact_boolean.bind fun exclusive =>
      .pure (⟨domain, node, scope, policy, exclusive⟩ : DomainDefinition)).congr ?_
  rintro ⟨domain, node⟩ image
  have first := domain.length_le
  have second := node.length_le
  simp [Spelled, encodeWith, encodable_iff, -Bool.exists_bool]
  grind

theorem Spelled.length {d : DomainDefinition} {image : Bytes} (spelled : d.Spelled image) :
    image.length ≤ Limits.maxSnapshotBytes := by
  obtain ⟨-, scope, around, rfl⟩ := spelled
  have size := around.length.trans_le d.scope.encode_length
  have name := d.domain.length_le
  have node := d.node.length_le
  have policy := d.policy.length_le
  simp [encodeWith, Limits.maxSnapshotBytes]
  omega

end DomainDefinition

end SplitBrainFabric
