import SplitBrainFabric.Library.KeySort
import SplitBrainFabric.Library.Program
import SplitBrainFabric.Library.SortedTable
import SplitBrainFabric.Digest
import SplitBrainFabric.Ids
import Mathlib.Data.Prod.Lex
import Mathlib.Data.Finset.Card

/-! Quorum evidence. A bundle is judged against a profile: only the newest statement
of each witness counts, and one statement that cannot be used spoils the verdict. -/

namespace SplitBrainFabric
open Words

inductive EvidenceState where
  | current | stale | unknown | conflict | invalid | unsupported
  deriving DecidableEq

structure WallClockReading where
  unixNanos : Int64 := 0
  source : UInt64 := 0
  observedRegression : Bool := false
  deriving DecidableEq

structure WitnessAttestation where
  witness : WitnessId := Id.empty
  subjectDomain : DomainId := Id.empty
  subjectScope : Digest256 := Digest256.zero
  epoch : Epoch := 0
  incarnation : IncarnationId := 0
  fenceToken : FenceToken := 0
  witnessGeneration : Generation := 0
  policyGeneration : Generation := 0
  issuedAt : Step := 0
  validUntil : Step := 0
  witnessSequence : Sequence := 0
  support : Bool := true
  observedAt : WallClockReading := {}
  deriving DecidableEq

structure WitnessSlot where
  witness : WitnessId := Id.empty
  faultDomain : FaultDomainId := Id.empty
  deriving DecidableEq

/-- The order of slots: by witness, then by fault domain. -/
def WitnessSlot.sortKey (s : WitnessSlot) : WitnessId ×ₗ FaultDomainId :=
  toLex (s.witness, s.faultDomain)

inductive QuorumMode where
  | majorityDistinctWitnesses | thresholdDistinctWitnesses | unanimousWitnesses
  deriving DecidableEq

structure QuorumProfile where
  policy : PolicyId := Id.empty
  generation : Generation := 1
  witnesses : List WitnessSlot := []
  mode : QuorumMode := .majorityDistinctWitnesses
  threshold : UInt32 := 0
  minFaultDomains : UInt32 := 1
  evidenceHorizonSteps : UInt64 := 1000
  deriving DecidableEq

structure Lease where
  id : LeaseId := 0
  grant : GrantId := 0
  domain : DomainId := Id.empty
  scope : Digest256 := Digest256.zero
  epoch : Epoch := 0
  incarnation : IncarnationId := 0
  fenceToken : FenceToken := 0
  generation : Generation := 0
  policyGeneration : Generation := 0
  validFrom : Step := 0
  validUntil : Step := 0
  deriving DecidableEq

structure WitnessFloor where
  witness : WitnessId := Id.empty
  sequence : Sequence := 0
  generation : Generation := 0
  deriving DecidableEq

structure EvidenceBundle where
  policy : PolicyId := Id.empty
  policyGeneration : Generation := 1
  asOf : Step := 0
  fenceGeneration : Generation := 0
  attestations : List WitnessAttestation := []
  hasLease : Bool := false
  lease : Lease := {}
  deriving DecidableEq

structure EvidenceRequest where
  domain : DomainId := Id.empty
  scope : Digest256 := Digest256.zero
  epoch : Epoch := 0
  incarnation : IncarnationId := 0
  fenceToken : FenceToken := 0
  asOf : Step := 0
  deriving DecidableEq

structure EvidenceAssessment where
  state : EvidenceState := .unknown
  status : Status := .ok
  outcome : Outcome := .unknown
  reason : Reason := .none
  requiredWitnesses : UInt32 := 0
  distinctSupportingWitnesses : UInt32 := 0
  supportingFaultDomains : UInt32 := 0
  floorGeneration : Generation := 0
  ceilingGeneration : Generation := 0
  duplicateAttestations : UInt64 := 0
  replayedAttestations : UInt64 := 0
  rejectedAttestations : UInt64 := 0
  earliestValidUntil : Step := 0
  leasePresent : Bool := false
  leaseValidUntil : Step := 0
  deriving DecidableEq

namespace EvidenceAssessment

/-- An early return of the assessment. -/
def judged (out : EvidenceAssessment) (state : EvidenceState) (outcome : Outcome) (reason : Reason)
    (aux : UInt64 := 0) : EvidenceAssessment :=
  { out with state := state, status := .make outcome reason aux, outcome := outcome
             reason := reason }

end EvidenceAssessment

namespace QuorumProfile

def requiredWitnesses (p : QuorumProfile) : UInt32 :=
  let count := UInt32.ofNat p.witnesses.length
  match p.mode with
  | .majorityDistinctWitnesses => if count = 0 then 0 else count / 2 + 1
  | .thresholdDistinctWitnesses => p.threshold
  | .unanimousWitnesses => count

def validateSlots (i : Nat) (previous : Option WitnessSlot) : List WitnessSlot → Except Status Unit
  | [] => .ok ()
  | slot :: rest =>
    if slot.witness.isEmpty || slot.faultDomain.isEmpty then
      .error (.make .invalid .emptyValue (UInt64.ofNat i))
    else if previous.any (fun p => decide (¬ p.sortKey < slot.sortKey)) then
      .error (.make .invalid .duplicateEntry (UInt64.ofNat i))
    else validateSlots (i + 1) (some slot) rest

def validate (p : QuorumProfile) : Except Status Unit :=
  if p.policy.isEmpty then .error (.make .invalid .policyNotRegistered)
  else if p.generation = 0 then .error (.make .invalid .valueOutOfRange)
  else if p.witnesses = [] then .error (.make .invalid .noAttestations)
  else if Limits.maxWitnessesPerProfile < p.witnesses.length then
    .error (.make .exhausted .boundedTableFull (UInt64.ofNat p.witnesses.length))
  else match validateSlots 0 none p.witnesses with
  | .error st => .error st
  | .ok () =>
    let required := p.requiredWitnesses
    if required = 0 ∨ p.witnesses.length < required.toNat then
      .error (.make .invalid .insufficientDistinctWitnesses required.toUInt64)
    else if p.minFaultDomains = 0 ∨ p.witnesses.length < p.minFaultDomains.toNat then
      .error (.make .invalid .insufficientFaultDomains p.minFaultDomains.toUInt64)
    else if p.evidenceHorizonSteps = 0 ∨ Limits.maxLeaseHorizonSteps < p.evidenceHorizonSteps then
      .error (.make .invalid .valueOutOfRange p.evidenceHorizonSteps)
    else .ok ()

theorem validate_size {p : QuorumProfile} (valid : p.validate = .ok ()) :
    0 < p.witnesses.length ∧ p.witnesses.length ≤ 32 := by
  unfold validate at valid
  obtain ⟨_, valid⟩ := else_of_ne valid (by simp)
  obtain ⟨_, valid⟩ := else_of_ne valid (by simp)
  obtain ⟨filled, valid⟩ := else_of_ne valid (by simp)
  obtain ⟨bounded, _⟩ := else_of_ne valid (by simp)
  exact ⟨List.length_pos_iff.mpr filled, Nat.not_lt.mp bounded⟩

def distinctWitnesses (p : QuorumProfile) : Finset WitnessId :=
  (p.witnesses.map (·.witness)).toFinset

end QuorumProfile

abbrev StatementKey :=
  WitnessId ×ₗ Epoch ×ₗ IncarnationId ×ₗ Sequence ×ₗ Generation ×ₗ FenceToken

/-- The canonical order of statements. It is no order on the statements themselves:
two that agree on these fields may still differ. -/
def WitnessAttestation.sortKey (a : WitnessAttestation) : StatementKey :=
  toLex (a.witness, toLex (a.epoch, toLex (a.incarnation, toLex (a.witnessSequence,
    toLex (a.witnessGeneration, a.fenceToken)))))

def attestationLess (a b : WitnessAttestation) : Bool := a.sortKey < b.sortKey

abbrev FloorTable := SortedTable WitnessFloor.witness

/-- The fault domain the assessor keeps for a witness: of several slots, the last. -/
abbrev SlotTable := SortedTable WitnessSlot.witness

/-- The statement of a witness with the highest sequence seen so far, by position. -/
structure LatestEntry where
  witness : WitnessId
  index : Nat
  sequence : Sequence

abbrev LatestTable := SortedTable LatestEntry.witness

structure SupportEntry where
  witness : WitnessId
  supports : Bool

def latestIndex (sorted : List WitnessAttestation) : LatestTable :=
  sorted.zipIdx.foldl (fun table (a, i) =>
    match table.find a.witness with
    | none => table.put ⟨a.witness, i, a.witnessSequence⟩
    | some entry =>
      if entry.sequence < a.witnessSequence then table.put ⟨a.witness, i, a.witnessSequence⟩
      else table) SortedTable.empty

structure Tally where
  duplicate : UInt64 := 0
  replayed : UInt64 := 0
  rejected : UInt64 := 0
  anyConflict : Bool := false
  anyStale : Bool := false
  anyUnknown : Bool := false
  anyInvalid : Bool := false
  generationMismatch : Bool := false
  seenSupport : SortedTable SupportEntry.witness := SortedTable.empty
  supportingDomains : SortedTable (id : FaultDomainId → FaultDomainId) := SortedTable.empty
  earliestExpiry : Step := maxWord
  floorGeneration : Generation := maxWord
  ceilingGeneration : Generation := 0

/-- How the loop files one statement. -/
inductive Filing where
  | invalid | stale | unknown | mismatched | superseded | belowFloor
  | heard (faultDomain : FaultDomainId)

/-- Every comparison of the loop, in its order. -/
def fileStatement (request : EvidenceRequest) (profile : QuorumProfile) (floors : FloorTable)
    (slots : SlotTable) (latest : LatestTable) (a : WitnessAttestation) (index : Nat) : Filing :=
  if a.witness.isEmpty then .invalid
  else if (latest.find a.witness).any (·.index ≠ index) then .superseded
  else match slots.find a.witness with
  | none => .unknown
  | some slot =>
    if (floors.find a.witness).any (a.witnessSequence ≤ ·.sequence) then .belowFloor
    else if a.subjectScope ≠ request.scope then .invalid
    else if a.subjectDomain ≠ request.domain then .invalid
    else if a.epoch ≠ request.epoch then .stale
    else if a.incarnation ≠ request.incarnation then .invalid
    else if a.fenceToken ≠ request.fenceToken then .stale
    else if a.policyGeneration ≠ profile.generation then .mismatched
    else if a.witnessGeneration = 0 then .invalid
    else if a.validUntil < request.asOf then .stale
    else if request.asOf < a.issuedAt then .unknown
    else .heard slot.faultDomain

namespace Tally

/-- A statement that passed every comparison. -/
def heard (t : Tally) (a : WitnessAttestation) (faultDomain : FaultDomainId) : Tally :=
  let previous := (t.seenSupport.find a.witness).any (·.supports)
  let noted := { t with
    anyConflict := t.anyConflict || (previous && !a.support)
    seenSupport := t.seenSupport.put ⟨a.witness, a.support⟩ }
  if a.support then
    { noted with
      supportingDomains := noted.supportingDomains.put faultDomain
      earliestExpiry := if a.validUntil < t.earliestExpiry then a.validUntil else t.earliestExpiry
      floorGeneration :=
        if a.witnessGeneration < t.floorGeneration then a.witnessGeneration else t.floorGeneration
      ceilingGeneration :=
        if t.ceilingGeneration < a.witnessGeneration then a.witnessGeneration
        else t.ceilingGeneration }
  else { noted with anyConflict := true }

/-- One turn of the assessment loop. -/
def judge (t : Tally) (a : WitnessAttestation) : Filing → Tally
  | .invalid => { t with rejected := t.rejected + 1, anyInvalid := true }
  | .stale => { t with rejected := t.rejected + 1, anyStale := true }
  | .unknown => { t with rejected := t.rejected + 1, anyUnknown := true }
  | .mismatched => { t with rejected := t.rejected + 1, generationMismatch := true }
  | .superseded => { t with duplicate := t.duplicate + 1, replayed := t.replayed + 1 }
  | .belowFloor =>
    { t with replayed := t.replayed + 1, rejected := t.rejected + 1, anyStale := true }
  | .heard faultDomain => t.heard a faultDomain

def supporting (t : Tally) : UInt32 :=
  UInt32.ofNat (t.seenSupport.rows.countP (·.supports))

end Tally

/-- The first thing wrong with a lease, if there is one. -/
def leaseObjection (lease : Lease) (request : EvidenceRequest) (profile : QuorumProfile) :
    Option (EvidenceState × Outcome × Reason) :=
  if lease.id = 0 ∨ lease.grant = 0 ∨ lease.generation = 0 then
    some (.invalid, .invalid, .leaseMissing)
  else if lease.policyGeneration ≠ profile.generation then
    some (.stale, .stale, .leaseGenerationMismatch)
  else if lease.scope ≠ request.scope then some (.invalid, .invalid, .leaseScopeMismatch)
  else if lease.domain ≠ request.domain then some (.invalid, .invalid, .leaseDomainMismatch)
  else if lease.epoch ≠ request.epoch then some (.stale, .stale, .leaseEpochMismatch)
  else if lease.incarnation ≠ request.incarnation then
    some (.stale, .stale, .leaseIncarnationMismatch)
  else if lease.fenceToken ≠ request.fenceToken then some (.stale, .stale, .fenceTokenRegressed)
  else if request.asOf < lease.validFrom then some (.unknown, .unknown, .leaseNotYetValid)
  else if lease.validUntil < request.asOf then some (.stale, .stale, .leaseExpired)
  else none

/-- The verdict once the statements are counted and the lease, if any, is in order. -/
def conclude (profile : QuorumProfile) (t : Tally) (out : EvidenceAssessment) :
    EvidenceAssessment :=
  if t.anyConflict then
    out.judged .conflict .conflict .conflictingAttestations
      out.distinctSupportingWitnesses.toUInt64
  else if t.anyInvalid then
    out.judged .invalid .invalid .witnessScopeMismatch out.rejectedAttestations
  else if t.generationMismatch then out.judged .stale .stale .witnessGenerationMismatch
  else if t.supporting < out.requiredWitnesses then
    if t.anyStale then out.judged .stale .stale .staleAttestation t.supporting.toUInt64
    else out.judged .unknown .unknown .insufficientDistinctWitnesses t.supporting.toUInt64
  else if out.supportingFaultDomains < profile.minFaultDomains then
    out.judged .unknown .unknown .insufficientFaultDomains out.supportingFaultDomains.toUInt64
  else if t.anyStale then
    out.judged .stale .stale .staleAttestation out.rejectedAttestations
  else if t.anyUnknown then
    out.judged .unknown .unknown .witnessEpochMismatch out.rejectedAttestations
  else { out with state := .current, outcome := .ok, reason := .none, status := .ok }

/-- The assessment loop over the statements in the order given. -/
def tallyOf (request : EvidenceRequest) (profile : QuorumProfile) (floors : List WitnessFloor)
    (sorted : List WitnessAttestation) : Tally :=
  let floorTable : FloorTable := floors.foldl SortedTable.put SortedTable.empty
  let slots : SlotTable := profile.witnesses.foldl SortedTable.put SortedTable.empty
  sorted.zipIdx.foldl
    (fun t (a, i) =>
      t.judge a (fileStatement request profile floorTable slots (latestIndex sorted) a i)) {}

def assessInOrder (request : EvidenceRequest) (profile : QuorumProfile) (bundle : EvidenceBundle)
    (floors : List WitnessFloor) (sorted : List WitnessAttestation) : EvidenceAssessment :=
  let start : EvidenceAssessment :=
    { requiredWitnesses := profile.requiredWitnesses, reason := .noAttestations }
  match profile.validate with
  | .error st =>
    { start with state := .invalid, status := st, outcome := .invalid, reason := st.reason }
  | .ok () =>
    if bundle.policy.isEmpty ∨ bundle.policy ≠ profile.policy then
      start.judged .invalid .invalid .policyNotRegistered
    else if bundle.policyGeneration ≠ profile.generation then
      start.judged .stale .stale .policyGenerationMismatch
    else if Limits.maxAttestationsPerBundle < bundle.attestations.length then
      start.judged .invalid .exhausted .boundedTableFull (UInt64.ofNat bundle.attestations.length)
    else
      let t := tallyOf request profile floors sorted
      let counted := { start with
        duplicateAttestations := t.duplicate
        replayedAttestations := t.replayed
        rejectedAttestations := t.rejected
        distinctSupportingWitnesses := t.supporting
        supportingFaultDomains := UInt32.ofNat t.supportingDomains.size
        earliestValidUntil := t.earliestExpiry
        floorGeneration := if 0 < t.supporting then t.floorGeneration else 0
        ceilingGeneration := if 0 < t.supporting then t.ceilingGeneration else 0 }
      if bundle.hasLease then
        match leaseObjection bundle.lease request profile with
        | some (state, outcome, reason) => counted.judged state outcome reason
        | none =>
          conclude profile t { counted with
            leaseValidUntil := bundle.lease.validUntil
            earliestValidUntil := if bundle.lease.validUntil < t.earliestExpiry then
              bundle.lease.validUntil else t.earliestExpiry
            leasePresent := true }
      else conclude profile t counted

/-- What `std::sort` promises: some permutation in canonical order, ties in any order. -/
structure Canonical (statements sorted : List WitnessAttestation) : Prop where
  perm : sorted.Perm statements
  ordered : sorted.Pairwise fun a b => attestationLess b a = false

/-- What `std::sort` makes of statements, and of competing claims, whose keys are equal: the
standard leaves it open. -/
structure Sorting where
  statements : KeySort.Routine StatementKey := .stable
  claims : KeySort.Routine ClaimId := .stable

/-- The statements of a bundle in the order they are assessed in. -/
def Sorting.canonical (sorting : Sorting) (statements : List WitnessAttestation) :
    List WitnessAttestation :=
  sorting.statements.sort (·.sortKey) statements

def assessEvidence (sorting : Sorting) (request : EvidenceRequest) (profile : QuorumProfile)
    (bundle : EvidenceBundle) (floors : List WitnessFloor) : EvidenceAssessment :=
  assessInOrder request profile bundle floors (sorting.canonical bundle.attestations)

theorem attestationLess_eq_false {a b : WitnessAttestation} :
    attestationLess b a = false ↔ a.sortKey ≤ b.sortKey := by
  rw [attestationLess, decide_eq_false_iff_not, not_lt]

theorem Sorting.canonical_perm (sorting : Sorting) (statements : List WitnessAttestation) :
    (sorting.canonical statements).Perm statements :=
  sorting.statements.sort_perm _ statements

theorem Sorting.canonical_sorted (sorting : Sorting) (statements : List WitnessAttestation) :
    (sorting.canonical statements).Pairwise fun a b => a.sortKey ≤ b.sortKey :=
  sorting.statements.sort_ordered _ statements

theorem Sorting.canonical_canonical (sorting : Sorting) (statements : List WitnessAttestation) :
    Canonical statements (sorting.canonical statements) :=
  ⟨sorting.canonical_perm statements,
    (sorting.canonical_sorted statements).imp fun h => attestationLess_eq_false.mpr h⟩

/-- The statement is about exactly what the request binds. -/
structure Speaks (request : EvidenceRequest) (a : WitnessAttestation) : Prop where
  scope : a.subjectScope = request.scope
  domain : a.subjectDomain = request.domain
  epoch : a.epoch = request.epoch
  incarnation : a.incarnation = request.incarnation
  token : a.fenceToken = request.fenceToken

section Loop

variable {request : EvidenceRequest} {profile : QuorumProfile} {floors : FloorTable}
  {slots : SlotTable} {latest : LatestTable} {a : WitnessAttestation} {index : Nat}

/-- Only a statement that passed every comparison is heard. -/
theorem fileStatement_heard {faultDomain : FaultDomainId}
    (filed : fileStatement request profile floors slots latest a index = .heard faultDomain) :
    Speaks request a ∧ (slots.find a.witness).isSome = true := by
  unfold fileStatement at filed
  obtain ⟨_, filed⟩ := else_of_ne filed (by simp)
  obtain ⟨_, filed⟩ := else_of_ne filed (by simp)
  cases found : slots.find a.witness with
  | none => rw [found] at filed; cases filed
  | some slot =>
    rw [found] at filed
    obtain ⟨_, filed⟩ := else_of_ne filed (by simp)
    obtain ⟨scope, filed⟩ := else_of_ne filed (by simp)
    obtain ⟨domain, filed⟩ := else_of_ne filed (by simp)
    obtain ⟨epoch, filed⟩ := else_of_ne filed (by simp)
    obtain ⟨incarnation, filed⟩ := else_of_ne filed (by simp)
    obtain ⟨token, _⟩ := else_of_ne filed (by simp)
    exact ⟨⟨not_not.mp scope, not_not.mp domain, not_not.mp epoch, not_not.mp incarnation,
      not_not.mp token⟩, rfl⟩

theorem Tally.heard_seenSupport (t : Tally) (a : WitnessAttestation) (faultDomain : FaultDomainId) :
    (t.heard a faultDomain).seenSupport = t.seenSupport.put ⟨a.witness, a.support⟩ := by
  unfold Tally.heard
  split <;> rfl

/-- Every recorded supporter is in the profile and is backed by a statement. -/
def Tally.Backed (request : EvidenceRequest) (slots : SlotTable)
    (statements : List WitnessAttestation) (t : Tally) : Prop :=
  ∀ entry ∈ t.seenSupport.rows, (slots.find entry.witness).isSome = true ∧
    ∃ a ∈ statements, a.witness = entry.witness ∧ Speaks request a

theorem Tally.Backed.judge {t : Tally} {statements : List WitnessAttestation}
    (backed : t.Backed request slots statements) (member : a ∈ statements) :
    (t.judge a (fileStatement request profile floors slots latest a index)).Backed request slots
      statements := by
  cases filed : fileStatement request profile floors slots latest a index with
  | heard faultDomain =>
    obtain ⟨speaks, known⟩ := fileStatement_heard filed
    intro entry inside
    rw [Tally.judge, Tally.heard_seenSupport, SortedTable.mem_put] at inside
    rcases inside with rfl | ⟨old, _⟩
    · exact ⟨known, a, member, rfl, speaks⟩
    · exact backed entry old
  | invalid => exact backed
  | stale => exact backed
  | unknown => exact backed
  | mismatched => exact backed
  | superseded => exact backed
  | belowFloor => exact backed

end Loop

section Verdict

variable {request : EvidenceRequest} {profile : QuorumProfile} {bundle : EvidenceBundle}
  {floors : List WitnessFloor} {sorted : List WitnessAttestation}

theorem mem_distinctWitnesses {w : WitnessId}
    (known : ((profile.witnesses.foldl SortedTable.put SortedTable.empty : SlotTable).find
      w).isSome = true) : w ∈ profile.distinctWitnesses := by
  by_contra absent
  have missing : ∀ slot ∈ profile.witnesses, slot.witness ≠ w := by
    intro slot member same
    exact absent (List.mem_toFinset.mpr (List.mem_map.mpr ⟨slot, member, same⟩))
  rw [SortedTable.find_foldl_put profile.witnesses SortedTable.empty w missing] at known
  cases known

theorem tallyOf_backed :
    (tallyOf request profile floors sorted).Backed request
      (profile.witnesses.foldl SortedTable.put SortedTable.empty) sorted := by
  have loop : ∀ (items : List (WitnessAttestation × Nat)) (t : Tally) (floorTable : FloorTable)
      (latest : LatestTable) (slots : SlotTable), (∀ p ∈ items, p.1 ∈ sorted) →
      t.Backed request slots sorted → (items.foldl (fun t (a, i) =>
        t.judge a (fileStatement request profile floorTable slots latest a i)) t).Backed request
          slots sorted := by
    intro items
    induction items with
    | nil => exact fun _ _ _ _ _ backed => backed
    | cons p rest ih =>
      intro t floorTable latest slots inside backed
      refine ih _ floorTable latest slots (fun q member => inside q (List.mem_cons_of_mem p member)) ?_
      exact backed.judge (inside p List.mem_cons_self)
  refine loop _ _ _ _ _ ?_ ?_
  · intro p member
    exact List.fst_mem_of_mem_zipIdx member
  · intro entry member
    cases member

/-- The witnesses counted in favour. -/
def Tally.supporters (t : Tally) : Finset WitnessId :=
  ((t.seenSupport.rows.filter (·.supports)).map (·.witness)).toFinset

theorem Tally.card_supporters (t : Tally) :
    t.supporters.card = t.seenSupport.rows.countP (·.supports) := by
  have distinct : (t.seenSupport.rows.map (·.witness)).Nodup :=
    (List.pairwise_map.mpr t.seenSupport.sorted).imp ne_of_lt
  have kept : ((t.seenSupport.rows.filter (·.supports)).map (·.witness)).Nodup :=
    distinct.sublist (List.filter_sublist.map _)
  rw [Tally.supporters, List.toFinset_card_of_nodup kept, List.length_map,
    List.countP_eq_length_filter]

theorem leaseObjection_state {lease : Lease} {outcome : Outcome} {reason : Reason} :
    leaseObjection lease request profile ≠ some (.current, outcome, reason) := by
  intro objects
  unfold leaseObjection at objects
  obtain ⟨_, objects⟩ := else_of_ne objects (by simp)
  obtain ⟨_, objects⟩ := else_of_ne objects (by simp)
  obtain ⟨_, objects⟩ := else_of_ne objects (by simp)
  obtain ⟨_, objects⟩ := else_of_ne objects (by simp)
  obtain ⟨_, objects⟩ := else_of_ne objects (by simp)
  obtain ⟨_, objects⟩ := else_of_ne objects (by simp)
  obtain ⟨_, objects⟩ := else_of_ne objects (by simp)
  obtain ⟨_, objects⟩ := else_of_ne objects (by simp)
  obtain ⟨_, objects⟩ := else_of_ne objects (by simp)
  cases objects

theorem conclude_current {t : Tally} {out : EvidenceAssessment}
    (current : (conclude profile t out).state = .current) :
    out.requiredWitnesses ≤ t.supporting := by
  by_contra short
  have missing : t.supporting < out.requiredWitnesses := UInt32.not_le.mp short
  unfold conclude at current
  rw [if_pos missing] at current
  split_ifs at current <;> cases current

theorem assess_current
    (current : (assessInOrder request profile bundle floors sorted).state = .current) :
    profile.requiredWitnesses ≤ (tallyOf request profile floors sorted).supporting := by
  unfold assessInOrder at current
  cases valid : profile.validate with
  | error st => rw [valid] at current; cases current
  | ok _ =>
    rw [valid] at current
    simp only [apply_ite EvidenceAssessment.state] at current
    obtain ⟨_, current⟩ := else_of_ne current (by simp [EvidenceAssessment.judged])
    obtain ⟨_, current⟩ := else_of_ne current (by simp [EvidenceAssessment.judged])
    obtain ⟨_, current⟩ := else_of_ne current (by simp [EvidenceAssessment.judged])
    by_cases leased : bundle.hasLease = true
    · rw [if_pos leased] at current
      cases objects : leaseObjection bundle.lease request profile with
      | none =>
        rw [objects] at current
        have enough := conclude_current current
        exact enough
      | some verdict =>
        obtain ⟨state, outcome, reason⟩ := verdict
        rw [objects] at current
        have same : state = .current := current
        exact absurd (same ▸ objects) leaseObjection_state
    · rw [if_neg leased] at current
      have enough := conclude_current current
      exact enough

end Verdict

end SplitBrainFabric
