import SplitBrainFabric.Tallied

/-! What a verdict of current evidence means: enough distinct witnesses of the profile,
each with a statement that agrees with the request in every binding, and nothing that
could not be used. -/

namespace SplitBrainFabric
open Words

/-- The checks that come before any statement is looked at. -/
structure Weighed (profile : QuorumProfile) (bundle : EvidenceBundle) : Prop where
  valid : profile.validate = .ok ()
  named : bundle.policy.isEmpty = false
  policy : bundle.policy = profile.policy
  generation : bundle.policyGeneration = profile.generation
  bounded : bundle.attestations.length ≤ Limits.maxAttestationsPerBundle

/-- The lease is bound to the request and contains its step. -/
structure Lease.Holds (lease : Lease) (request : EvidenceRequest) (profile : QuorumProfile) :
    Prop where
  id : lease.id ≠ 0
  grant : lease.grant ≠ 0
  generation : lease.generation ≠ 0
  policyGeneration : lease.policyGeneration = profile.generation
  scope : lease.scope = request.scope
  domain : lease.domain = request.domain
  epoch : lease.epoch = request.epoch
  incarnation : lease.incarnation = request.incarnation
  token : lease.fenceToken = request.fenceToken
  begun : lease.validFrom ≤ request.asOf
  unexpired : request.asOf ≤ lease.validUntil

theorem leaseObjection_none_iff {lease : Lease} {request : EvidenceRequest}
    {profile : QuorumProfile} :
    leaseObjection lease request profile = none ↔ lease.Holds request profile := by
  constructor
  · intro sound
    unfold leaseObjection at sound
    obtain ⟨numbers, sound⟩ := else_of_ne sound nofun
    obtain ⟨policyGeneration, sound⟩ := else_of_ne sound nofun
    obtain ⟨scope, sound⟩ := else_of_ne sound nofun
    obtain ⟨domain, sound⟩ := else_of_ne sound nofun
    obtain ⟨epoch, sound⟩ := else_of_ne sound nofun
    obtain ⟨incarnation, sound⟩ := else_of_ne sound nofun
    obtain ⟨token, sound⟩ := else_of_ne sound nofun
    obtain ⟨begun, sound⟩ := else_of_ne sound nofun
    obtain ⟨unexpired, -⟩ := else_of_ne sound nofun
    exact {
      id := fun zero => numbers (.inl zero)
      grant := fun zero => numbers (.inr (.inl zero))
      generation := fun zero => numbers (.inr (.inr zero))
      policyGeneration := not_not.mp policyGeneration
      scope := not_not.mp scope
      domain := not_not.mp domain
      epoch := not_not.mp epoch
      incarnation := not_not.mp incarnation
      token := not_not.mp token
      begun := not_lt.mp begun
      unexpired := not_lt.mp unexpired }
  · intro holds
    have numbers : ¬ (lease.id = 0 ∨ lease.grant = 0 ∨ lease.generation = 0) := by
      simp [holds.id, holds.grant, holds.generation]
    unfold leaseObjection
    rw [if_neg numbers, if_neg (not_not.mpr holds.policyGeneration),
      if_neg (not_not.mpr holds.scope), if_neg (not_not.mpr holds.domain),
      if_neg (not_not.mpr holds.epoch), if_neg (not_not.mpr holds.incarnation),
      if_neg (not_not.mpr holds.token), if_neg (not_lt.mpr holds.begun),
      if_neg (not_lt.mpr holds.unexpired)]

/-- Everybody who has a statement in the bundle. -/
def EvidenceBundle.witnesses (bundle : EvidenceBundle) : Finset WitnessId :=
  (bundle.attestations.map (·.witness)).toFinset

/-- What it takes for a bundle, assessed in some order, to be current evidence. -/
structure ProvenIn (request : EvidenceRequest) (profile : QuorumProfile) (bundle : EvidenceBundle)
    (floors : List WitnessFloor) (sorted : List WitnessAttestation) : Prop where
  weighed : Weighed profile bundle
  named : ∀ a ∈ bundle.attestations, a.witness.isEmpty = false
  backed : ∀ a ∈ considered sorted, a.support = true ∧ Qualifies request profile floors a
  enough : profile.requiredWitnesses.toNat ≤ bundle.witnesses.card
  spread : profile.minFaultDomains.toNat ≤ (bundle.witnesses.image profile.faultDomainOf).card
  lease : bundle.hasLease = true → bundle.lease.Holds request profile

abbrev Proven (sorting : Sorting) (request : EvidenceRequest) (profile : QuorumProfile)
    (bundle : EvidenceBundle) (floors : List WitnessFloor) : Prop :=
  ProvenIn request profile bundle floors (sorting.canonical bundle.attestations)

section Assessment

variable {request : EvidenceRequest} {profile : QuorumProfile} {bundle : EvidenceBundle}
  {floors : List WitnessFloor} {sorted : List WitnessAttestation}

/-- The assessment once the statements are counted. -/
def countedFrom (profile : QuorumProfile) (t : Tally) : EvidenceAssessment where
  requiredWitnesses := profile.requiredWitnesses
  reason := .noAttestations
  duplicateAttestations := t.duplicate
  replayedAttestations := t.replayed
  rejectedAttestations := t.rejected
  distinctSupportingWitnesses := t.supporting
  supportingFaultDomains := UInt32.ofNat t.supportingDomains.size
  earliestValidUntil := t.earliestExpiry
  floorGeneration := if 0 < t.supporting then t.floorGeneration else 0
  ceilingGeneration := if 0 < t.supporting then t.ceilingGeneration else 0

/-- What the lease adds to a counted assessment. -/
def EvidenceAssessment.leased (counted : EvidenceAssessment) (lease : Lease) :
    EvidenceAssessment :=
  { counted with
    leaseValidUntil := lease.validUntil
    earliestValidUntil := if lease.validUntil < counted.earliestValidUntil then lease.validUntil
      else counted.earliestValidUntil
    leasePresent := true }

variable (request profile bundle) in
/-- The verdict over a tally. -/
def verdictOn (t : Tally) : EvidenceAssessment :=
  if bundle.hasLease then
    match leaseObjection bundle.lease request profile with
    | some (state, outcome, reason) => (countedFrom profile t).judged state outcome reason
    | none => conclude profile t ((countedFrom profile t).leased bundle.lease)
  else conclude profile t (countedFrom profile t)

variable (request floors sorted) in
theorem assess_weighed (weighed : Weighed profile bundle) :
    assessInOrder request profile bundle floors sorted =
      verdictOn request profile bundle (tallyOf request profile floors sorted) := by
  have policy : ¬ (bundle.policy.isEmpty = true ∨ bundle.policy ≠ profile.policy) := by
    simp [weighed.policy ▸ weighed.named, weighed.policy]
  unfold assessInOrder
  simp only [weighed.valid]
  rw [if_neg policy, if_neg (not_not.mpr weighed.generation), if_neg (not_lt.mpr weighed.bounded)]
  rfl

/-- A bundle that fails the first checks is judged without its statements. -/
theorem assess_unweighed (unweighed : ¬ Weighed profile bundle)
    {arrival : List WitnessAttestation} (same : arrival.length = bundle.attestations.length) :
    assessInOrder request profile { bundle with attestations := arrival } floors sorted =
      assessInOrder request profile bundle floors [] := by
  unfold assessInOrder
  cases valid : profile.validate with
  | error st => rfl
  | ok u =>
    simp only [same]
    by_cases policy : bundle.policy.isEmpty = true ∨ bundle.policy ≠ profile.policy
    · rw [if_pos policy, if_pos policy]
    rw [if_neg policy, if_neg policy]
    by_cases generation : bundle.policyGeneration = profile.generation
    · rw [if_neg (not_not.mpr generation), if_neg (not_not.mpr generation)]
      by_cases large : Limits.maxAttestationsPerBundle < bundle.attestations.length
      · rw [if_pos large, if_pos large]
      · obtain ⟨named, kept⟩ := not_or.mp policy
        exact absurd ⟨valid, Bool.not_eq_true _ ▸ named, not_not.mp kept, generation,
          not_lt.mp large⟩ unweighed
    · rw [if_pos generation, if_pos generation]

theorem weighed_of_current
    (current : (assessInOrder request profile bundle floors sorted).state = .current) :
    Weighed profile bundle := by
  unfold assessInOrder at current
  cases valid : profile.validate with
  | error st =>
    rw [valid] at current
    cases current
  | ok u =>
    simp only [valid, apply_ite EvidenceAssessment.state] at current
    obtain ⟨policy, current⟩ := else_of_ne current nofun
    obtain ⟨generation, current⟩ := else_of_ne current nofun
    obtain ⟨large, -⟩ := else_of_ne current nofun
    obtain ⟨named, kept⟩ := not_or.mp policy
    exact ⟨valid, Bool.not_eq_true _ ▸ named, not_not.mp kept, not_not.mp generation,
      not_lt.mp large⟩

theorem conclude_current_iff {t : Tally} {out : EvidenceAssessment} :
    (conclude profile t out).state = .current ↔ t.anyConflict = false ∧ t.anyInvalid = false ∧
      t.generationMismatch = false ∧ out.requiredWitnesses ≤ t.supporting ∧
      profile.minFaultDomains ≤ out.supportingFaultDomains ∧ t.anyStale = false ∧
      t.anyUnknown = false := by
  unfold conclude
  by_cases conflict : t.anyConflict = true
  · simp [conflict, EvidenceAssessment.judged]
  by_cases invalid : t.anyInvalid = true
  · simp [conflict, invalid, EvidenceAssessment.judged]
  by_cases mismatch : t.generationMismatch = true
  · simp [conflict, invalid, mismatch, EvidenceAssessment.judged]
  by_cases short : t.supporting < out.requiredWitnesses
  · have few : ¬ out.requiredWitnesses ≤ t.supporting := UInt32.not_le.mpr short
    simp only [conflict, invalid, mismatch, short, few]
    split_ifs <;> simp_all [EvidenceAssessment.judged]
  by_cases narrow : out.supportingFaultDomains < profile.minFaultDomains
  · have few : ¬ profile.minFaultDomains ≤ out.supportingFaultDomains := UInt32.not_le.mpr narrow
    simp [conflict, invalid, mismatch, short, narrow, few, EvidenceAssessment.judged]
  by_cases stale : t.anyStale = true
  · simp [conflict, invalid, mismatch, short, narrow, stale, EvidenceAssessment.judged]
  by_cases unknown : t.anyUnknown = true
  · simp [conflict, invalid, mismatch, short, narrow, stale, unknown, EvidenceAssessment.judged]
  · simp [conflict, invalid, mismatch, short, narrow, stale, unknown, UInt32.not_lt.mp short,
      UInt32.not_lt.mp narrow]

theorem verdictOn_current_iff {t : Tally} :
    (verdictOn request profile bundle t).state = .current ↔
      (bundle.hasLease = true → bundle.lease.Holds request profile) ∧
        (conclude profile t (countedFrom profile t)).state = .current := by
  unfold verdictOn
  by_cases leased : bundle.hasLease = true
  · rw [if_pos leased]
    cases objects : leaseObjection bundle.lease request profile with
    | none =>
      have same : (conclude profile t ((countedFrom profile t).leased bundle.lease)).state =
          .current ↔ (conclude profile t (countedFrom profile t)).state = .current := by
        rw [conclude_current_iff, conclude_current_iff]
        rfl
      simp [leaseObjection_none_iff.mp objects, same]
    | some verdict =>
      obtain ⟨state, outcome, reason⟩ := verdict
      have spoiled : state ≠ .current := fun same => leaseObjection_state (same ▸ objects)
      have fails : ¬ bundle.lease.Holds request profile := by
        intro holds
        rw [leaseObjection_none_iff.mpr holds] at objects
        cases objects
      simp [EvidenceAssessment.judged, spoiled, leased, fails]
  · rw [if_neg leased]
    simp [leased]

/-- Every flag of the tally stays down exactly when nothing that counts is unusable. -/
theorem quiet_iff {superseded unnamed : Nat} {counting : List WitnessAttestation}
    {t : Tally} (closed : t = tallied request profile floors superseded unnamed counting) :
    (t.anyConflict = false ∧ t.anyInvalid = false ∧ t.generationMismatch = false ∧
        t.anyStale = false ∧ t.anyUnknown = false) ↔
      unnamed = 0 ∧ ∀ a ∈ counting, a.support = true ∧ Qualifies request profile floors a := by
  subst closed
  simp only [tallied, List.any_eq_false, Bool.or_eq_false_iff, decide_eq_false_iff_not, not_lt,
    Nat.le_zero]
  constructor
  · rintro ⟨conflict, ⟨none, invalid⟩, mismatch, stale, unknown⟩
    refine ⟨none, fun a member => ?_⟩
    have heard : (appraised request profile floors a).isHeard = true := by
      cases filed : appraised request profile floors a with
      | heard d => rfl
      | invalid => exact absurd (by rw [filed]; rfl) (invalid a member)
      | stale | belowFloor => exact absurd (by rw [filed]; rfl) (stale a member)
      | unknown => exact absurd (by rw [filed]; rfl) (unknown a member)
      | mismatched => exact absurd (by rw [filed]; rfl) (mismatch a member)
      | superseded =>
        have never := appraised_isSuperseded request profile floors a
        rw [filed] at never
        cases never
    have favours := conflict a member
    rw [refuses, heard] at favours
    exact ⟨by simpa using favours, heard_iff.mp heard⟩
  · rintro ⟨none, all⟩
    have said : ∀ a ∈ counting, appraised request profile floors a =
        .heard (profile.faultDomainOf a.witness) :=
      fun a member => appraised_of_qualifies (all a member).2
    refine ⟨fun a member => ?_, ⟨none, fun a member => ?_⟩, fun a member => ?_,
      fun a member => ?_, fun a member => ?_⟩
    · simp [refuses, (all a member).1]
    · simp [said a member, Filing.isInvalid]
    · simp [said a member, Filing.isMismatched]
    · simp [said a member, Filing.isStale]
    · simp [said a member, Filing.isUnknown]

/-- With every statement named, the ones that count are one for each witness. -/
theorem considered_witnesses (perm : sorted.Perm bundle.attestations)
    (named : ∀ a ∈ bundle.attestations, a.witness.isEmpty = false) :
    ((considered sorted).map (·.witness)).toFinset = bundle.witnesses := by
  ext w
  simp only [EvidenceBundle.witnesses, List.mem_toFinset, List.mem_map]
  constructor
  · rintro ⟨a, member, rfl⟩
    exact ⟨a, perm.mem_iff.mp (considered_subset member), rfl⟩
  · rintro ⟨a, member, rfl⟩
    exact exists_considered (perm.mem_iff.mpr member) (named a member)

theorem considered_length (perm : sorted.Perm bundle.attestations)
    (named : ∀ a ∈ bundle.attestations, a.witness.isEmpty = false) :
    (considered sorted).length = bundle.witnesses.card := by
  rw [← considered_witnesses perm named, List.toFinset_card_of_nodup (considered_nodup sorted),
    List.length_map]

theorem considered_domains (perm : sorted.Perm bundle.attestations)
    (named : ∀ a ∈ bundle.attestations, a.witness.isEmpty = false) :
    ((considered sorted).map fun a => profile.faultDomainOf a.witness).toFinset =
      bundle.witnesses.image profile.faultDomainOf := by
  rw [← considered_witnesses perm named]
  ext d
  simp

theorem considered_short (l : List WitnessAttestation) : (considered l).length ≤ l.length := by
  rw [considered, List.length_map]
  exact (List.length_filter_le _ _).trans (le_of_eq List.length_zipIdx)

theorem unnamedCount_eq_zero {l : List WitnessAttestation} :
    unnamedCount l = 0 ↔ ∀ a ∈ l, a.witness.isEmpty = false := by
  rw [unnamedCount, List.countP_eq_zero]
  exact forall₂_congr fun a _ => by rw [Bool.not_eq_true]

theorem le_ofNat_iff {n : UInt32} {m : Nat} (small : m ≤ 64) :
    n ≤ UInt32.ofNat m ↔ n.toNat ≤ m := by
  rw [UInt32.le_iff_toNat_le, UInt32.toNat_ofNat', Nat.mod_eq_of_lt (by omega)]

/-- Exactly when a bundle is current evidence, in whichever order it is assessed. -/
theorem current_iff (perm : sorted.Perm bundle.attestations) :
    (assessInOrder request profile bundle floors sorted).state = .current ↔
      ProvenIn request profile bundle floors sorted := by
  have closed := tallyOf_eq request profile floors sorted
  have quiet := quiet_iff closed
  have unnamed : unnamedCount sorted = 0 ↔
      ∀ a ∈ bundle.attestations, a.witness.isEmpty = false := by
    rw [unnamedCount_eq_zero]
    exact forall_congr' fun a => imp_congr perm.mem_iff Iff.rfl
  -- with every statement heard in favour, both counts are about the witnesses of the bundle
  have counts : Weighed profile bundle →
      (∀ a ∈ bundle.attestations, a.witness.isEmpty = false) →
      (∀ a ∈ considered sorted, a.support = true ∧ Qualifies request profile floors a) →
      (profile.requiredWitnesses ≤ (tallyOf request profile floors sorted).supporting ↔
        profile.requiredWitnesses.toNat ≤ bundle.witnesses.card) ∧
      (profile.minFaultDomains ≤
          UInt32.ofNat (tallyOf request profile floors sorted).supportingDomains.size ↔
        profile.minFaultDomains.toNat ≤
          (bundle.witnesses.image profile.faultDomainOf).card) := by
    intro weighed named all
    have every : ∀ a ∈ considered sorted, backs request profile floors a = true := by
      intro a member
      rw [backs, heard_iff.mpr (all a member).2, (all a member).1]
      rfl
    have few : bundle.witnesses.card ≤ 64 := by
      rw [← considered_length perm named]
      exact (considered_short sorted).trans (perm.length_eq ▸ weighed.bounded)
    have few' : (bundle.witnesses.image profile.faultDomainOf).card ≤ 64 :=
      Finset.card_image_le.trans few
    rw [closed, tallied_supporting (considered_nodup sorted), tallied_domains,
      List.countP_eq_length.mpr every, List.filter_eq_self.mpr every,
      considered_length perm named, considered_domains perm named]
    exact ⟨le_ofNat_iff few, le_ofNat_iff few'⟩
  constructor
  · intro current
    have weighed := weighed_of_current current
    rw [assess_weighed _ _ _ weighed, verdictOn_current_iff, conclude_current_iff] at current
    obtain ⟨lease, conflict, invalid, mismatch, enough, spread, stale, unknown⟩ := current
    obtain ⟨none, all⟩ := quiet.mp ⟨conflict, invalid, mismatch, stale, unknown⟩
    obtain ⟨support, domains⟩ := counts weighed (unnamed.mp none) all
    exact ⟨weighed, unnamed.mp none, all, support.mp enough, domains.mp spread, lease⟩
  · intro proven
    obtain ⟨support, domains⟩ := counts proven.weighed proven.named proven.backed
    obtain ⟨conflict, invalid, mismatch, stale, unknown⟩ :=
      quiet.mpr ⟨unnamed.mpr proven.named, proven.backed⟩
    rw [assess_weighed _ _ _ proven.weighed, verdictOn_current_iff, conclude_current_iff]
    exact ⟨proven.lease, conflict, invalid, mismatch, support.mpr proven.enough,
      domains.mpr proven.spread, stale, unknown⟩

theorem proven_iff {sorting : Sorting} :
    (assessEvidence sorting request profile bundle floors).state = .current ↔
      Proven sorting request profile bundle floors :=
  current_iff (sorting.canonical_perm _)

end Assessment

end SplitBrainFabric
