import SplitBrainFabric.Decisions
import SplitBrainFabric.CurrentEvidence
import SplitBrainFabric.Library.KeySort

/-! The competing claims of a view: exactly which of them a request is granted beside, and
that the order they are listed in is of no consequence. -/

namespace SplitBrainFabric
open Words

/-- A policy that shares no scope is given no claim that overlaps. -/
def AuthorityRequest.Unshared (request : AuthorityRequest) (view : ArbiterView)
    (policy : ArbiterPolicy) : Prop :=
  policy.allowNonOverlappingAuthority = false → ∀ c ∈ view.competing, c.claim ≠ request.claim →
    request.scope.overlaps c.scope = false

section Loops

variable {request : AuthorityRequest} {policy : ArbiterPolicy} {l : List CompetingClaim}

theorem weighClaims_passes
    (passes : ∀ c ∈ l, c.mode = .exclusiveMutation → ¬ request.epoch < c.epoch ∧
      (policy.equalEpochConflictIsFatal = true →
        ¬ (c.epoch = request.epoch ∧ c.incarnation ≠ request.incarnation)) ∧
      (policy.fenceLowerEpochClaimants = true → c.epoch < request.epoch → c.active = false))
    (d : AuthorityDecision) :
    ∃ fences, weighClaims request policy l d = .ok { d with mustFence := fences } := by
  induction l generalizing d with
  | nil => exact ⟨d.mustFence, rfl⟩
  | cons c rest ih =>
    have later := ih fun x member => passes x (List.mem_cons_of_mem c member)
    unfold weighClaims
    by_cases exclusive : c.mode ≠ .exclusiveMutation
    · rw [if_pos exclusive]
      exact later d
    obtain ⟨higher, fatal, lower⟩ := passes c List.mem_cons_self (not_not.mp exclusive)
    rw [if_neg exclusive, if_neg higher,
      if_neg fun both => fatal both.2.2 ⟨both.1, both.2.1⟩]
    by_cases below : c.epoch < request.epoch ∧ policy.fenceLowerEpochClaimants = true
    · rw [if_pos below]
      simp only [lower below.2 below.1, Bool.false_eq_true, if_false]
      exact later _
    · rw [if_neg below]
      exact later d

theorem ownClaims_passes (passes : ∀ c ∈ l, c.mode = .exclusiveMutation →
      ¬ (c.epoch = request.epoch ∧ c.incarnation = request.incarnation))
    (d : AuthorityDecision) : ownClaims request l d = .ok d := by
  induction l with
  | nil => rfl
  | cons c rest ih =>
    rw [ownClaims, if_neg fun mine => passes c List.mem_cons_self mine.1 mine.2]
    exact ih fun x member => passes x (List.mem_cons_of_mem c member)

end Loops

section Granted

variable {sorting : Sorting} {request : AuthorityRequest} {view : ArbiterView}
  {policy : ArbiterPolicy} {fences : FenceTable} {lineage : LineageTable}
  {assessment : EvidenceAssessment} {d : AuthorityDecision}

theorem decideExclusive_unshared
    (granted : (decideExclusive sorting request view policy assessment d).isAuthoritative = true) :
    request.Unshared view policy := by
  intro strict c member other
  by_contra touching
  unfold decideExclusive at granted
  generalize listed : sorting.claims.sort (·.claim) (view.competing.filter fun c =>
    decide (c.claim ≠ request.claim) && request.scope.overlaps c.scope) = overlapping at granted
  have inside : c ∈ overlapping := by
    rw [← listed, (sorting.claims.sort_perm _ _).mem_iff, List.mem_filter]
    exact ⟨member, by simp [other, Bool.not_eq_false _ ▸ touching]⟩
  rcases weighed : weighClaims request policy overlapping d with failed | d₁
  · simp only [weighed] at granted
    rw [weighClaims_error weighed] at granted
    cases granted
  simp only [weighed] at granted
  rcases owned : ownClaims request overlapping d₁ with failed | d₂
  · simp only [owned] at granted
    rw [ownClaims_error owned] at granted
    cases granted
  simp only [owned] at granted
  obtain ⟨alone, -⟩ := else_of_granted granted (fail_isAuthoritative nofun)
  exact alone ⟨List.ne_nil_of_mem inside, strict⟩

/-- Granted beside the listed claims. -/
theorem decideExclusive_iff :
    (decideExclusive sorting request view policy assessment d).isAuthoritative = true ↔
      (∀ c ∈ view.competing, c.Rivals request → c.Yields request policy) ∧
        request.Unshared view policy := by
  constructor
  · intro granted
    exact ⟨(decideExclusive_granted granted).2, decideExclusive_unshared granted⟩
  · rintro ⟨unrivalled, unshared⟩
    unfold decideExclusive
    generalize listed : sorting.claims.sort (·.claim) (view.competing.filter fun c =>
      decide (c.claim ≠ request.claim) && request.scope.overlaps c.scope) = overlapping
    have inside : ∀ c ∈ overlapping, c ∈ view.competing ∧ c.claim ≠ request.claim ∧
        request.scope.overlaps c.scope = true := by
      intro c member
      rw [← listed, (sorting.claims.sort_perm _ _).mem_iff, List.mem_filter, Bool.and_eq_true,
        decide_eq_true_eq] at member
      exact member
    have yields : ∀ c ∈ overlapping, c.mode = .exclusiveMutation → c.Yields request policy := by
      intro c member exclusive
      obtain ⟨here, other, overlaps⟩ := inside c member
      exact unrivalled c here ⟨exclusive, other, overlaps⟩
    obtain ⟨fences, weighed⟩ := weighClaims_passes (fun c member exclusive =>
      ⟨(yields c member exclusive).higher, (yields c member exclusive).fatal,
        (yields c member exclusive).lower⟩) d
    have owned := ownClaims_passes (fun c member exclusive => (yields c member exclusive).own)
      { d with mustFence := fences }
    simp only [weighed, owned]
    rw [if_neg]
    · rfl
    · rintro ⟨filled, strict⟩
      obtain ⟨c, member⟩ := List.exists_mem_of_ne_nil _ filled
      obtain ⟨here, other, overlaps⟩ := inside c member
      rw [unshared strict c here other] at overlaps
      cases overlaps

/-- A request that passes every check is left to the competing claims. -/
theorem decideAuthority_entitled (entitled : request.Entitled sorting view policy fences lineage) :
    decideAuthority sorting request view = decideExclusive sorting request view policy
      (request.assessed sorting policy view)
      { request.undecided view with
        vector := { (request.undecided view).vector with
          evidenceGeneration := (request.assessed sorting policy view).floorGeneration } } := by
  obtain ⟨complete, complete', complete''⟩ := entitled.complete
  have numbers : ¬ (request.epoch = 0 ∨ request.incarnation = 0) := by
    simp [entitled.epoch, entitled.incarnation]
  have named : request.evidence.policy.isEmpty = false :=
    (proven_iff.mp entitled.current).weighed.named
  have observed : request.mode ≠ .observation := by
    rw [entitled.mode]
    nofun
  have above : (request.scope.extents.filter fun e =>
      decide (request.presentedFenceToken < fences.highWater e)) = [] := by
    rw [List.filter_eq_nil_iff]
    intro e member
    simp [entitled.floor e member]
  have leased : ¬ (policy.requireLeaseForExclusive = true ∧ request.mode = .exclusiveMutation ∧
      (request.assessed sorting policy view).leasePresent = false) := by
    rintro ⟨required, -, missing⟩
    rw [entitled.lease required] at missing
    cases missing
  unfold decideAuthority
  rw [if_neg (by simp [entitled.claim]), if_neg (by simp [entitled.domain]),
    if_neg (by simp [entitled.scope]), if_neg numbers, if_neg entitled.token]
  simp only [complete, complete', complete'']
  unfold decideOver
  simp only [entitled.valid]
  rw [if_neg (not_not.mpr entitled.policyNamed), if_neg (not_not.mpr entitled.generation),
    if_neg (by simp [named]), if_neg observed, if_neg (not_lt.mpr entitled.newest),
    if_neg (by simp [entitled.incarnationFree]), if_neg (by simp [entitled.epochFree]),
    if_neg (not_not.mpr above)]
  have evidence := entitled.current
  unfold AuthorityRequest.assessed at evidence leased
  unfold decideEvidence
  simp only [evidence]
  rw [if_neg leased]
  simp only [entitled.mode, AuthorityRequest.undecided, complete, complete']
  rfl

/-- Exactly when a request is granted. -/
theorem granted_exactly_iff : (decideAuthority sorting request view).isAuthoritative = true ↔
    ∃ policy fences lineage, request.Entitled sorting view policy fences lineage ∧
      request.Unshared view policy := by
  constructor
  · intro granted
    obtain ⟨policy, fences, lineage, -, entitled, -⟩ := decideAuthority_granted granted
    rw [decideAuthority_entitled entitled] at granted
    exact ⟨policy, fences, lineage, entitled, decideExclusive_unshared granted⟩
  · rintro ⟨policy, fences, lineage, entitled, unshared⟩
    rw [decideAuthority_entitled entitled]
    exact decideExclusive_iff.mpr ⟨entitled.unrivalled, unshared⟩

/-- The claims of a view in another order. -/
theorem decideExclusive_perm {competing : List CompetingClaim}
    (distinct : (view.competing.map (·.claim)).Nodup) (perm : competing.Perm view.competing) :
    decideExclusive sorting request { view with competing := competing } policy assessment d =
      decideExclusive sorting request view policy assessment d := by
  have kept := distinct.sublist ((List.filter_sublist (p := fun c : CompetingClaim =>
    decide (c.claim ≠ request.claim) && request.scope.overlaps c.scope)).map (·.claim))
  have sorted := sorting.claims.sort_of_distinct kept (perm.filter _)
  unfold decideExclusive
  simp only [sorted]

theorem decideEvidence_perm {competing : List CompetingClaim}
    (distinct : (view.competing.map (·.claim)).Nodup) (perm : competing.Perm view.competing) :
    decideEvidence sorting request { view with competing := competing } policy assessment d =
      decideEvidence sorting request view policy assessment d := by
  unfold decideEvidence
  simp only [decideExclusive_perm distinct perm]

end Granted

/-- The order in which competing claims are listed does not matter, as long as no two have
one name. -/
theorem competitors_unordered (sorting : Sorting) (request : AuthorityRequest) (view : ArbiterView)
    (distinct : (view.competing.map (·.claim)).Nodup) (competing : List CompetingClaim)
    (perm : competing.Perm view.competing) :
    decideAuthority sorting request { view with competing := competing } =
      decideAuthority sorting request view := by
  unfold decideAuthority decideOver
  simp only [decideEvidence_perm distinct perm]

/-- Two older claims in either order. -/
theorem competitors_unordered_pair :
    decideAuthority {} (soloRequest 97 120 2) (soloView [
        (soloRequest 99 120 1).competes .current false,
        (soloRequest 98 120 1).competes .current false]) =
      decideAuthority {} (soloRequest 97 120 2) (soloView [
        (soloRequest 98 120 1).competes .current false,
        (soloRequest 99 120 1).competes .current false]) :=
  competitors_unordered {} (soloRequest 97 120 2) (soloView [
      (soloRequest 98 120 1).competes .current false,
      (soloRequest 99 120 1).competes .current false]) (by decide) _ (List.Perm.swap _ _ _)

end SplitBrainFabric
