import SplitBrainFabric.Competitors

/-! What the revocation check leaves out. A decision that is not revoked is bound to the
policy generation, the fence generation, the epoch and the incarnation, and nothing else
that it was decided on. -/

namespace SplitBrainFabric
open Words

/-- The tables of a view that does not revoke a decision. -/
structure AuthorityDecision.BoundTo (d : AuthorityDecision) (view : ArbiterView)
    (policy : ArbiterPolicy) (fences : FenceTable) (lineage : LineageTable) : Prop where
  complete : view.policy = some policy ∧ view.fences = some fences ∧ view.lineage = some lineage
  generation : policy.generation = d.vector.policyGeneration
  fenceGeneration : fences.generation = d.vector.fenceGeneration
  newest : lineage.maxEpoch d.vector.domain ≤ d.vector.epoch
  incarnationFree : fences.incarnationFenced d.vector.incarnation = false

/-- Everything that a decision reads of a view and its revocation does not. -/
structure AuthorityRequest.StillStands (sorting : Sorting) (request : AuthorityRequest)
    (view : ArbiterView) (policy : ArbiterPolicy) (fences : FenceTable) : Prop where
  valid : policy.validate = .ok ()
  policyNamed : request.evidence.policy = policy.policy
  epochFree : fences.epochFenced request.domain request.epoch = false
  floor : ∀ e ∈ request.scope.extents, fences.highWater e ≤ request.presentedFenceToken
  evidence : Proven sorting ⟨request.domain, request.scope.digest, request.epoch,
    request.incarnation, request.presentedFenceToken, view.now⟩ policy.quorum request.evidence
    view.witnessFloors
  lease : policy.requireLeaseForExclusive = true → request.evidence.hasLease = true
  unrivalled : ∀ c ∈ view.competing, c.Rivals request → c.Yields request policy
  unshared : request.Unshared view policy

section Revoking

variable {sorting sorting' : Sorting} {request : AuthorityRequest} {view later : ArbiterView}
  {d : AuthorityDecision}

theorem else_of_unrevoked {c : Prop} [Decidable c] {x y : RevocationCheck}
    (kept : (if c then x else y).revoked = false) (revokes : x.revoked = true) :
    ¬ c ∧ y.revoked = false := by
  by_cases h : c
  · rw [if_pos h, revokes] at kept
    cases kept
  · rw [if_neg h] at kept
    exact ⟨h, kept⟩

theorem boundTo_of_unrevoked (kept : (checkRevocation d view).revoked = false) :
    ∃ policy fences lineage, d.BoundTo view policy fences lineage := by
  unfold checkRevocation at kept
  obtain ⟨-, kept⟩ := else_of_unrevoked kept rfl
  rcases complete : view.fences with _ | fences
  · simp only [complete] at kept
    cases kept
  rcases complete' : view.lineage with _ | lineage
  · simp only [complete, complete'] at kept
    cases kept
  rcases complete'' : view.policy with _ | policy
  · simp only [complete, complete', complete''] at kept
    cases kept
  simp only [complete, complete', complete''] at kept
  obtain ⟨generation, kept⟩ := else_of_unrevoked kept rfl
  obtain ⟨fenceGeneration, kept⟩ := else_of_unrevoked kept rfl
  obtain ⟨newest, kept⟩ := else_of_unrevoked kept rfl
  obtain ⟨incarnation, -⟩ := else_of_unrevoked kept rfl
  exact ⟨policy, fences, lineage, ⟨complete'', complete, complete'⟩, not_not.mp generation,
    not_not.mp fenceGeneration, not_lt.mp newest, Bool.not_eq_true _ ▸ incarnation⟩

/-- Under a view that does not revoke it, a decision is made again exactly when everything
left out of the check still stands. -/
theorem stands_iff {policy : ArbiterPolicy} {fences : FenceTable}
    {lineage : LineageTable}
    (granted : (decideAuthority sorting request view).isAuthoritative = true)
    (bound : (decideAuthority sorting request view).BoundTo later policy fences lineage) :
    (decideAuthority sorting' request later).isAuthoritative = true ↔
      request.StillStands sorting' later policy fences := by
  obtain ⟨before, tables, ancestry, mustFence, entitled, written⟩ := decideAuthority_granted granted
  rw [written] at bound
  constructor
  · intro again
    obtain ⟨p, f, l, entitled', unshared⟩ := granted_exactly_iff.mp again
    obtain rfl : p = policy := Option.some.inj (entitled'.complete.1.symm.trans bound.complete.1)
    obtain rfl : f = fences := Option.some.inj (entitled'.complete.2.1.symm.trans bound.complete.2.1)
    exact {
      valid := entitled'.valid
      policyNamed := entitled'.policyNamed
      epochFree := entitled'.epochFree
      floor := entitled'.floor
      evidence := proven_iff.mp entitled'.current
      lease := fun required => (assess_lease entitled'.current).1 ▸ entitled'.lease required
      unrivalled := entitled'.unrivalled
      unshared := unshared }
  · intro stands
    have current : (request.assessed sorting' policy later).state = .current :=
      proven_iff.mpr stands.evidence
    have present : (request.assessed sorting' policy later).leasePresent =
        request.evidence.hasLease := (assess_lease current).1
    have sameGeneration : request.evidence.policyGeneration = policy.generation := by
      have written := bound.generation
      simp only [AuthorityDecision.grantedBy, AuthorityRequest.undecided, entitled.complete.1]
        at written
      exact entitled.generation.trans written.symm
    refine granted_exactly_iff.mpr ⟨policy, fences, lineage, ?_, stands.unshared⟩
    exact {
      mode := entitled.mode
      claim := entitled.claim
      domain := entitled.domain
      scope := entitled.scope
      epoch := entitled.epoch
      incarnation := entitled.incarnation
      token := entitled.token
      complete := bound.complete
      valid := stands.valid
      policyNamed := stands.policyNamed
      generation := sameGeneration
      newest := bound.newest
      incarnationFree := bound.incarnationFree
      epochFree := stands.epochFree
      floor := stands.floor
      current := current
      lease := fun required => present.trans (stands.lease required)
      unrivalled := stands.unrivalled }

end Revoking

/-- A decision that a view does not revoke would be made again in it exactly when what the
check leaves out has not changed either. -/
theorem unrevoked_stands_iff (sorting sorting' : Sorting) (request : AuthorityRequest)
    (view later : ArbiterView)
    (granted : (decideAuthority sorting request view).isAuthoritative = true)
    (kept : (checkRevocation (decideAuthority sorting request view) later).revoked = false) :
    (decideAuthority sorting' request later).isAuthoritative = true ↔
      ∃ policy fences, later.policy = some policy ∧ later.fences = some fences ∧
        request.StillStands sorting' later policy fences := by
  obtain ⟨policy, fences, lineage, bound⟩ := boundTo_of_unrevoked kept
  rw [stands_iff granted bound]
  constructor
  · intro stands
    exact ⟨policy, fences, bound.complete.1, bound.complete.2.1, stands⟩
  · rintro ⟨p, f, same, same', stands⟩
    obtain rfl : p = policy := Option.some.inj (same.symm.trans bound.complete.1)
    obtain rfl : f = fences := Option.some.inj (same'.symm.trans bound.complete.2.1)
    exact stands

/-- A decision stands while its only statement is good, and no longer. -/
theorem unrevoked_stands_iff_solo :
    (∃ policy fences, (soloView []).policy = some policy ∧ (soloView []).fences = some fences ∧
      (soloRequest 97 120 2).StillStands {} { soloView [] with now := 10 } policy fences) ∧
    ¬ ∃ policy fences, (soloView []).policy = some policy ∧ (soloView []).fences = some fences ∧
      (soloRequest 97 120 2).StillStands {} { soloView [] with now := 11 } policy fences := by
  have granted :
      (decideAuthority {} (soloRequest 97 120 2) (soloView [])).isAuthoritative = true := by
    decide +kernel
  constructor
  · exact (unrevoked_stands_iff {} {} (soloRequest 97 120 2) (soloView [])
      { soloView [] with now := 10 } granted (by decide +kernel)).mp (by decide +kernel)
  · intro stands
    have again := (unrevoked_stands_iff {} {} (soloRequest 97 120 2) (soloView [])
      { soloView [] with now := 11 } granted (by decide +kernel)).mpr stands
    exact absurd again (by decide +kernel)

/-- Ten steps after its only statement has run out, a decision is not revoked. -/
theorem unrevoked_expired :
    (decideAuthority {} (soloRequest 97 120 2) (soloView [])).isAuthoritative = true ∧
    (checkRevocation (decideAuthority {} (soloRequest 97 120 2) (soloView []))
      { soloView [] with now := 20 }).revoked = false ∧
    (decideAuthority {} (soloRequest 97 120 2) { soloView [] with now := 20 }).isAuthoritative =
      false := by
  decide +kernel

end SplitBrainFabric
