import SplitBrainFabric.Authority

/-! What a grant of authority rests on. Every check stands in front of the one exit that
carries authority, so a granted decision has passed them all; what revokes a decision is
judged by another function. -/

namespace SplitBrainFabric
open Words

/-- The evidence of a request, as the decision has it assessed. -/
def AuthorityRequest.assessed (sorting : Sorting) (request : AuthorityRequest)
    (policy : ArbiterPolicy) (view : ArbiterView) : EvidenceAssessment :=
  assessEvidence sorting ⟨request.domain, request.scope.digest, request.epoch, request.incarnation,
    request.presentedFenceToken, view.now⟩ policy.quorum request.evidence view.witnessFloors

/-- Somebody else's exclusive claim to part of the scope. -/
structure CompetingClaim.Rivals (c : CompetingClaim) (request : AuthorityRequest) : Prop where
  exclusive : c.mode = .exclusiveMutation
  other : c.claim ≠ request.claim
  overlaps : request.scope.overlaps c.scope = true

/-- A rival that a request may be granted beside. -/
structure CompetingClaim.Yields (c : CompetingClaim) (request : AuthorityRequest)
    (policy : ArbiterPolicy) : Prop where
  higher : ¬ request.epoch < c.epoch
  fatal : policy.equalEpochConflictIsFatal = true →
    ¬ (c.epoch = request.epoch ∧ c.incarnation ≠ request.incarnation)
  own : ¬ (c.epoch = request.epoch ∧ c.incarnation = request.incarnation)
  lower : policy.fenceLowerEpochClaimants = true → c.epoch < request.epoch → c.active = false

/-- Everything a grant is checked against. -/
structure AuthorityRequest.Entitled (sorting : Sorting) (request : AuthorityRequest)
    (view : ArbiterView) (policy : ArbiterPolicy) (fences : FenceTable) (lineage : LineageTable) :
    Prop where
  mode : request.mode = .exclusiveMutation
  claim : request.claim.isEmpty = false
  domain : request.domain.isEmpty = false
  scope : request.scope.isEmpty = false
  epoch : request.epoch ≠ 0
  incarnation : request.incarnation ≠ 0
  token : request.presentedFenceToken ≠ 0
  complete : view.policy = some policy ∧ view.fences = some fences ∧ view.lineage = some lineage
  valid : policy.validate = .ok ()
  policyNamed : request.evidence.policy = policy.policy
  generation : request.evidence.policyGeneration = policy.generation
  newest : lineage.maxEpoch request.domain ≤ request.epoch
  incarnationFree : fences.incarnationFenced request.incarnation = false
  epochFree : fences.epochFenced request.domain request.epoch = false
  floor : ∀ e ∈ request.scope.extents, fences.highWater e ≤ request.presentedFenceToken
  current : (request.assessed sorting policy view).state = .current
  lease : policy.requireLeaseForExclusive = true →
    (request.assessed sorting policy view).leasePresent = true
  unrivalled : ∀ c ∈ view.competing, c.Rivals request → c.Yields request policy

section Loops

variable {request : AuthorityRequest} {policy : ArbiterPolicy} {l : List CompetingClaim}
  {d d' failed : AuthorityDecision}

theorem fail_isAuthoritative {verdict : AuthorityVerdict} {outcome : Outcome} {reason : Reason}
    {aux : UInt64} (apart : verdict ≠ .authoritative) :
    (d.fail verdict outcome reason aux).isAuthoritative = false :=
  decide_eq_false apart

theorem weighClaims_error (weighed : weighClaims request policy l d = .error failed) :
    failed.isAuthoritative = false := by
  induction l generalizing d with
  | nil => cases weighed
  | cons c rest ih =>
    unfold weighClaims at weighed
    by_cases exclusive : c.mode ≠ .exclusiveMutation
    · rw [if_pos exclusive] at weighed
      exact ih weighed
    rw [if_neg exclusive] at weighed
    by_cases higher : request.epoch < c.epoch
    · rw [if_pos higher] at weighed
      split at weighed
      · cases weighed
        rfl
      · cases weighed
        rfl
    rw [if_neg higher] at weighed
    by_cases equal : c.epoch = request.epoch ∧ c.incarnation ≠ request.incarnation ∧
        policy.equalEpochConflictIsFatal
    · rw [if_pos equal] at weighed
      split at weighed
      · cases weighed
        rfl
      · cases weighed
        rfl
    rw [if_neg equal] at weighed
    by_cases lower : c.epoch < request.epoch ∧ policy.fenceLowerEpochClaimants
    · rw [if_pos lower] at weighed
      by_cases active : c.active = true
      · simp only [active, if_true] at weighed
        cases weighed
        rfl
      · simp only [active, Bool.false_eq_true, if_false] at weighed
        exact ih weighed
    · rw [if_neg lower] at weighed
      exact ih weighed

/-- The first loop only adds claims to fence. -/
theorem weighClaims_ok (weighed : weighClaims request policy l d = .ok d') :
    (∃ fences, d' = { d with mustFence := fences }) ∧ ∀ c ∈ l, c.mode = .exclusiveMutation →
      ¬ request.epoch < c.epoch ∧
      (policy.equalEpochConflictIsFatal = true →
        ¬ (c.epoch = request.epoch ∧ c.incarnation ≠ request.incarnation)) ∧
      (policy.fenceLowerEpochClaimants = true → c.epoch < request.epoch → c.active = false) := by
  induction l generalizing d with
  | nil =>
    cases weighed
    exact ⟨⟨_, rfl⟩, fun _ member => absurd member List.not_mem_nil⟩
  | cons c rest ih =>
    unfold weighClaims at weighed
    by_cases exclusive : c.mode ≠ .exclusiveMutation
    · rw [if_pos exclusive] at weighed
      obtain ⟨added, passed⟩ := ih weighed
      refine ⟨added, fun x member mode => ?_⟩
      rcases List.mem_cons.mp member with rfl | later
      · exact absurd mode exclusive
      · exact passed x later mode
    rw [if_neg exclusive] at weighed
    by_cases higher : request.epoch < c.epoch
    · rw [if_pos higher] at weighed
      split at weighed <;> cases weighed
    rw [if_neg higher] at weighed
    by_cases equal : c.epoch = request.epoch ∧ c.incarnation ≠ request.incarnation ∧
        policy.equalEpochConflictIsFatal
    · rw [if_pos equal] at weighed
      split at weighed <;> cases weighed
    rw [if_neg equal] at weighed
    have fatal : policy.equalEpochConflictIsFatal = true →
        ¬ (c.epoch = request.epoch ∧ c.incarnation ≠ request.incarnation) :=
      fun strict both => equal ⟨both.1, both.2, strict⟩
    by_cases lower : c.epoch < request.epoch ∧ policy.fenceLowerEpochClaimants
    · rw [if_pos lower] at weighed
      by_cases active : c.active = true
      · simp only [active, if_true] at weighed
        cases weighed
      simp only [active, Bool.false_eq_true, if_false] at weighed
      obtain ⟨⟨fences, rfl⟩, passed⟩ := ih weighed
      refine ⟨⟨fences, rfl⟩, fun x member mode => ?_⟩
      rcases List.mem_cons.mp member with rfl | later
      · exact ⟨higher, fatal, fun _ _ => Bool.not_eq_true _ ▸ active⟩
      · exact passed x later mode
    · rw [if_neg lower] at weighed
      obtain ⟨added, passed⟩ := ih weighed
      refine ⟨added, fun x member mode => ?_⟩
      rcases List.mem_cons.mp member with rfl | later
      · exact ⟨higher, fatal, fun strict below => absurd ⟨below, strict⟩ lower⟩
      · exact passed x later mode

theorem ownClaims_error (owned : ownClaims request l d = .error failed) :
    failed.isAuthoritative = false := by
  induction l with
  | nil => cases owned
  | cons c rest ih =>
    unfold ownClaims at owned
    split at owned
    · split at owned
      · cases owned
        rfl
      split at owned
      · cases owned
        rfl
      · exact ih owned
    · exact ih owned

/-- The second loop changes nothing. -/
theorem ownClaims_ok (owned : ownClaims request l d = .ok d') :
    d' = d ∧ ∀ c ∈ l, c.mode = .exclusiveMutation → c.epoch = request.epoch →
      c.incarnation = request.incarnation → c.claim = request.claim := by
  induction l with
  | nil =>
    cases owned
    exact ⟨rfl, fun _ member => absurd member List.not_mem_nil⟩
  | cons c rest ih =>
    unfold ownClaims at owned
    split at owned
    · split at owned
      · cases owned
      split at owned
      · cases owned
      rename_i same
      obtain ⟨kept, passed⟩ := ih owned
      refine ⟨kept, fun x member mode epoch incarnation => ?_⟩
      rcases List.mem_cons.mp member with rfl | later
      · exact not_not.mp same
      · exact passed x later mode epoch incarnation
    · rename_i apart
      obtain ⟨kept, passed⟩ := ih owned
      refine ⟨kept, fun x member mode epoch incarnation => ?_⟩
      rcases List.mem_cons.mp member with rfl | later
      · exact absurd ⟨mode, epoch, incarnation⟩ apart
      · exact passed x later mode epoch incarnation

end Loops

section Grant

variable {sorting : Sorting} {request : AuthorityRequest} {view : ArbiterView}
  {policy : ArbiterPolicy} {fences : FenceTable} {lineage : LineageTable}
  {assessment : EvidenceAssessment} {d : AuthorityDecision}

/-- A check in front of the grant was passed. -/
theorem else_of_granted {c : Prop} [Decidable c] {x y : AuthorityDecision}
    (granted : (if c then x else y).isAuthoritative = true) (refused : x.isAuthoritative = false) :
    ¬ c ∧ (if c then x else y) = y ∧ y.isAuthoritative = true :=
  else_of_not (p := fun d : AuthorityDecision => d.isAuthoritative = true) granted (ne_true_of_eq_false refused)

/-- What the grant writes into the decision. -/
def AuthorityDecision.grantedBy (d : AuthorityDecision) (view : ArbiterView)
    (policy : ArbiterPolicy) (assessment : EvidenceAssessment) (mustFence : List ClaimId) :
    AuthorityDecision :=
  { d with
    verdict := .authoritative
    status := .ok
    validFrom := view.now
    validUntil := if assessment.leasePresent then assessment.leaseValidUntil
      else view.now + policy.quorum.evidenceHorizonSteps
    revocable := true
    mustFence := mustFence }

theorem decideExclusive_granted
    (granted : (decideExclusive sorting request view policy assessment d).isAuthoritative = true) :
    (∃ mustFence, decideExclusive sorting request view policy assessment d =
      d.grantedBy view policy assessment mustFence) ∧
    ∀ c ∈ view.competing, c.Rivals request → c.Yields request policy := by
  unfold decideExclusive at granted ⊢
  generalize listed : sorting.claims.sort (·.claim) (view.competing.filter fun c =>
    decide (c.claim ≠ request.claim) && request.scope.overlaps c.scope) = overlapping at granted ⊢
  have inside : ∀ c ∈ view.competing, c.Rivals request → c ∈ overlapping := by
    intro c member rivals
    rw [← listed, (sorting.claims.sort_perm _ _).mem_iff, List.mem_filter]
    exact ⟨member, by simp [rivals.other, rivals.overlaps]⟩
  rcases weighed : weighClaims request policy overlapping d with failed | d₁
  · simp only [weighed] at granted
    rw [weighClaims_error weighed] at granted
    cases granted
  obtain ⟨⟨fences, rfl⟩, passed⟩ := weighClaims_ok weighed
  simp only [weighed] at granted ⊢
  rcases owned : ownClaims request overlapping { d with mustFence := fences } with failed | d₂
  · simp only [owned] at granted
    rw [ownClaims_error owned] at granted
    cases granted
  obtain ⟨rfl, mine⟩ := ownClaims_ok owned
  simp only [owned] at granted ⊢
  obtain ⟨-, same, -⟩ := else_of_granted granted (fail_isAuthoritative nofun)
  refine ⟨⟨_, same⟩, fun c member rivals => ?_⟩
  obtain ⟨higher, fatal, lower⟩ := passed c (inside c member rivals) rivals.exclusive
  refine ⟨higher, fatal, fun ⟨epoch, incarnation⟩ => ?_, lower⟩
  exact rivals.other (mine c (inside c member rivals) rivals.exclusive epoch incarnation)

theorem decideEvidence_granted (observed : request.mode ≠ .observation)
    (granted : (decideEvidence sorting request view policy assessment d).isAuthoritative = true) :
    request.mode = .exclusiveMutation ∧ assessment.state = .current ∧
    (policy.requireLeaseForExclusive = true → assessment.leasePresent = true) ∧
    decideEvidence sorting request view policy assessment d =
      decideExclusive sorting request view policy assessment d := by
  unfold decideEvidence at granted ⊢
  cases state : assessment.state with
  | conflict | invalid | unsupported | stale => simp [state, AuthorityDecision.fail, AuthorityDecision.isAuthoritative] at granted
  | unknown =>
    cases mode : request.mode <;>
      simp [state, mode, AuthorityDecision.fail, AuthorityDecision.isAuthoritative] at granted
  | current =>
    simp only [state] at granted ⊢
    obtain ⟨leased, same, granted⟩ := else_of_granted granted (fail_isAuthoritative nofun)
    rw [same]
    cases mode : request.mode with
    | observation => exact absurd mode observed
    | eligibilityProbe | recommendationRequest | sharedRead =>
      simp [mode, AuthorityDecision.isAuthoritative] at granted
    | exclusiveMutation =>
      refine ⟨rfl, trivial, fun required => ?_, rfl⟩
      by_contra missing
      exact leased ⟨required, mode, Bool.not_eq_true _ ▸ missing⟩

/-- The decision before any check. -/
def AuthorityRequest.undecided (request : AuthorityRequest) (view : ArbiterView) :
    AuthorityDecision where
  decisionSequence := request.attemptSequence
  claim := request.claim
  scope := request.scope
  vector := {
    domain := request.domain
    scope := request.scope.digest
    epoch := request.epoch
    incarnation := request.incarnation
    fenceToken := request.presentedFenceToken
    policyGeneration := (view.policy.map (·.generation)).getD 0
    fenceGeneration := (view.fences.map (·.generation)).getD 0 }

/-- A granted decision has passed every check, and says so in all its fields. -/
theorem decideAuthority_granted
    (granted : (decideAuthority sorting request view).isAuthoritative = true) :
    ∃ policy fences lineage mustFence, request.Entitled sorting view policy fences lineage ∧
      decideAuthority sorting request view =
        ({ request.undecided view with
          vector := { (request.undecided view).vector with
            evidenceGeneration :=
              (request.assessed sorting policy view).floorGeneration } }).grantedBy
          view policy (request.assessed sorting policy view) mustFence := by
  unfold decideAuthority at granted ⊢
  obtain ⟨claim, same, granted⟩ := else_of_granted granted (fail_isAuthoritative nofun)
  rw [same]
  obtain ⟨domain, same, granted⟩ := else_of_granted granted (fail_isAuthoritative nofun)
  rw [same]
  obtain ⟨scope, same, granted⟩ := else_of_granted granted (fail_isAuthoritative nofun)
  rw [same]
  obtain ⟨numbers, same, granted⟩ := else_of_granted granted (fail_isAuthoritative nofun)
  rw [same]
  obtain ⟨token, same, granted⟩ := else_of_granted granted (fail_isAuthoritative nofun)
  rw [same]
  rcases complete : view.policy with _ | policy
  · simp only [complete] at granted
    cases granted
  rcases complete' : view.fences with _ | fences
  · simp only [complete, complete'] at granted
    cases granted
  rcases complete'' : view.lineage with _ | lineage
  · simp only [complete, complete', complete''] at granted
    cases granted
  simp only [complete, complete', complete''] at granted ⊢
  unfold decideOver at granted ⊢
  rcases valid : policy.validate with st | _
  · simp only [valid] at granted
    cases granted
  simp only [valid] at granted ⊢
  obtain ⟨named, same, granted⟩ := else_of_granted granted (fail_isAuthoritative nofun)
  rw [same]
  obtain ⟨generation, same, granted⟩ := else_of_granted granted (fail_isAuthoritative nofun)
  rw [same]
  obtain ⟨-, same, granted⟩ := else_of_granted granted (fail_isAuthoritative nofun)
  rw [same]
  obtain ⟨observed, same, granted⟩ := else_of_granted granted rfl
  rw [same]
  obtain ⟨newest, same, granted⟩ := else_of_granted granted (fail_isAuthoritative nofun)
  rw [same]
  obtain ⟨incarnation, same, granted⟩ := else_of_granted granted (fail_isAuthoritative nofun)
  rw [same]
  obtain ⟨epoch, same, granted⟩ := else_of_granted granted (fail_isAuthoritative nofun)
  rw [same]
  obtain ⟨floor, same, granted⟩ := else_of_granted granted rfl
  rw [same]
  obtain ⟨mode, current, lease, same⟩ := decideEvidence_granted observed granted
  rw [same] at granted ⊢
  obtain ⟨⟨mustFence, same⟩, unrivalled⟩ := decideExclusive_granted granted
  refine ⟨policy, fences, lineage, mustFence, ?_, ?_⟩
  swap
  · simp only [AuthorityRequest.undecided, complete, complete']
    exact same
  exact {
    mode, current, lease, unrivalled, valid
    claim := Bool.not_eq_true _ ▸ claim
    domain := Bool.not_eq_true _ ▸ domain
    scope := Bool.not_eq_true _ ▸ scope
    epoch := fun zero => numbers (.inl zero)
    incarnation := fun zero => numbers (.inr zero)
    token := token
    complete := ⟨complete, complete', complete''⟩
    policyNamed := not_not.mp named
    generation := not_not.mp generation
    newest := not_lt.mp newest
    incarnationFree := Bool.not_eq_true _ ▸ incarnation
    epochFree := Bool.not_eq_true _ ▸ epoch
    floor := fun e member => not_lt.mp fun above => by
      have listed := List.filter_eq_nil_iff.mp (not_not.mp floor) e member
      exact listed (decide_eq_true above) }

end Grant

/-- Whatever is granted has passed every check. -/
theorem granted_entitled (sorting : Sorting) (request : AuthorityRequest) (view : ArbiterView)
    (granted : (decideAuthority sorting request view).isAuthoritative = true) :
    ∃ policy fences lineage, request.Entitled sorting view policy fences lineage := by
  obtain ⟨policy, fences, lineage, _, entitled, -⟩ := decideAuthority_granted granted
  exact ⟨policy, fences, lineage, entitled⟩

/-- A policy with one witness. -/
def soloPolicy : ArbiterPolicy where
  policy := Id.make [112]
  quorum := { policy := Id.make [112], witnesses := [⟨Id.make [119], Id.make [102]⟩] }

/-- A claim to one extent, with the statement its evidence needs. -/
def soloRequest (claim extent : UInt8) (epoch : Epoch) : AuthorityRequest :=
  let scope := (Scope.make [Id.make [extent]]).toOption.getD Scope.empty
  { claim := Id.make [claim]
    domain := Id.make [claim]
    scope := scope
    epoch := epoch
    incarnation := 1
    presentedFenceToken := 1
    evidence := {
      policy := Id.make [112]
      attestations := [{
        witness := Id.make [119], subjectDomain := Id.make [claim], subjectScope := scope.digest
        epoch := epoch, incarnation := 1, fenceToken := 1, witnessGeneration := 1
        policyGeneration := 1, validUntil := 10, witnessSequence := 1 }] } }

/-- The claim another request makes. -/
def AuthorityRequest.competes (request : AuthorityRequest) (state : EvidenceState)
    (active : Bool) : CompetingClaim where
  claim := request.claim
  domain := request.domain
  scope := request.scope
  epoch := request.epoch
  incarnation := request.incarnation
  fenceToken := request.presentedFenceToken
  evidenceState := state
  active := active

def soloView (competing : List CompetingClaim) : ArbiterView where
  policy := some soloPolicy
  fences := some {}
  lineage := some {}
  now := 1
  competing := competing

/-- A claim that is granted beside an older one. -/
theorem granted_entitled_solo : ∃ policy fences lineage,
    (soloRequest 97 120 2).Entitled {}
      (soloView [(soloRequest 98 120 1).competes .current false]) policy fences lineage :=
  granted_entitled {} _ _ (by decide +kernel)

section Exclusion

variable {s t : Scope}

theorem Scope.overlaps_comm (s t : Scope) : s.overlaps t = t.overlaps s := by
  rw [Bool.eq_iff_iff, Scope.overlaps_iff, Scope.overlaps_iff]
  constructor
  · rintro ⟨e, left, right⟩
    exact ⟨e, right, left⟩
  · rintro ⟨e, left, right⟩
    exact ⟨e, right, left⟩

/-- The list has the claim a request makes, whatever is said of its evidence. -/
structure CompetingClaim.Mirrors (c : CompetingClaim) (request : AuthorityRequest) : Prop where
  mode : c.mode = .exclusiveMutation
  claim : c.claim = request.claim
  scope : c.scope = request.scope
  epoch : c.epoch = request.epoch
  incarnation : c.incarnation = request.incarnation
  fenceToken : c.fenceToken = request.presentedFenceToken

theorem CompetingClaim.Mirrors.yields {a b : AuthorityRequest} {c : CompetingClaim}
    {sorting : Sorting} {view : ArbiterView} {policy : ArbiterPolicy} {fences : FenceTable}
    {lineage : LineageTable} (entitled : a.Entitled sorting view policy fences lineage)
    (mirrors : c.Mirrors b) (member : c ∈ view.competing) (apart : a.claim ≠ b.claim)
    (overlaps : a.scope.overlaps b.scope = true) : c.Yields a policy := by
  refine entitled.unrivalled c member ⟨mirrors.mode, ?_, ?_⟩
  · rw [mirrors.claim]
    exact apart.symm
  · rw [mirrors.scope]
    exact overlaps

/-- Of two claims to the same extents, each known to the other's decision, at most one is
granted. -/
theorem deciders_exclude (sorting sorting' : Sorting) (a b : AuthorityRequest)
    (left right : ArbiterView) (policy : ArbiterPolicy) (apart : a.claim ≠ b.claim)
    (overlaps : a.scope.overlaps b.scope = true)
    (shared : left.policy = some policy ∧ right.policy = some policy)
    (fatal : policy.equalEpochConflictIsFatal = true)
    (seen : ∃ c ∈ left.competing, c.Mirrors b) (seen' : ∃ c ∈ right.competing, c.Mirrors a) :
    ¬ ((decideAuthority sorting a left).isAuthoritative = true ∧
      (decideAuthority sorting' b right).isAuthoritative = true) := by
  rintro ⟨granted, granted'⟩
  obtain ⟨p, fences, lineage, entitled⟩ := granted_entitled sorting a left granted
  obtain ⟨p', fences', lineage', entitled'⟩ := granted_entitled sorting' b right granted'
  obtain ⟨c, member, mirrors⟩ := seen
  obtain ⟨c', member', mirrors'⟩ := seen'
  have same : p = policy := Option.some.inj (entitled.complete.1.symm.trans shared.1)
  subst same
  have yields := mirrors.yields entitled member apart overlaps
  have yields' := mirrors'.yields entitled' member' apart.symm
    ((Scope.overlaps_comm b.scope a.scope).trans overlaps)
  -- neither is of a higher epoch, so both are of the same, and then nothing is granted
  have below := not_lt.mp yields.higher
  have below' := not_lt.mp yields'.higher
  rw [mirrors.epoch] at below
  rw [mirrors'.epoch] at below'
  have equal : c.epoch = a.epoch := mirrors.epoch.trans (le_antisymm below below')
  by_cases incarnation : c.incarnation = a.incarnation
  · exact yields.own ⟨equal, incarnation⟩
  · exact yields.fatal fatal ⟨equal, incarnation⟩

/-- Two claims to one extent, the later granted. -/
theorem deciders_exclude_solo :
    (decideAuthority {} (soloRequest 97 120 2)
      (soloView [(soloRequest 98 120 1).competes .current false])).isAuthoritative = true ∧
    ¬ ((decideAuthority {} (soloRequest 97 120 2)
        (soloView [(soloRequest 98 120 1).competes .current false])).isAuthoritative = true ∧
      (decideAuthority {} (soloRequest 98 120 1)
        (soloView [(soloRequest 97 120 2).competes .unknown true])).isAuthoritative = true) := by
  have apart : (soloRequest 97 120 2).claim ≠ (soloRequest 98 120 1).claim := by decide
  have overlaps : (soloRequest 97 120 2).scope.overlaps (soloRequest 98 120 1).scope = true := by
    decide +kernel
  refine ⟨by decide +kernel, ?_⟩
  refine deciders_exclude {} {} _ _ _ _ soloPolicy apart overlaps ⟨rfl, rfl⟩ rfl ?_ ?_
  · exact ⟨_, List.mem_singleton_self _, rfl, rfl, rfl, rfl, rfl, rfl⟩
  · exact ⟨_, List.mem_singleton_self _, rfl, rfl, rfl, rfl, rfl, rfl⟩

end Exclusion

structure RevocationCheck where
  revoked : Bool := false
  reason : Reason := .none
  explanation : Explanation := {}
  deriving DecidableEq

def RevocationCheck.revoke (reason : Reason) : RevocationCheck where
  revoked := true
  reason := reason
  explanation := ({} : Explanation).add reason

/-- The competitors that revoke a decision. Their scopes are not looked at. -/
def CompetingClaim.supersedes (c : CompetingClaim) (vector : AuthorityVector) : Bool :=
  decide (c.mode = .exclusiveMutation) && decide (vector.epoch < c.epoch) &&
    decide (c.evidenceState = .current) && decide (c.domain ≠ vector.domain)

def checkRevocation (decision : AuthorityDecision) (view : ArbiterView) : RevocationCheck :=
  if decision.isAuthoritative = false then
    .revoke (if decision.status.reason = .none then .planInvalid else decision.status.reason)
  else match view.fences, view.lineage, view.policy with
  | some fences, some lineage, some policy =>
    if policy.generation ≠ decision.vector.policyGeneration then .revoke .policyGenerationMismatch
    else if fences.generation ≠ decision.vector.fenceGeneration then .revoke .extentFenced
    else if decision.vector.epoch < lineage.maxEpoch decision.vector.domain then .revoke .staleEpoch
    else if fences.incarnationFenced decision.vector.incarnation then .revoke .incarnationFenced
    else if decision.validUntil < view.now then .revoke .leaseExpired
    else if view.competing.any (·.supersedes decision.vector) then
      { revoked := true
        reason := .higherEpochClaimant
        explanation := if lineage.grants = [] then {}
          else ({} : Explanation).add .higherEpochClaimant }
    else {}
  | _, _, _ => .revoke .dependencyUnreachable

section Revocation

variable {sorting : Sorting} {request : AuthorityRequest} {view : ArbiterView}

theorem conclude_lease {profile : QuorumProfile} {t : Tally} {out : EvidenceAssessment} :
    (conclude profile t out).leasePresent = out.leasePresent ∧
      (conclude profile t out).leaseValidUntil = out.leaseValidUntil := by
  unfold conclude EvidenceAssessment.judged
  split_ifs <;> exact ⟨rfl, rfl⟩

theorem leaseObjection_none {lease : Lease} {request : EvidenceRequest} {profile : QuorumProfile}
    (sound : leaseObjection lease request profile = none) : request.asOf ≤ lease.validUntil := by
  by_contra expired
  unfold leaseObjection at sound
  rw [if_pos (not_le.mp expired)] at sound
  split_ifs at sound

theorem else_of_current {c : Prop} [Decidable c] {x y : EvidenceAssessment}
    (current : (if c then x else y).state = .current) (spoiled : x.state ≠ .current) :
    ¬ c ∧ (if c then x else y) = y ∧ y.state = .current :=
  else_of_not (p := fun a : EvidenceAssessment => a.state = .current) current spoiled

/-- A current assessment has the lease of the bundle, which has not run out. -/
theorem assess_lease {request : EvidenceRequest} {profile : QuorumProfile}
    {bundle : EvidenceBundle} {floors : List WitnessFloor}
    (current : (assessEvidence sorting request profile bundle floors).state = .current) :
    (assessEvidence sorting request profile bundle floors).leasePresent = bundle.hasLease ∧
    (bundle.hasLease = true →
      request.asOf ≤ (assessEvidence sorting request profile bundle floors).leaseValidUntil) := by
  unfold assessEvidence assessInOrder at current ⊢
  generalize sorting.canonical bundle.attestations = sorted at current ⊢
  cases valid : profile.validate with
  | error st =>
    rw [valid] at current
    cases current
  | ok _ =>
    simp only [valid] at current ⊢
    obtain ⟨-, same, current⟩ := else_of_current current nofun
    rw [same]
    obtain ⟨-, same, current⟩ := else_of_current current nofun
    rw [same]
    obtain ⟨-, same, current⟩ := else_of_current current nofun
    rw [same]
    by_cases leased : bundle.hasLease = true
    · rw [if_pos leased] at current ⊢
      cases objects : leaseObjection bundle.lease request profile with
      | some verdict =>
        obtain ⟨state, outcome, reason⟩ := verdict
        simp only [objects] at current
        have same : state = .current := current
        exact absurd (same ▸ objects) leaseObjection_state
      | none =>
        simp only
        rw [conclude_lease.1, conclude_lease.2]
        exact ⟨leased.symm, fun _ => leaseObjection_none objects⟩
    · rw [if_neg leased, conclude_lease.1]
      exact ⟨(Bool.not_eq_true _ ▸ leased).symm, fun present => absurd present leased⟩

/-- A claim of a higher epoch in another domain, backed by current evidence. -/
structure CompetingClaim.Outranks (c : CompetingClaim) (request : AuthorityRequest) : Prop where
  mode : c.mode = .exclusiveMutation
  higher : request.epoch < c.epoch
  current : c.evidenceState = .current
  elsewhere : c.domain ≠ request.domain

/-- The end of the window does not wrap. -/
def ArbiterView.Lasts (view : ArbiterView) : Prop :=
  ∀ policy, view.policy = some policy →
    view.now.toNat + policy.quorum.evidenceHorizonSteps.toNat ≤ maxWord.toNat

theorem not_before_iff (now horizon : UInt64) :
    ¬ now + horizon < now ↔ now.toNat + horizon.toNat ≤ maxWord.toNat := by
  have top : maxWord.toNat = 18446744073709551615 := rfl
  have low := now.toNat_lt
  have low' := horizon.toNat_lt
  rw [UInt64.lt_iff_toNat_lt, UInt64.toNat_add]
  omega

/-- What is left to revoke a decision that is bound to the view. -/
theorem unrevoked_iff {d : AuthorityDecision} {policy : ArbiterPolicy} {fences : FenceTable}
    {lineage : LineageTable} (granted : d.isAuthoritative = true)
    (complete : view.policy = some policy ∧ view.fences = some fences ∧ view.lineage = some lineage)
    (generation : d.vector.policyGeneration = policy.generation)
    (fenceGeneration : d.vector.fenceGeneration = fences.generation)
    (newest : lineage.maxEpoch d.vector.domain ≤ d.vector.epoch)
    (free : fences.incarnationFenced d.vector.incarnation = false) :
    (checkRevocation d view).revoked = false ↔
      ¬ d.validUntil < view.now ∧ ∀ c ∈ view.competing, c.supersedes d.vector = false := by
  obtain ⟨policy', fences', lineage'⟩ := complete
  unfold checkRevocation
  rw [if_neg (by simp [granted])]
  simp only [policy', fences', lineage']
  rw [if_neg (not_not.mpr generation.symm), if_neg (not_not.mpr fenceGeneration.symm),
    if_neg (not_lt.mpr newest), if_neg (by simp [free])]
  by_cases expired : d.validUntil < view.now
  · rw [if_pos expired]
    constructor
    · intro kept
      cases kept
    · rintro ⟨lasts, -⟩
      exact absurd expired lasts
  rw [if_neg expired]
  by_cases superseded : view.competing.any (·.supersedes d.vector) = true
  · rw [if_pos superseded]
    obtain ⟨c, member, supersedes⟩ := List.any_eq_true.mp superseded
    constructor
    · intro kept
      cases kept
    · rintro ⟨-, none⟩
      rw [none c member] at supersedes
      cases supersedes
  · rw [if_neg superseded]
    refine ⟨fun _ => ⟨expired, fun c member => ?_⟩, fun _ => rfl⟩
    by_contra supersedes
    exact superseded (List.any_eq_true.mpr ⟨c, member, Bool.not_eq_false _ ▸ supersedes⟩)

/-- A fresh decision is not already revoked exactly when no claim in another domain
outranks it, whatever its scope, and its window does not wrap. -/
theorem fresh_unrevoked_iff (sorting : Sorting) (request : AuthorityRequest) (view : ArbiterView)
    (granted : (decideAuthority sorting request view).isAuthoritative = true) :
    (checkRevocation (decideAuthority sorting request view) view).revoked = false ↔
      (∀ c ∈ view.competing, ¬ c.Outranks request) ∧
        (request.evidence.hasLease = true ∨ view.Lasts) := by
  obtain ⟨policy, fences, lineage, mustFence, entitled, written⟩ := decideAuthority_granted granted
  obtain ⟨policy', fences', lineage'⟩ := entitled.complete
  obtain ⟨present, unexpired⟩ := assess_lease entitled.current
  have present : (request.assessed sorting policy view).leasePresent =
      request.evidence.hasLease := present
  rw [written] at granted ⊢
  have generation : (view.policy.map (·.generation)).getD 0 = policy.generation := by
    rw [policy']
    rfl
  have fenceGeneration : (view.fences.map (·.generation)).getD 0 = fences.generation := by
    rw [fences']
    rfl
  have window : ¬ (if (request.assessed sorting policy view).leasePresent = true then
        (request.assessed sorting policy view).leaseValidUntil
      else view.now + policy.quorum.evidenceHorizonSteps) < view.now ↔
      request.evidence.hasLease = true ∨ view.Lasts := by
    rw [present]
    by_cases leased : request.evidence.hasLease = true
    · rw [if_pos leased]
      exact ⟨fun _ => .inl leased, fun _ => not_lt.mpr (unexpired leased)⟩
    · rw [if_neg leased, not_before_iff]
      constructor
      · intro lasts
        refine .inr fun p same => ?_
        rw [Option.some.inj (same.symm.trans policy')]
        exact lasts
      · rintro (present | lasts)
        · exact absurd present leased
        · exact lasts policy policy'
  rw [unrevoked_iff granted entitled.complete generation fenceGeneration entitled.newest
    entitled.incarnationFree, and_comm]
  refine and_congr (forall_congr' fun c => forall_congr' fun member => ?_) window
  rw [← Bool.not_eq_true]
  refine not_congr ?_
  constructor
  · intro supersedes
    simp only [CompetingClaim.supersedes, Bool.and_eq_true, decide_eq_true_eq] at supersedes
    obtain ⟨⟨⟨mode, higher⟩, current⟩, elsewhere⟩ := supersedes
    exact ⟨mode, higher, current, elsewhere⟩
  · rintro ⟨mode, higher, current, elsewhere⟩
    simp only [CompetingClaim.supersedes, Bool.and_eq_true, decide_eq_true_eq]
    exact ⟨⟨⟨mode, higher⟩, current⟩, elsewhere⟩

/-- A grant beside an older claim stands. -/
theorem fresh_unrevoked_iff_solo :
    (checkRevocation (decideAuthority {} (soloRequest 97 120 2)
        (soloView [(soloRequest 98 120 1).competes .current false]))
      (soloView [(soloRequest 98 120 1).competes .current false])).revoked = false := by
  refine (fresh_unrevoked_iff {} _ _ (by decide +kernel)).mpr ⟨?_, .inr ?_⟩
  · intro c member outranks
    rw [List.mem_singleton.mp member] at outranks
    exact absurd outranks.higher (by decide)
  · intro policy same
    cases same
    decide

/-- A later claim to another extent revokes a grant in the view it was made in. -/
theorem fresh_revoked :
    (soloRequest 97 120 2).scope.overlaps (soloRequest 98 121 3).scope = false ∧
    (decideAuthority {} (soloRequest 97 120 2)
      (soloView [(soloRequest 98 121 3).competes .current true])).isAuthoritative = true ∧
    (checkRevocation (decideAuthority {} (soloRequest 97 120 2)
        (soloView [(soloRequest 98 121 3).competes .current true]))
      (soloView [(soloRequest 98 121 3).competes .current true])).revoked = true := by
  decide +kernel

end Revocation

end SplitBrainFabric
