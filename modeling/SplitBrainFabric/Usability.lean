import SplitBrainFabric.Competitors
import SplitBrainFabric.Arrival
import SplitBrainFabric.OperationSpecs

/-! Which policies anything can ever be granted under. Validation looks at the policy and at
its quorum profile one after the other; a grant needs the two to agree, and as many different
witnesses and fault domains as the profile asks for. -/

namespace SplitBrainFabric
open Words

/-- Some request is granted in some view that has nothing in it but the policy. -/
def ArbiterPolicy.Usable (sorting : Sorting) (p : ArbiterPolicy) : Prop :=
  ∃ (request : AuthorityRequest) (view : ArbiterView), view.policy = some p ∧
    view.fences = some {} ∧ view.lineage = some {} ∧ view.competing = [] ∧
    (decideAuthority sorting request view).isAuthoritative = true

/-- The two halves of a policy agree, and its slots hold enough different witnesses. -/
structure ArbiterPolicy.Agrees (p : ArbiterPolicy) : Prop where
  policy : p.policy = p.quorum.policy
  generation : p.generation = p.quorum.generation
  enough : p.quorum.requiredWitnesses.toNat ≤ p.quorum.distinctWitnesses.card
  spread : p.quorum.minFaultDomains.toNat ≤
    (p.quorum.distinctWitnesses.image p.quorum.faultDomainOf).card

section Needs

variable {sorting : Sorting} {p : ArbiterPolicy} {request : EvidenceRequest}
  {profile : QuorumProfile} {bundle : EvidenceBundle} {floors : List WitnessFloor}

/-- Proof comes from the witnesses of the profile alone. -/
theorem Proven.witnesses_subset (proven : Proven sorting request profile bundle floors) :
    bundle.witnesses ⊆ profile.distinctWitnesses := by
  intro w member
  obtain ⟨a, inside, rfl⟩ := List.mem_map.mp (List.mem_toFinset.mp member)
  obtain ⟨b, counts, same⟩ :=
    exists_considered ((sorting.canonical_perm _).mem_iff.mpr inside) (proven.named a inside)
  exact same ▸ mem_distinctWitnesses (proven.backed b counts).2.known

theorem ArbiterPolicy.Usable.agrees (usable : p.Usable sorting) :
    p.validate = .ok () ∧ p.Agrees := by
  obtain ⟨request, view, policy, -, -, -, granted⟩ := usable
  obtain ⟨q, fences, lineage, -, entitled, -⟩ := decideAuthority_granted granted
  obtain rfl : q = p := Option.some.inj (entitled.complete.1.symm.trans policy)
  have proven := proven_iff.mp entitled.current
  have inside := proven.witnesses_subset
  exact ⟨entitled.valid, {
    policy := entitled.policyNamed.symm.trans proven.weighed.policy
    generation := entitled.generation.symm.trans proven.weighed.generation
    enough := proven.enough.trans (Finset.card_le_card inside)
    spread := proven.spread.trans (Finset.card_le_card (Finset.image_subset_image inside)) }⟩

end Needs

section Builds

variable {sorting : Sorting} {p : ArbiterPolicy}

theorem QuorumProfile.validateSlots_named {slots : List WitnessSlot} {i : Nat}
    {previous : Option WitnessSlot} (valid : validateSlots i previous slots = .ok ()) :
    ∀ slot ∈ slots, slot.witness.isEmpty = false ∧ slot.faultDomain.isEmpty = false := by
  induction slots generalizing i previous with
  | nil => exact fun slot member => absurd member List.not_mem_nil
  | cons slot rest ih =>
    unfold validateSlots at valid
    obtain ⟨filled, valid⟩ := else_of_ne valid nofun
    obtain ⟨-, valid⟩ := else_of_ne valid nofun
    rw [Bool.or_eq_true, not_or, Bool.not_eq_true, Bool.not_eq_true] at filled
    intro other member
    rcases List.mem_cons.mp member with rfl | later
    · exact filled
    · exact ih valid other later

theorem QuorumProfile.validate_named {q : QuorumProfile} (valid : q.validate = .ok ()) :
    ∀ slot ∈ q.witnesses, slot.witness.isEmpty = false ∧ slot.faultDomain.isEmpty = false := by
  unfold validate at valid
  obtain ⟨_, valid⟩ := else_of_ne valid nofun
  obtain ⟨_, valid⟩ := else_of_ne valid nofun
  obtain ⟨_, valid⟩ := else_of_ne valid nofun
  obtain ⟨_, valid⟩ := else_of_ne valid nofun
  cases slots : validateSlots 0 none q.witnesses with
  | ok u => exact validateSlots_named slots
  | error st =>
    rw [slots] at valid
    cases valid

theorem QuorumProfile.validate_generation {q : QuorumProfile} (valid : q.validate = .ok ()) :
    q.generation ≠ 0 := by
  unfold validate at valid
  obtain ⟨_, valid⟩ := else_of_ne valid nofun
  obtain ⟨numbered, _⟩ := else_of_ne valid nofun
  exact numbered

/-- What validation looks at besides the profile. -/
structure ArbiterPolicy.Valid (p : ArbiterPolicy) : Prop where
  named : p.policy.isEmpty = false
  generation : p.generation ≠ 0
  horizon : p.leaseDefaultHorizonSteps ≠ 0
  bounded : p.leaseDefaultHorizonSteps ≤ Limits.maxLeaseHorizonSteps
  quorum : p.quorum.validate = .ok ()

theorem ArbiterPolicy.validate_iff : p.validate = .ok () ↔ p.Valid := by
  constructor
  · intro valid
    unfold ArbiterPolicy.validate at valid
    obtain ⟨named, valid⟩ := else_of_ne valid nofun
    obtain ⟨generation, valid⟩ := else_of_ne valid nofun
    obtain ⟨horizon, valid⟩ := else_of_ne valid nofun
    rw [not_or] at horizon
    exact ⟨Bool.not_eq_true _ ▸ named, generation, horizon.1, not_lt.mp horizon.2, valid⟩
  · rintro ⟨named, generation, horizon, bounded, quorum⟩
    rw [ArbiterPolicy.validate, if_neg (by simp [named]), if_neg generation,
      if_neg (not_or.mpr ⟨horizon, not_lt.mpr bounded⟩), quorum]

/-- The scope of the claim below: one extent. -/
def tokenScope : Scope := (Scope.make [Id.make [120]]).toOption.getD Scope.empty

/-- The statement of one witness for it. -/
def tokenStatement (generation : Generation) (w : WitnessId) : WitnessAttestation where
  witness := w
  subjectDomain := Id.make [97]
  subjectScope := tokenScope.digest
  epoch := 1
  incarnation := 1
  fenceToken := 1
  witnessGeneration := 1
  policyGeneration := generation
  validUntil := maxWord
  witnessSequence := 1

/-- A claim with a statement of every witness of the policy, and with a lease. -/
def tokenRequest (p : ArbiterPolicy) : AuthorityRequest where
  claim := Id.make [97]
  domain := Id.make [97]
  scope := tokenScope
  epoch := 1
  incarnation := 1
  presentedFenceToken := 1
  evidence := {
    policy := p.policy
    policyGeneration := p.generation
    attestations := (p.quorum.witnesses.map (·.witness)).dedup.map (tokenStatement p.generation)
    hasLease := true
    lease := {
      id := 1
      grant := 1
      generation := 1
      domain := Id.make [97]
      scope := tokenScope.digest
      epoch := 1
      incarnation := 1
      fenceToken := 1
      policyGeneration := p.generation
      validUntil := maxWord } }

def tokenView (p : ArbiterPolicy) : ArbiterView where
  policy := some p
  fences := some {}
  lineage := some {}
  now := 1

theorem tokenRequest_witnesses (p : ArbiterPolicy) :
    (tokenRequest p).evidence.witnesses = p.quorum.distinctWitnesses := by
  have read : (tokenRequest p).evidence.attestations.map (·.witness) =
      (p.quorum.witnesses.map (·.witness)).dedup := by
    simp only [tokenRequest, List.map_map]
    exact List.map_id _
  rw [EvidenceBundle.witnesses, read, QuorumProfile.distinctWitnesses]
  ext w
  rw [List.mem_toFinset, List.mem_toFinset, List.mem_dedup]

theorem tokenRequest_statement {p : ArbiterPolicy} {a : WitnessAttestation}
    (member : a ∈ (tokenRequest p).evidence.attestations) :
    a.witness ∈ p.quorum.witnesses.map (·.witness) ∧ a = tokenStatement p.generation a.witness := by
  obtain ⟨w, inside, rfl⟩ := List.mem_map.mp member
  exact ⟨List.mem_dedup.mp inside, rfl⟩

theorem tokenRequest_current (valid : p.Valid) (agrees : p.Agrees) :
    ((tokenRequest p).assessed sorting p (tokenView p)).state = .current := by
  have few : (p.quorum.witnesses.map (·.witness)).dedup.length ≤ 32 := by
    refine (List.dedup_sublist _).length_le.trans ?_
    rw [List.length_map]
    exact (QuorumProfile.validate_size valid.quorum).2
  have begun : (0 : Step) ≤ 1 := by decide
  have lasting : (1 : Step) ≤ maxWord := by decide
  refine proven_iff.mpr ?_
  exact {
    weighed := {
      valid := valid.quorum
      named := valid.named
      policy := agrees.policy
      generation := agrees.generation
      bounded := by
        simp only [tokenRequest, List.length_map]
        exact few.trans (by decide) }
    named := fun a member => by
      obtain ⟨slot, inside, same⟩ := List.mem_map.mp (tokenRequest_statement member).1
      exact same ▸ (QuorumProfile.validate_named valid.quorum slot inside).1
    backed := fun a counts => by
      obtain ⟨inside, same⟩ :=
        tokenRequest_statement ((sorting.canonical_perm _).mem_iff.mp (considered_subset counts))
      obtain ⟨slot, listed, owner⟩ := List.mem_map.mp inside
      rw [same]
      refine ⟨rfl, ?_⟩
      exact {
        known := (SortedTable.find_foldl_put_isSome _ _ _).mpr (.inl ⟨slot, listed, owner⟩)
        fresh := fun floor listed => by cases listed
        speaks := ⟨rfl, rfl, rfl, rfl, rfl⟩
        generation := agrees.generation
        set := nofun
        issued := begun
        unexpired := lasting }
    enough := by
      rw [tokenRequest_witnesses]
      exact agrees.enough
    spread := by
      rw [tokenRequest_witnesses]
      exact agrees.spread
    lease := fun _ => {
      id := nofun
      grant := nofun
      generation := nofun
      policyGeneration := agrees.generation
      scope := rfl
      domain := rfl
      epoch := rfl
      incarnation := rfl
      token := rfl
      begun := begun
      unexpired := lasting } }

theorem ArbiterPolicy.Agrees.usable (agrees : p.Agrees) (valid : p.Valid) :
    p.Usable sorting := by
  have current : ((tokenRequest p).assessed sorting p (tokenView p)).state = .current :=
    tokenRequest_current valid agrees
  refine ⟨tokenRequest p, tokenView p, rfl, rfl, rfl, rfl, ?_⟩
  refine granted_exactly_iff.mpr ⟨p, {}, {}, ?_, fun _ c member => absurd member List.not_mem_nil⟩
  exact {
    mode := rfl
    claim := (by decide : (Id.make [97] : ClaimId).isEmpty = false)
    domain := (by decide : (Id.make [97] : DomainId).isEmpty = false)
    scope := (by decide +kernel : tokenScope.isEmpty = false)
    epoch := nofun
    incarnation := nofun
    token := nofun
    complete := ⟨rfl, rfl, rfl⟩
    valid := validate_iff.mpr valid
    policyNamed := rfl
    generation := rfl
    newest := (by decide : ({} : LineageTable).maxEpoch (Id.make [97]) ≤ 1)
    incarnationFree := (by decide : ({} : FenceTable).incarnationFenced 1 = false)
    epochFree := (by decide : ({} : FenceTable).epochFenced (Id.make [97]) 1 = false)
    floor := fun e member => by
      have unset : (({} : FenceTable).highWater e) = 0 := rfl
      rw [unset]
      exact UInt64.zero_le
    current := current
    lease := fun _ => (assess_lease current).1
    unrivalled := fun c member => absurd member List.not_mem_nil }

end Builds

/-- A policy that can be used, validated or not. -/
theorem ArbiterPolicy.usable_iff_agrees {sorting : Sorting} {p : ArbiterPolicy} :
    p.Usable sorting ↔ p.Valid ∧ p.Agrees := by
  constructor
  · intro usable
    obtain ⟨valid, agrees⟩ := usable.agrees
    exact ⟨validate_iff.mp valid, agrees⟩
  · rintro ⟨valid, agrees⟩
    exact agrees.usable valid

/-- The policy that a definition puts in force. -/
theorem Work.definePolicy_policy {p : ArbiterPolicy} {now : Step} {w w' : Work}
    (ran : (Work.definePolicy p now).exec w = (.ok ⟨⟩, w')) :
    p.Valid ∧ w'.state.policy = { p with generation := w.state.policy.generation + 1 } := by
  cases valid : p.validate with
  | error st =>
    rw [Work.definePolicy, Prog.exec_ofExcept_bind, valid] at ran
    cases ran
  | ok u =>
    rw [Work.definePolicy_exec valid] at ran
    obtain ⟨entry, s, read, enacted, rfl⟩ := Work.emit_ok ran
    have bounded : p.quorum.witnesses.length ≤ Limits.maxWitnessesPerProfile :=
      ArbiterPolicy.validate_bounded valid
    simp only [nextRecord, JournalRecord.entry] at read
    obtain rfl := read_back
      (agrees_policy (p := { p with generation := w.state.policy.generation + 1 }) bounded) read
    cases enacted
    exact ⟨ArbiterPolicy.validate_iff.mp valid, rfl⟩

/-- A policy that passes validation can be used exactly when its halves agree and its slots
hold enough different witnesses; of a policy that is put in force, the half that is numbered
anew has to agree with the half that is not. -/
theorem usable_iff (sorting : Sorting) (p : ArbiterPolicy) (now : Step) (w : Work) :
    (p.validate = .ok () → (p.Usable sorting ↔ p.Agrees)) ∧
    ∀ w', (Work.definePolicy p now).exec w = (.ok ⟨⟩, w') →
      (w'.state.policy.Usable sorting ↔
        ({ p with generation := w.state.policy.generation + 1 } : ArbiterPolicy).Agrees) := by
  refine ⟨fun valid => ?_, fun w' ran => ?_⟩
  · rw [ArbiterPolicy.usable_iff_agrees]
    exact and_iff_right (ArbiterPolicy.validate_iff.mp valid)
  · obtain ⟨valid, inForce⟩ := Work.definePolicy_policy ran
    rw [inForce, ArbiterPolicy.usable_iff_agrees]
    refine and_iff_right_of_imp fun agrees => ?_
    have numbered := QuorumProfile.validate_generation valid.quorum
    exact ⟨valid.named, fun zero => numbered (agrees.generation.symm.trans zero), valid.horizon,
      valid.bounded, valid.quorum⟩

/-- A registry that has the policy of its own and nothing else takes another. -/
theorem solo_defined : ∃ w' : Work,
    (Work.definePolicy soloPolicy 1).exec { state := {} } = (.ok ⟨⟩, w') := by
  have accepted : ((Work.definePolicy soloPolicy 1).exec { state := {} }).1.isOk = true := by
    decide +kernel
  rcases ran : (Work.definePolicy soloPolicy 1).exec { state := {} } with ⟨r, w'⟩
  rw [ran] at accepted
  cases r with
  | ok u => exact ⟨w', rfl⟩
  | error st => cases accepted

theorem usable_iff_solo :
    (soloPolicy.Usable {} ↔ soloPolicy.Agrees) ∧
    ∃ w' : Work, (Work.definePolicy soloPolicy 1).exec { state := {} } = (.ok ⟨⟩, w') ∧
      (w'.state.policy.Usable {} ↔
        ({ soloPolicy with generation := 2 } : ArbiterPolicy).Agrees) := by
  obtain ⟨w', ran⟩ := solo_defined
  obtain ⟨accepted, inForce⟩ := usable_iff {} soloPolicy 1 { state := {} }
  exact ⟨accepted (by decide), w', ran, inForce w' ran⟩

/-- A policy under another name than its profile is of no use, and a policy that could be
used cannot be once it is put in force. -/
theorem policies_unusable :
    (({ soloPolicy with policy := Id.make [113] } : ArbiterPolicy).validate = .ok () ∧
      ¬ ({ soloPolicy with policy := Id.make [113] } : ArbiterPolicy).Usable {}) ∧
    soloPolicy.Usable {} ∧ ∃ w' : Work,
      (Work.definePolicy soloPolicy 1).exec { state := {} } = (.ok ⟨⟩, w') ∧
        ¬ w'.state.policy.Usable {} := by
  obtain ⟨w', ran⟩ := solo_defined
  have valid : soloPolicy.Valid := ArbiterPolicy.validate_iff.mp (by decide)
  have agrees : soloPolicy.Agrees := ⟨by decide, by decide, by decide, by decide⟩
  refine ⟨⟨by decide, fun usable => ?_⟩, agrees.usable valid, w', ran, fun usable => ?_⟩
  · have same := (ArbiterPolicy.usable_iff_agrees.mp usable).2.policy
    exact absurd same (by decide)
  · rw [(Work.definePolicy_policy ran).2] at usable
    have same := (ArbiterPolicy.usable_iff_agrees.mp usable).2.generation
    exact absurd same (by decide)

end SplitBrainFabric
