import SplitBrainFabric.Ties

/-! What current evidence means, and what a repetition does to the supporting count. A copy
or an older statement puts nobody new at the head of a witness, so it changes the count only
where the count is not settled by the statements themselves, or by making the bundle too long. -/

namespace SplitBrainFabric
open Words

/-- The bundle with something added to it: copies of its own statements, and statements older
than one that the same witness has in it. -/
def Repeats (l arrival : List WitnessAttestation) : Prop :=
  ∃ extra, extra ≠ [] ∧ arrival.Perm (l ++ extra) ∧
    ∀ a ∈ extra, a ∈ l ∨ ∃ b ∈ l, b.witness = a.witness ∧ a.witnessSequence < b.witnessSequence

section Repeated

variable {l arrival : List WitnessAttestation} {a : WitnessAttestation}

theorem Repeats.subset (repeats : Repeats l arrival) (member : a ∈ l) : a ∈ arrival := by
  obtain ⟨extra, -, perm, -⟩ := repeats
  exact perm.mem_iff.mpr (List.mem_append_left extra member)

theorem Repeats.outdone (repeats : Repeats l arrival) (member : a ∈ arrival) :
    a ∈ l ∨ ∃ b ∈ l, b.witness = a.witness ∧ a.witnessSequence < b.witnessSequence := by
  obtain ⟨extra, -, perm, outdone⟩ := repeats
  rcases List.mem_append.mp (perm.mem_iff.mp member) with inside | added
  · exact .inl inside
  · exact outdone a added

theorem Repeats.heads_iff (repeats : Repeats l arrival) : Heads arrival a ↔ Heads l a := by
  constructor
  · intro heads
    have inside : a ∈ l := by
      rcases repeats.outdone heads.mem with inside | ⟨b, member, same, newer⟩
      · exact inside
      · exact absurd newer (not_lt.mpr (heads.newest b (repeats.subset member) same))
    exact ⟨inside, fun b member => heads.newest b (repeats.subset member),
      fun b member => heads.least b (repeats.subset member)⟩
  · intro heads
    have newest : ∀ b ∈ arrival, b.witness = a.witness → b.witnessSequence ≤ a.witnessSequence := by
      intro b member same
      rcases repeats.outdone member with inside | ⟨c, inside, same', newer⟩
      · exact heads.newest b inside same
      · exact newer.le.trans (heads.newest c inside (same'.trans same))
    refine ⟨repeats.subset heads.mem, newest, fun b member same level => ?_⟩
    rcases repeats.outdone member with inside | ⟨c, inside, same', newer⟩
    · exact heads.least b inside same level
    · -- an older statement is not among the newest
      have above := heads.newest c inside (same'.trans same)
      exact absurd (level ▸ newer) (not_lt.mpr above)

theorem Repeats.speakers_eq (repeats : Repeats l arrival) : speakers arrival = speakers l := by
  refine considered_speakers (canonicalOrder_sorted arrival) fun w => ?_
  constructor
  · rintro ⟨a, member, rfl⟩
    rcases repeats.outdone (mem_canonicalOrder.mp member) with inside | ⟨b, inside, same, -⟩
    · exact ⟨a, inside, rfl⟩
    · exact ⟨b, inside, same⟩
  · rintro ⟨a, member, rfl⟩
    exact ⟨a, mem_canonicalOrder.mpr (repeats.subset member), rfl⟩

/-- The same statements may come to count. -/
theorem Repeats.selected_iff (repeats : Repeats l arrival) {counting : List WitnessAttestation} :
    Selected arrival counting ↔ Selected l counting := by
  have voices : Voices arrival = Voices l := by
    funext w a
    exact propext (and_congr_left fun _ => repeats.heads_iff)
  rw [Selected, Selected, voices, repeats.speakers_eq]

end Repeated

/-- A quorum of distinct witnesses whose statements agree with the request in every binding,
no witness refusing, and no lease but one that agrees as well. -/
structure Warranted (request : EvidenceRequest) (profile : QuorumProfile) (bundle : EvidenceBundle)
    (floors : List WitnessFloor) (sorted : List WitnessAttestation) : Prop where
  quorum : ∃ quorum : List WitnessAttestation, (∀ a ∈ quorum, a ∈ bundle.attestations) ∧
    (quorum.map (·.witness)).Nodup ∧ profile.requiredWitnesses.toNat ≤ quorum.length ∧
    (∀ a ∈ quorum, a.support = true ∧ Qualifies request profile floors a ∧
      ⟨a.witness, profile.faultDomainOf a.witness⟩ ∈ profile.witnesses) ∧
    profile.minFaultDomains.toNat ≤
      (quorum.map fun a => profile.faultDomainOf a.witness).toFinset.card
  unrefused : ∀ i a, LeadsAt sorted i a → a.support = true
  lease : bundle.hasLease = true → bundle.lease.Holds request profile

section Meaning

variable {request : EvidenceRequest} {profile : QuorumProfile} {bundle : EvidenceBundle}
  {floors : List WitnessFloor} {sorted : List WitnessAttestation}

theorem warranted (perm : sorted.Perm bundle.attestations)
    (current : (assessInOrder request profile bundle floors sorted).state = .current) :
    Warranted request profile bundle floors sorted := by
  have proven := (current_iff perm).mp current
  refine ⟨⟨considered sorted, ?_, considered_nodup _, ?_, ?_, ?_⟩, ?_, proven.lease⟩
  · exact fun a member => perm.mem_iff.mp (considered_subset member)
  · rw [considered_length perm proven.named]
    exact proven.enough
  · intro a member
    obtain ⟨support, qualifies⟩ := proven.backed a member
    exact ⟨support, qualifies, slot_of_known qualifies.known⟩
  · rw [considered_domains perm proven.named]
    exact proven.spread
  · intro i a leads
    have named := proven.named a (perm.mem_iff.mp leads.mem)
    exact (proven.backed a (mem_considered.mpr ⟨named, i, leads⟩)).1

end Meaning

/-- What is asked of a bundle's statements for a longer one to count the same. Within the
bound, tied statements are all in favour or none is; beyond it, nobody is in favour. -/
structure CountSettled (request : EvidenceRequest) (profile : QuorumProfile)
    (bundle : EvidenceBundle) (floors : List WitnessFloor) (arrival : List WitnessAttestation) :
    Prop where
  sides : arrival.length ≤ Limits.maxAttestationsPerBundle →
    ∀ a b, Tied bundle.attestations a b →
      backs request profile floors a = backs request profile floors b
  crowded : Limits.maxAttestationsPerBundle < arrival.length →
    ∀ a, Heads bundle.attestations a → a.witness.isEmpty = false →
      backs request profile floors a = false

section Counting

variable {request : EvidenceRequest} {profile : QuorumProfile} {bundle : EvidenceBundle}
  {floors : List WitnessFloor} {arrival before after sorted sorted' : List WitnessAttestation}

variable (request profile bundle floors sorted) in
theorem supporting_crowded (long : Limits.maxAttestationsPerBundle < arrival.length) :
    (assessInOrder request profile { bundle with attestations := arrival } floors
      sorted).distinctSupportingWitnesses = 0 :=
  supporting_unweighed request floors sorted fun whole => not_lt.mpr whole.bounded long

/-- Where the statements settle the count, no repetition changes it. -/
theorem supporting_settled (repeats : Repeats bundle.attestations arrival)
    (perm : before.Perm bundle.attestations) (canonical : Canonical before sorted)
    (perm' : after.Perm arrival) (canonical' : Canonical after sorted')
    (settled : Weighed profile bundle → CountSettled request profile bundle floors arrival) :
    (assessInOrder request profile { bundle with attestations := after } floors
        sorted').distinctSupportingWitnesses =
      (assessInOrder request profile { bundle with attestations := before } floors
        sorted).distinctSupportingWitnesses := by
  have short : bundle.attestations.length ≤ after.length := by
    obtain ⟨extra, -, whole, -⟩ := repeats
    rw [perm'.length_eq, whole.length_eq, List.length_append]
    exact Nat.le_add_right _ _
  by_cases weighed : Weighed profile bundle
  · have selected := selected_of_sorted (canonical.perm.trans perm) canonical.keys
    have selected' : Selected bundle.attestations (considered sorted') :=
      repeats.selected_iff.mp (selected_of_sorted (canonical'.perm.trans perm') canonical'.keys)
    rw [supporting_weighed request floors sorted
      (weighed.with_attestations (perm.length_eq ▸ weighed.bounded))]
    by_cases room : after.length ≤ Limits.maxAttestationsPerBundle
    · have agree := tied_iff.mpr ((settled weighed).sides (perm'.length_eq ▸ room))
      rw [supporting_weighed request floors sorted' (weighed.with_attestations room),
        (Choice.countP_constant_iff selected).mpr agree _ _ selected selected']
    · have none : (considered sorted).countP (backs request profile floors) = 0 := by
        refine List.countP_eq_zero.mpr fun a member => ?_
        obtain ⟨w, speaks, heads, rfl⟩ := selected.class_of member
        rw [(settled weighed).crowded (perm'.length_eq ▸ not_le.mp room) a heads
          (mem_speakers.mp speaks).1]
        exact Bool.false_ne_true
      rw [supporting_crowded request profile bundle floors sorted' (not_le.mp room), none]
      rfl
  · have apart : ∀ {l : List WitnessAttestation}, bundle.attestations.length ≤ l.length →
        ¬ Weighed profile { bundle with attestations := l } := fun le whole =>
      weighed ⟨whole.valid, whole.named, whole.policy, whole.generation, le.trans whole.bounded⟩
    rw [supporting_unweighed request floors sorted (apart perm.length_eq.ge),
      supporting_unweighed request floors sorted' (apart short)]

/-- One count for every choice, and none if the longer bundle is refused for its length. -/
theorem settled_of_constant (weighed : Weighed profile bundle) {count : UInt32}
    (constant : ∀ counting, Selected bundle.attestations counting →
      UInt32.ofNat (counting.countP (backs request profile floors)) = count)
    (refused : Limits.maxAttestationsPerBundle < arrival.length → count = 0) :
    CountSettled request profile bundle floors arrival := by
  have sample := selected_canonical (List.Perm.refl bundle.attestations)
  have few : ∀ {counting}, Selected bundle.attestations counting →
      counting.countP (backs request profile floors) ≤ 64 := fun selected =>
    List.countP_le_length.trans (selected.length_le.trans weighed.bounded)
  have counted : ∀ {counting}, Selected bundle.attestations counting →
      counting.countP (backs request profile floors) = count.toNat := by
    intro counting selected
    have within := few selected
    rw [← constant counting selected, UInt32.toNat_ofNat', Nat.mod_eq_of_lt (by omega)]
  refine ⟨fun _ => ?_, fun long a heads named => ?_⟩
  · exact tied_iff.mp ((Choice.countP_constant_iff sample).mp fun _ _ selected selected' =>
      (counted selected).trans (counted selected').symm)
  · have speaks : a.witness ∈ speakers bundle.attestations :=
      mem_speakers.mpr ⟨named, a, heads.mem, rfl⟩
    have voices : Voices bundle.attestations a.witness a := ⟨heads, rfl⟩
    obtain ⟨earlier, later, selected, -⟩ := Choice.exists_exchange sample speaks voices voices
    have none := counted selected
    rw [refused long] at none
    exact Bool.not_eq_true _ ▸ List.countP_eq_zero.mp none a (by simp)

end Counting

/-- Current evidence is warranted, whatever the sort does with ties. A repetition leaves the
supporting count as it is exactly when the statements settle it: for any one sort, in whichever
order everything arrives, and for any two canonical orders. -/
theorem current_means_iff (sorting : Sorting) (request : EvidenceRequest)
    (profile : QuorumProfile) (bundle : EvidenceBundle) (floors : List WitnessFloor) :
    (∀ sorted, Canonical bundle.attestations sorted →
      (assessInOrder request profile bundle floors sorted).state = .current →
        Warranted request profile bundle floors sorted) ∧
    ∀ arrival, Repeats bundle.attestations arrival →
      ((∀ before after : List WitnessAttestation, before.Perm bundle.attestations →
          after.Perm arrival →
          (assessEvidence sorting request profile { bundle with attestations := after }
              floors).distinctSupportingWitnesses =
            (assessEvidence sorting request profile { bundle with attestations := before }
              floors).distinctSupportingWitnesses) ↔
        (Weighed profile bundle → CountSettled request profile bundle floors arrival)) ∧
      ((∀ sorted sorted' : List WitnessAttestation, Canonical bundle.attestations sorted →
          Canonical arrival sorted' →
          (assessInOrder request profile { bundle with attestations := arrival } floors
              sorted').distinctSupportingWitnesses =
            (assessInOrder request profile bundle floors sorted).distinctSupportingWitnesses) ↔
        (Weighed profile bundle → CountSettled request profile bundle floors arrival)) := by
  refine ⟨fun sorted canonical => warranted canonical.perm, fun arrival repeats => ⟨⟨?_, ?_⟩,
    ⟨?_, ?_⟩⟩⟩
  · intro same weighed
    refine settled_of_constant weighed (fun counting selected => ?_)
      (supporting_crowded request profile bundle floors (sorting.canonical arrival))
    obtain ⟨before, perm, rfl⟩ := selected_arrives sorting selected
    rw [← supporting_weighed request floors (sorting.canonical before)
      (weighed.with_attestations (perm.length_eq ▸ weighed.bounded))]
    exact (same before arrival perm (List.Perm.refl _)).symm
  · intro settled before after perm perm'
    exact supporting_settled repeats perm (sorting.canonical_canonical before) perm'
      (sorting.canonical_canonical after) settled
  · intro same weighed
    refine settled_of_constant weighed (fun counting selected => ?_)
      (supporting_crowded request profile bundle floors (sorting.canonical arrival))
    obtain ⟨sorted, canonical, rfl⟩ := selected_realised selected
    rw [← supporting_weighed request floors sorted weighed]
    exact (same sorted _ canonical (sorting.canonical_canonical arrival)).symm
  · intro settled sorted sorted' canonical canonical'
    exact supporting_settled repeats (List.Perm.refl _) canonical (List.Perm.refl _) canonical'
      settled

/-- A profile of witnesses that fail apart. -/
def panelProfile (witnesses : List UInt8) : QuorumProfile where
  policy := Id.make [112]
  witnesses := witnesses.map fun w => ⟨Id.make [w], Id.make [w]⟩

/-- What one of them says of the holder. -/
def panelStatement (witness : UInt8) (sequence : Sequence) : WitnessAttestation where
  witness := Id.make [witness]
  epoch := 1
  incarnation := 1
  fenceToken := 1
  witnessGeneration := 1
  policyGeneration := 1
  validUntil := 10
  witnessSequence := sequence

def panelRequest : EvidenceRequest where
  epoch := 1
  incarnation := 1
  fenceToken := 1
  asOf := 1

def panelBundle (statements : List WitnessAttestation) : EvidenceBundle where
  policy := Id.make [112]
  attestations := statements

/-- Two of three witnesses, and the same with two copies and an older statement. -/
theorem current_means_iff_panel :
    Warranted panelRequest (panelProfile [119, 120, 121])
      (panelBundle [panelStatement 120 1, panelStatement 119 2]) []
      (({} : Sorting).canonical [panelStatement 120 1, panelStatement 119 2]) ∧
    (assessEvidence {} panelRequest (panelProfile [119, 120, 121])
        (panelBundle [panelStatement 120 1, panelStatement 119 1, panelStatement 120 1,
          panelStatement 119 2, panelStatement 119 2]) []).distinctSupportingWitnesses =
      (assessEvidence {} panelRequest (panelProfile [119, 120, 121])
        (panelBundle [panelStatement 120 1, panelStatement 119 2])
          []).distinctSupportingWitnesses := by
  obtain ⟨meaning, counts⟩ := current_means_iff {} panelRequest (panelProfile [119, 120, 121])
    (panelBundle [panelStatement 120 1, panelStatement 119 2]) []
  have repeats : Repeats [panelStatement 120 1, panelStatement 119 2]
      [panelStatement 120 1, panelStatement 119 1, panelStatement 120 1, panelStatement 119 2,
        panelStatement 119 2] := by
    exact ⟨[panelStatement 120 1, panelStatement 119 1, panelStatement 119 2],
      List.cons_ne_nil _ _, by decide, by decide⟩
  have distinct : ([panelStatement 120 1, panelStatement 119 2].map (·.sortKey)).Nodup := by decide
  have settled : CountSettled panelRequest (panelProfile [119, 120, 121])
      (panelBundle [panelStatement 120 1, panelStatement 119 2]) []
      [panelStatement 120 1, panelStatement 119 1, panelStatement 120 1, panelStatement 119 2,
        panelStatement 119 2] := by
    refine ⟨fun _ a b tied => ?_, fun long => absurd long (by decide)⟩
    rw [List.inj_on_of_nodup_map distinct tied.left.mem tied.right.mem
      (tied.left.sortKey_eq tied.right tied.same)]
  exact ⟨meaning _ (Sorting.canonical_canonical {} _) (by decide +kernel),
    (counts _ repeats).1.mpr (fun _ => settled) _ _ (List.Perm.refl _) (List.Perm.refl _)⟩

/-- A witness that says yes and no under one key. -/
def tornBundle : EvidenceBundle :=
  panelBundle [panelStatement 119 1, { panelStatement 119 1 with support := false }]

/-- Its refusal is said once more, in front of the rest: where the only witness was counted,
nobody is. -/
theorem repeated_refusal :
    (panelProfile [119]).validate = .ok () ∧
    Repeats tornBundle.attestations
      ({ panelStatement 119 1 with support := false } :: tornBundle.attestations) ∧
    (assessEvidence {} panelRequest (panelProfile [119]) tornBundle []).state = .current ∧
    (assessEvidence {} panelRequest (panelProfile [119]) tornBundle
      []).distinctSupportingWitnesses = 1 ∧
    (assessEvidence {} panelRequest (panelProfile [119])
      { tornBundle with attestations :=
          { panelStatement 119 1 with support := false } :: tornBundle.attestations }
      []).distinctSupportingWitnesses = 0 := by
  refine ⟨by decide, ⟨[{ panelStatement 119 1 with support := false }], List.cons_ne_nil _ _,
    ?_, by decide⟩, by decide +kernel, by decide +kernel, by decide +kernel⟩
  exact (List.perm_append_singleton _ _).symm

end SplitBrainFabric
