import SplitBrainFabric.Library.LastWriter
import SplitBrainFabric.Witness

/-! Any number of witnesses, asked in any order by anyone. Each witness is a gated log
of statements, so two quorums that meet in one witness agree. -/

namespace SplitBrainFabric
open Words

/-- One service for each witness id, with everything the witnesses have stated. -/
structure Fleet where
  services : WitnessId → Option WitnessService := fun _ => none
  stated : List WitnessAttestation := []

inductive FleetMove where
  | deploy (config : WitnessConfig)
  | start (witness : WitnessId)
  | attest (witness : WitnessId) (request : AttestRequest)

namespace Fleet

def place (f : Fleet) (w : WitnessId) (s : WitnessService) : WitnessId → Option WitnessService :=
  fun x => if x = w then some s else f.services x

/-- A witness is configured once. -/
def deploy (f : Fleet) (config : WitnessConfig) : Fleet :=
  match f.services config.witness with
  | some _ => f
  | none =>
    match (WitnessService.configure config).exec {} with
    | (.ok _, s) => { f with services := f.place config.witness s }
    | (.error _, _) => f

def start (f : Fleet) (w : WitnessId) : Fleet :=
  match f.services w with
  | none => f
  | some s => { f with services := f.place w { s with clock := tryIncrement s.clock } }

/-- A refused request may change the service but states nothing. -/
def attest (f : Fleet) (w : WitnessId) (request : AttestRequest) : Fleet :=
  match f.services w with
  | none => f
  | some s =>
    match (WitnessService.attest request).exec s with
    | (.ok a, s') => ⟨f.place w s', f.stated ++ [a]⟩
    | (.error _, s') => { f with services := f.place w s' }

def step (f : Fleet) : FleetMove → Fleet
  | .deploy config => f.deploy config
  | .start w => f.start w
  | .attest w request => f.attest w request

def run (moves : List FleetMove) : Fleet := moves.foldl step {}

/-- The subject of a statement, as the witness that made it files it. -/
def subjectOf (a : WitnessAttestation) : WitnessId × SubjectKey :=
  (a.witness, keyFor a.subjectDomain a.subjectScope)

def touches (a : WitnessAttestation) (k : WitnessId × SubjectKey) : Bool := subjectOf a = k

def holder (a : WitnessAttestation) : IncarnationId × FenceToken := (a.incarnation, a.fenceToken)

abbrev Lawful (stated : List WitnessAttestation) : Prop :=
  LastWriter.Lawful touches WitnessAttestation.epoch holder stated

/-- What a witness keeps of the last statement about a subject. -/
def remembered (s : WitnessService) (k : SubjectKey) : Option (Epoch × IncarnationId × FenceToken) :=
  (s.subjects.find k).map fun p => (p.epoch, p.incarnation, p.fenceToken)

def lastStated (stated : List WitnessAttestation) (w : WitnessId) (k : SubjectKey) :
    Option (Epoch × IncarnationId × FenceToken) :=
  (LastWriter.latest touches (w, k) stated).map fun a => (a.epoch, a.incarnation, a.fenceToken)

structure Sound (f : Fleet) : Prop where
  lawful : Lawful f.stated
  placed : ∀ w s, f.services w = some s → s.config.witness = w
  memory : ∀ w s k, f.services w = some s → remembered s k = lastStated f.stated w k
  silent : ∀ w k, f.services w = none → lastStated f.stated w k = none

theorem sound_empty : Sound {} where
  lawful := List.Pairwise.nil
  placed := fun _ _ absent => by cases absent
  memory := fun _ _ _ absent => by cases absent
  silent := fun _ _ _ => rfl

theorem place_cases {f : Fleet} {w x : WitnessId} {s s' : WitnessService}
    (found : f.place w s x = some s') : x = w ∧ s' = s ∨ x ≠ w ∧ f.services x = some s' := by
  unfold place at found
  split at found
  · rename_i same
    cases found
    exact .inl ⟨same, rfl⟩
  · rename_i differ
    exact .inr ⟨differ, found⟩

theorem place_none {f : Fleet} {w x : WitnessId} {s : WitnessService}
    (absent : f.place w s x = none) : x ≠ w ∧ f.services x = none := by
  unfold place at absent
  split at absent
  · cases absent
  · rename_i differ
    exact ⟨differ, absent⟩

/-- Replacing a service by one with the same memory. -/
theorem Sound.place {f : Fleet} {w : WitnessId} {s : WitnessService} (sound : f.Sound)
    (named : s.config.witness = w) (kept : ∀ k, remembered s k = lastStated f.stated w k) :
    Sound { f with services := f.place w s } where
  lawful := sound.lawful
  placed := by
    intro x s' found
    rcases place_cases found with ⟨rfl, rfl⟩ | ⟨_, other⟩
    · exact named
    · exact sound.placed x s' other
  memory := by
    intro x s' k found
    rcases place_cases found with ⟨rfl, rfl⟩ | ⟨_, other⟩
    · exact kept k
    · exact sound.memory x s' k other
  silent := by
    intro x k absent
    exact sound.silent x k (place_none absent).2

theorem lastStated_append (stated : List WitnessAttestation) (a : WitnessAttestation)
    (w : WitnessId) (k : SubjectKey) :
    lastStated (stated ++ [a]) w k =
      if subjectOf a = (w, k) then some (a.epoch, a.incarnation, a.fenceToken)
      else lastStated stated w k := by
  unfold lastStated
  rw [LastWriter.latest_append]
  by_cases same : subjectOf a = (w, k)
  · simp [touches, same]
  · simp [touches, same]

/-- A new statement of a witness that is consistent with its memory keeps the law. -/
theorem Sound.state {f : Fleet} {w : WitnessId} {s s' : WitnessService} {a : WitnessAttestation}
    {request : AttestRequest} (sound : f.Sound) (present : f.services w = some s)
    (ran : (WitnessService.attest request).exec s = (.ok a, s')) :
    Sound ⟨f.place w s', f.stated ++ [a]⟩ := by
  obtain ⟨consistent, speaker, config, subject, put, key, epoch, incarnation, token⟩ :=
    WitnessService.attest_ok ran
  have named : s.config.witness = w := sound.placed w s present
  have mine : a.witness = w := speaker.trans named
  refine ⟨?_, ?_, ?_, ?_⟩
  · refine LastWriter.lawful_append sound.lawful ?_
    intro k touched v last
    have at_k : k = (w, keyFor a.subjectDomain a.subjectScope) := by
      rw [← mine]
      exact (of_decide_eq_true touched).symm
    subst at_k
    have filed := sound.memory w s (keyFor a.subjectDomain a.subjectScope) present
    rw [lastStated, last, Option.map_some, remembered, Option.map_eq_some_iff] at filed
    obtain ⟨previous, found, same⟩ := filed
    simp only [Prod.mk.injEq] at same
    obtain ⟨notBelow, agree⟩ := consistent previous found
    refine ⟨same.1 ▸ notBelow, fun equal => ?_⟩
    obtain ⟨sameIncarnation, sameToken⟩ := agree (same.1.trans equal)
    rw [holder, holder, ← same.2.1, ← same.2.2, sameIncarnation, sameToken]
  · intro x t found
    rcases place_cases found with ⟨rfl, rfl⟩ | ⟨_, other⟩
    · rw [config]; exact named
    · exact sound.placed x t other
  · intro x t k found
    rw [lastStated_append]
    rcases place_cases found with ⟨rfl, rfl⟩ | ⟨differ, other⟩
    · rw [remembered, put, SortedTable.find_put, key]
      by_cases hit : keyFor a.subjectDomain a.subjectScope = k
      · simp [subjectOf, mine, hit, epoch, incarnation, token]
      · have kept := sound.memory x s k present
        have elsewhere : subjectOf a ≠ (x, k) := fun same => hit (congrArg Prod.snd same)
        rw [if_neg hit, if_neg elsewhere]
        exact kept
    · have elsewhere : subjectOf a ≠ (x, k) := by
        intro same
        exact differ ((congrArg Prod.fst same).symm.trans mine)
      rw [if_neg elsewhere]
      exact sound.memory x t k other
  · intro x k absent
    obtain ⟨differ, missing⟩ := place_none absent
    have elsewhere : subjectOf a ≠ (x, k) := by
      intro same
      exact differ ((congrArg Prod.fst same).symm.trans mine)
    rw [lastStated_append, if_neg elsewhere]
    exact sound.silent x k missing

theorem Sound.deploy {f : Fleet} (sound : f.Sound) (config : WitnessConfig) :
    (f.deploy config).Sound := by
  unfold Fleet.deploy
  split
  · exact sound
  · rename_i absent
    split
    · rename_i ran
      have fresh := WitnessService.configure_ok ran
      refine sound.place (by rw [fresh]) fun k => ?_
      rw [fresh]
      exact (sound.silent config.witness k absent).symm
    · exact sound

theorem Sound.start {f : Fleet} (sound : f.Sound) (w : WitnessId) : (f.start w).Sound := by
  unfold Fleet.start
  split
  · exact sound
  · rename_i s present
    exact sound.place (s := { s with clock := tryIncrement s.clock }) (sound.placed w s present)
      fun k => sound.memory w s k present

theorem Sound.attest {f : Fleet} (sound : f.Sound) (w : WitnessId) (request : AttestRequest) :
    (f.attest w request).Sound := by
  unfold Fleet.attest
  split
  · exact sound
  · rename_i s present
    split
    · rename_i ran
      exact sound.state present ran
    · rename_i ran
      obtain ⟨subjects, config⟩ := WitnessService.attest_error ran
      refine sound.place (config ▸ sound.placed w s present) fun k => ?_
      rw [remembered, subjects]
      exact sound.memory w s k present

theorem Sound.step {f : Fleet} (sound : f.Sound) (move : FleetMove) : (f.step move).Sound := by
  cases move with
  | deploy config => exact sound.deploy config
  | start w => exact sound.start w
  | attest w request => exact sound.attest w request

theorem sound_run (moves : List FleetMove) : (run moves).Sound := by
  have general : ∀ (moves : List FleetMove) (f : Fleet), f.Sound → (moves.foldl step f).Sound := by
    intro moves
    induction moves with
    | nil => exact fun _ sound => sound
    | cons move rest ih => exact fun f sound => ih _ (sound.step move)
  exact general moves {} sound_empty

/-- Two statements of one witness about one subject at one epoch name the same holder. -/
theorem Sound.same_holder {f : Fleet} (sound : f.Sound) {a b : WitnessAttestation}
    (statedA : a ∈ f.stated) (statedB : b ∈ f.stated) (subject : subjectOf a = subjectOf b)
    (epoch : a.epoch = b.epoch) : holder a = holder b :=
  LastWriter.owner_eq sound.lawful statedA statedB (decide_eq_true rfl)
    (decide_eq_true subject.symm) epoch

/-- A judged bundle: the statements were taken in some canonical order. -/
structure JudgedCurrent (request : EvidenceRequest) (profile : QuorumProfile)
    (bundle : EvidenceBundle) (floors : List WitnessFloor) (sorted : List WitnessAttestation) :
    Prop where
  canonical : Canonical bundle.attestations sorted
  current : (assessInOrder request profile bundle floors sorted).state = .current

section Quorum

variable {request : EvidenceRequest} {profile : QuorumProfile} {bundle : EvidenceBundle}
  {floors : List WitnessFloor} {sorted : List WitnessAttestation}

/-- Every witness counted in favour is in the profile and made a matching statement. -/
theorem supporter_speaks {w : WitnessId}
    (counted : w ∈ (tallyOf request profile floors sorted).supporters) :
    w ∈ profile.distinctWitnesses ∧ ∃ a ∈ sorted, a.witness = w ∧ Speaks request a := by
  rw [Tally.supporters, List.mem_toFinset, List.mem_map] at counted
  obtain ⟨entry, inside, rfl⟩ := counted
  obtain ⟨known, spoken⟩ := tallyOf_backed entry (List.mem_of_mem_filter inside)
  exact ⟨mem_distinctWitnesses known, spoken⟩

theorem JudgedCurrent.quorum (judged : JudgedCurrent request profile bundle floors sorted) :
    profile.requiredWitnesses.toNat ≤ (tallyOf request profile floors sorted).supporters.card := by
  have enough := assess_current judged.current
  rw [UInt32.le_iff_toNat_le, Tally.supporting, UInt32.toNat_ofNat', ← Tally.card_supporters]
    at enough
  exact enough.trans (Nat.mod_le _ _)

end Quorum

/-- Majority and unanimity are taken of the slots, of which there are at least as many as
distinct witnesses. -/
theorem majority_intersects {profile : QuorumProfile} (valid : profile.validate = .ok ())
    (mode : profile.mode = .majorityDistinctWitnesses ∨ profile.mode = .unanimousWitnesses) :
    profile.distinctWitnesses.card < 2 * profile.requiredWitnesses.toNat := by
  obtain ⟨positive, small⟩ := QuorumProfile.validate_size valid
  have distinct : profile.distinctWitnesses.card ≤ profile.witnesses.length := by
    refine (List.toFinset_card_le _).trans ?_
    rw [List.length_map]
  have count : (UInt32.ofNat profile.witnesses.length).toNat = profile.witnesses.length := by
    rw [UInt32.toNat_ofNat', Nat.mod_eq_of_lt (by omega)]
  rcases mode with mode | mode
  · have some : UInt32.ofNat profile.witnesses.length ≠ 0 := by
      intro zero
      rw [zero] at count
      exact absurd count.symm positive.ne'
    have half : (UInt32.ofNat profile.witnesses.length / 2 + 1).toNat =
        profile.witnesses.length / 2 + 1 := by
      rw [UInt32.toNat_add, UInt32.toNat_div, count]
      simp only [UInt32.reduceToNat]
      omega
    simp only [QuorumProfile.requiredWitnesses, mode, if_neg some, half]
    omega
  · simp only [QuorumProfile.requiredWitnesses, mode, count]
    omega

/-- Quorums of one profile that intersect agree on the holder of an epoch. -/
theorem quorum_agreement (moves : List FleetMove) (profile : QuorumProfile)
    (valid : profile.validate = .ok ()) :
    (profile.mode = .majorityDistinctWitnesses ∨ profile.mode = .unanimousWitnesses →
      profile.distinctWitnesses.card < 2 * profile.requiredWitnesses.toNat) ∧
    (profile.distinctWitnesses.card < 2 * profile.requiredWitnesses.toNat →
      ∀ request request' bundle bundle' floors floors' sorted sorted',
        (∀ a ∈ bundle.attestations, a ∈ (run moves).stated) →
        (∀ a ∈ bundle'.attestations, a ∈ (run moves).stated) →
        JudgedCurrent request profile bundle floors sorted →
        JudgedCurrent request' profile bundle' floors' sorted' →
        request.domain = request'.domain → request.scope = request'.scope →
        request.epoch = request'.epoch →
        request.incarnation = request'.incarnation ∧ request.fenceToken = request'.fenceToken) := by
  refine ⟨majority_intersects valid, ?_⟩
  intro intersects request request' bundle bundle' floors floors' sorted sorted' issued issued'
    judged judged' domain scope epoch
  have first := judged.quorum
  have second := judged'.quorum
  obtain ⟨w, shared⟩ := Finset.inter_nonempty_of_card_lt_card_add_card
    (fun _ counted => (supporter_speaks counted).1) (fun _ counted => (supporter_speaks counted).1)
    (show profile.distinctWitnesses.card <
      (tallyOf request profile floors sorted).supporters.card +
        (tallyOf request' profile floors' sorted').supporters.card by omega)
  obtain ⟨counted, counted'⟩ := Finset.mem_inter.mp shared
  obtain ⟨_, a, inside, speaker, speaks⟩ := supporter_speaks counted
  obtain ⟨_, b, inside', speaker', speaks'⟩ := supporter_speaks counted'
  have statedA := issued a (judged.canonical.perm.mem_iff.mp inside)
  have statedB := issued' b (judged'.canonical.perm.mem_iff.mp inside')
  have subject : subjectOf a = subjectOf b := by
    rw [subjectOf, subjectOf, speaker, speaker', speaks.domain, speaks.scope, speaks'.domain,
      speaks'.scope, domain, scope]
  have same := (sound_run moves).same_holder statedA statedB subject
    (by rw [speaks.epoch, speaks'.epoch, epoch])
  rw [holder, holder, speaks.incarnation, speaks.token, speaks'.incarnation, speaks'.token,
    Prod.mk.injEq] at same
  exact same

/-- Three witnesses of a majority profile, asked in turn about one holder. -/
def sampleProfile : QuorumProfile where
  policy := Id.make [112]
  witnesses := [⟨Id.make [97], Id.make [102]⟩, ⟨Id.make [98], Id.make [102]⟩,
    ⟨Id.make [99], Id.make [103]⟩]

theorem subjectExtent_named : (Id.make [120] : ExtentId).isEmpty = false := by decide

def sampleRequest : AttestRequest where
  subjectDomain := Id.make [100]
  subjectScope := Scope.single (Id.make [120]) subjectExtent_named
  epoch := 1
  incarnation := 7
  fenceToken := 3
  policyGeneration := 1
  requesterStep := 5

def sampleMoves : List FleetMove :=
  (sampleProfile.witnesses.map fun slot =>
    .deploy { witness := slot.witness, faultDomain := slot.faultDomain }) ++
  sampleProfile.witnesses.map fun slot => .attest slot.witness sampleRequest

def sampleEvidence : EvidenceRequest :=
  ⟨Id.make [100], sampleRequest.subjectScope.digest, 1, 7, 3, 6⟩

/-- Two bundles that share only the second witness. -/
theorem quorum_agreement_three :
    sampleProfile.validate = .ok () ∧
    (∃ sorted, JudgedCurrent sampleEvidence sampleProfile
      { policy := Id.make [112], attestations := (run sampleMoves).stated.take 2 } [] sorted) ∧
    (∃ sorted, JudgedCurrent sampleEvidence sampleProfile
      { policy := Id.make [112], attestations := (run sampleMoves).stated.drop 1 } [] sorted) ∧
    ∀ request' floors' sorted', JudgedCurrent request' sampleProfile
        { policy := Id.make [112], attestations := (run sampleMoves).stated.drop 1 }
        floors' sorted' →
      request'.domain = sampleEvidence.domain → request'.scope = sampleEvidence.scope →
      request'.epoch = sampleEvidence.epoch →
      request'.incarnation = 7 ∧ request'.fenceToken = 3 := by
  have valid : sampleProfile.validate = .ok () := by decide +kernel
  have first : JudgedCurrent sampleEvidence sampleProfile
      { policy := Id.make [112], attestations := (run sampleMoves).stated.take 2 } [] _ :=
    ⟨Sorting.canonical_canonical {} _, by decide +kernel⟩
  have second : JudgedCurrent sampleEvidence sampleProfile
      { policy := Id.make [112], attestations := (run sampleMoves).stated.drop 1 } [] _ :=
    ⟨Sorting.canonical_canonical {} _, by decide +kernel⟩
  refine ⟨valid, ⟨_, first⟩, ⟨_, second⟩, ?_⟩
  intro request' floors' sorted' judged domain scope epoch
  have agreement := quorum_agreement sampleMoves sampleProfile valid
  exact agreement.2 (agreement.1 (.inl rfl)) request' sampleEvidence _ _ floors' [] sorted' _
    (fun _ member => List.mem_of_mem_drop member) (fun _ member => List.mem_of_mem_take member)
    judged first domain scope epoch

end Fleet
end SplitBrainFabric
