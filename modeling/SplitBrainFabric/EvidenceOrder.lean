import SplitBrainFabric.Repetition
import SplitBrainFabric.Sentence

/-! When the order in which statements arrive shows in an assessment: exactly when it makes a
difference which of several tied statements counts. -/

namespace SplitBrainFabric
open Words

section Blind

variable (request : EvidenceRequest) (profile : QuorumProfile) (bundle : EvidenceBundle)
  (floors : List WitnessFloor)

/-- The witnesses with a statement in favour that may count. -/
def backers : Finset WitnessId :=
  ((bundle.attestations.filter fun a => decide (Heads bundle.attestations a) &&
    !a.witness.isEmpty && backs request profile floors a).map (·.witness)).toFinset

/-- Enough witnesses, in too few fault domains. -/
def isNarrow : Bool :=
  decide (profile.requiredWitnesses.toNat ≤ (backers request profile bundle floors).card ∧
    ((backers request profile bundle floors).image profile.faultDomainOf).card <
      profile.minFaultDomains.toNat)

def gradeOf (a : WitnessAttestation) : Nat :=
  (appraised request profile floors a).grade (isNarrow request profile bundle floors)

/-- Tied statements differ in nothing that shows. They are on the same side; the later
expiry of one is lost on another witness or on the lease, whatever is chosen; and so is the
lesser weight of one, unless the lease or a refusal decides anyway. -/
structure OrderBlind : Prop where
  sides : ∀ a b, Tied bundle.attestations a b →
    backs request profile floors a = backs request profile floors b ∧
      barred request profile floors a = barred request profile floors b
  expiry : ∀ a b, Tied bundle.attestations a b →
    expiryOf request profile bundle floors b < expiryOf request profile bundle floors a →
    evidenceLimit request profile bundle ≤ expiryOf request profile bundle floors b ∨
      Assured bundle.attestations fun d =>
        expiryOf request profile bundle floors d ≤ expiryOf request profile bundle floors b
  verdict : ¬ Objected request profile bundle →
    (∀ a, Heads bundle.attestations a → a.witness.isEmpty = false →
      refuses request profile floors a = false) →
    ∀ a b, Tied bundle.attestations a b →
    gradeOf request profile bundle floors a < gradeOf request profile bundle floors b →
    0 < unnamedCount bundle.attestations ∨ Assured bundle.attestations fun d =>
      gradeOf request profile bundle floors b ≤ gradeOf request profile bundle floors d

end Blind

section Rulings

variable {request : EvidenceRequest} {profile : QuorumProfile} {bundle : EvidenceBundle}
  {floors : List WitnessFloor} {counting counting' : List WitnessAttestation}

variable (request profile bundle floors) in
/-- Tied statements are on the same side. -/
def SidesAgree : Prop :=
  ∀ a b, Tied bundle.attestations a b →
    backs request profile floors a = backs request profile floors b ∧
      barred request profile floors a = barred request profile floors b

section Agreeing

variable (agree : SidesAgree request profile bundle floors)
  (selected : Selected bundle.attestations counting)
  (selected' : Selected bundle.attestations counting')

include agree in
theorem backs_agree : ∀ w ∈ speakers bundle.attestations, ∀ a b,
    Voices bundle.attestations w a → Voices bundle.attestations w b →
      backs request profile floors a = backs request profile floors b :=
  tied_iff.mpr fun a b tied => (agree a b tied).1

include agree in
theorem refuses_agree : ∀ w ∈ speakers bundle.attestations, ∀ a b,
    Voices bundle.attestations w a → Voices bundle.attestations w b →
      refuses request profile floors a = refuses request profile floors b := by
  refine tied_iff.mpr fun a b tied => ?_
  obtain ⟨favours, out⟩ := agree a b tied
  unfold backs at favours
  unfold barred at out
  unfold refuses
  cases h : (appraised request profile floors a).isHeard <;>
    cases h' : (appraised request profile floors b).isHeard <;> simp_all

variable (request profile floors) in
theorem belowFloor_agree : ∀ w ∈ speakers bundle.attestations, ∀ a b,
    Voices bundle.attestations w a → Voices bundle.attestations w b →
      (appraised request profile floors a).isBelowFloor =
        (appraised request profile floors b).isBelowFloor := by
  refine tied_iff.mpr fun a b tied => ?_
  have key := tied.left.sortKey_eq tied.right tied.same
  rw [appraised_isBelowFloor, appraised_isBelowFloor, sortKey_witness key, sortKey_sequence key]

include agree in
theorem barred_agree : ∀ w ∈ speakers bundle.attestations, ∀ a b,
    Voices bundle.attestations w a → Voices bundle.attestations w b →
      barred request profile floors a = barred request profile floors b :=
  tied_iff.mpr fun a b tied => (agree a b tied).2

theorem generation_agree : ∀ w ∈ speakers bundle.attestations, ∀ a b,
    Voices bundle.attestations w a → Voices bundle.attestations w b →
      a.witnessGeneration = b.witnessGeneration :=
  tied_iff.mpr fun _ _ tied => sortKey_generation (tied.left.sortKey_eq tied.right tied.same)

include selected in
theorem tallyFor_supporting :
    (tallyFor request profile bundle floors counting).supporting =
      UInt32.ofNat (counting.countP (backs request profile floors)) := by
  have distinct : (counting.map (·.witness)).Nodup := by
    rw [selected.witnesses]
    exact considered_nodup _
  exact tallied_supporting distinct

include agree selected selected' in
theorem supporting_agree :
    (tallyFor request profile bundle floors counting).supporting =
      (tallyFor request profile bundle floors counting').supporting := by
  rw [tallyFor_supporting selected, tallyFor_supporting selected',
    (Choice.countP_constant_iff selected).mpr (backs_agree agree) _ _ selected selected']

include agree selected selected' in
/-- Everything counted but the window is the same. -/
theorem counted_agree (expiry : Step) :
    { countedFrom profile (tallyFor request profile bundle floors counting) with
        earliestValidUntil := expiry } =
      { countedFrom profile (tallyFor request profile bundle floors counting') with
        earliestValidUntil := expiry } := by
  have supporting := supporting_agree agree selected selected'
  have below := (Choice.countP_constant_iff selected).mpr
    (belowFloor_agree request profile floors) _ _ selected selected'
  have out := (Choice.countP_constant_iff selected).mpr (barred_agree agree) _ _ selected selected'
  have replayed : (tallyFor request profile bundle floors counting).replayed =
      (tallyFor request profile bundle floors counting').replayed := by
    simp only [tallyFor, tallied, below]
  have rejected : (tallyFor request profile bundle floors counting).rejected =
      (tallyFor request profile bundle floors counting').rejected := by
    simp only [tallyFor, tallied, out]
  have domains : (tallyFor request profile bundle floors counting).supportingDomains =
      (tallyFor request profile bundle floors counting').supportingDomains :=
    congrArg SortedTable.ofList (Choice.map_filter_constant selected selected' (backs_agree agree)
      (tied_iff.mpr fun a b tied => congrArg profile.faultDomainOf tied.same))
  have generations : ∀ (f : Generation → Generation → Generation) (start : Generation),
      (counting.filter (backs request profile floors)).foldl
          (fun x a => f x a.witnessGeneration) start =
        (counting'.filter (backs request profile floors)).foldl
          (fun x a => f x a.witnessGeneration) start := by
    intro f start
    have read : ∀ l : List WitnessAttestation, l.foldl (fun x a => f x a.witnessGeneration) start =
        (l.map (·.witnessGeneration)).foldl f start := fun l => List.foldl_map.symm
    rw [read, read, Choice.map_filter_constant selected selected' (backs_agree agree)
      generation_agree]
  have low : (tallyFor request profile bundle floors counting).floorGeneration =
      (tallyFor request profile bundle floors counting').floorGeneration :=
    generations (fun low g => if g < low then g else low) maxWord
  have high : (tallyFor request profile bundle floors counting).ceilingGeneration =
      (tallyFor request profile bundle floors counting').ceilingGeneration :=
    generations (fun high g => if high < g then g else high) 0
  simp only [countedFrom, supporting, replayed, rejected, domains, low, high]
  rfl

include agree selected selected' in
theorem conflict_agree : (tallyFor request profile bundle floors counting).anyConflict =
    (tallyFor request profile bundle floors counting').anyConflict :=
  Choice.any_constant selected selected' (refuses_agree agree)

include agree selected in
theorem backers_eq : backers request profile bundle floors =
    ((counting.filter (backs request profile floors)).map (·.witness)).toFinset := by
  ext w
  simp only [backers, List.mem_toFinset, List.mem_map, List.mem_filter, Bool.and_eq_true,
    decide_eq_true_eq, Bool.not_eq_true']
  constructor
  · rintro ⟨a, ⟨member, ⟨heads, named⟩, favours⟩, rfl⟩
    have speaks : a.witness ∈ speakers bundle.attestations := mem_speakers.mpr ⟨named, a, member, rfl⟩
    obtain ⟨b, inside, voices⟩ := selected.of_class speaks
    exact ⟨b, ⟨inside, backs_agree agree _ speaks a b ⟨heads, rfl⟩ voices ▸ favours⟩, voices.2⟩
  · rintro ⟨a, ⟨member, favours⟩, rfl⟩
    obtain ⟨w, speaks, heads, rfl⟩ := selected.class_of member
    exact ⟨a, ⟨heads.mem, ⟨heads, (mem_speakers.mp speaks).1⟩, favours⟩, rfl⟩

include agree selected in
/-- Narrowness as the verdict finds it. -/
theorem isNarrow_iff (bounded : bundle.attestations.length ≤ Limits.maxAttestationsPerBundle) :
    isNarrow request profile bundle floors = true ↔
      ¬ (tallyFor request profile bundle floors counting).supporting < profile.requiredWitnesses ∧
        UInt32.ofNat (tallyFor request profile bundle floors counting).supportingDomains.size <
          profile.minFaultDomains := by
  have distinct : (counting.map (·.witness)).Nodup := by
    rw [selected.witnesses]
    exact considered_nodup _
  have card : (backers request profile bundle floors).card =
      counting.countP (backs request profile floors) := by
    rw [backers_eq agree selected, List.toFinset_card_of_nodup (distinct.sublist
      (List.filter_sublist.map _)), List.length_map, List.countP_eq_length_filter]
  have domains : ((backers request profile bundle floors).image profile.faultDomainOf).card =
      (tallyFor request profile bundle floors counting).supportingDomains.size := by
    rw [tallyFor, tallied_domains, backers_eq agree selected]
    congr 1
    ext d
    simp
  have few : (backers request profile bundle floors).card ≤ 64 := by
    rw [card]
    refine List.countP_le_length.trans (selected.length_eq.le.trans ?_)
    rw [speakers, List.length_map]
    exact (considered_short _).trans ((canonicalOrder_perm _).length_eq.le.trans bounded)
  have spread := le_ofNat_iff (n := profile.minFaultDomains)
    (Finset.card_image_le (f := profile.faultDomainOf).trans few)
  rw [isNarrow, decide_eq_true_eq, tallyFor_supporting selected, ← card, ← domains,
    UInt32.not_lt, le_ofNat_iff few, ← UInt32.not_le, spread, not_le]

include agree selected in
/-- A verdict that no lease decides. -/
theorem verdictOn_sentence (bounded : bundle.attestations.length ≤ Limits.maxAttestationsPerBundle)
    (free : ¬ Objected request profile bundle) :
    verdictOn request profile bundle (tallyFor request profile bundle floors counting) =
      sentence (tallyFor request profile bundle floors counting).anyConflict
        ((tallyFor request profile bundle floors counting).rank
          (isNarrow request profile bundle floors))
        (isNarrow request profile bundle floors)
        (counting.any (barred request profile floors))
        (tallyFor request profile bundle floors counting).supporting
        (presented bundle profile (tallyFor request profile bundle floors counting)
          (verdictOn request profile bundle
            (tallyFor request profile bundle floors counting)).earliestValidUntil) := by
  have closed := (verdictOn_free free (tallyFor request profile bundle floors counting)).trans
    (conclude_eq (isNarrow_iff agree selected bounded))
  refine closed.trans (sentence_unknown fun low wide => ?_)
  rw [wide] at low
  exact unknown_tallied low

include agree selected selected' in
/-- With the sides agreed, the window and the weight are all that is left to differ. -/
theorem ruling_eq (bounded : bundle.attestations.length ≤ Limits.maxAttestationsPerBundle)
    (window : (verdictOn request profile bundle
        (tallyFor request profile bundle floors counting)).earliestValidUntil =
      (verdictOn request profile bundle
        (tallyFor request profile bundle floors counting')).earliestValidUntil)
    (weight : ¬ Objected request profile bundle →
      (tallyFor request profile bundle floors counting).anyConflict = false →
      (tallyFor request profile bundle floors counting).rank
          (isNarrow request profile bundle floors) =
        (tallyFor request profile bundle floors counting').rank
          (isNarrow request profile bundle floors)) :
    verdictOn request profile bundle (tallyFor request profile bundle floors counting) =
      verdictOn request profile bundle (tallyFor request profile bundle floors counting') := by
  have counted := counted_agree agree selected selected'
  by_cases objected : Objected request profile bundle
  · obtain ⟨state, outcome, reason, ruled⟩ := verdictOn_objected objected
    rw [ruled, ruled] at window
    have expiry : (tallyFor request profile bundle floors counting).earliestExpiry =
        (tallyFor request profile bundle floors counting').earliestExpiry := window
    have same := counted (tallyFor request profile bundle floors counting).earliestExpiry
    rw [ruled, ruled]
    refine congrArg (fun out => EvidenceAssessment.judged out state outcome reason) ?_
    exact same.trans (by rw [expiry]; rfl)
  · have shown : ∀ expiry,
        presented bundle profile (tallyFor request profile bundle floors counting) expiry =
          presented bundle profile (tallyFor request profile bundle floors counting') expiry :=
      fun expiry => congrArg (fun out => { out with
        leaseValidUntil := if bundle.hasLease then bundle.lease.validUntil else 0
        leasePresent := bundle.hasLease }) (counted expiry)
    refine (verdictOn_sentence agree selected bounded objected).trans
      (Eq.trans ?_ (verdictOn_sentence agree selected' bounded objected).symm)
    have left_out := Choice.any_constant selected selected' (barred_agree agree)
    rw [window, shown, left_out, supporting_agree agree selected selected',
      ← conflict_agree agree selected selected']
    cases conflict : (tallyFor request profile bundle floors counting).anyConflict with
    | true => rfl
    | false => rw [weight objected conflict]

end Agreeing

section Constant

variable (request profile bundle floors) in
/-- The assessment is the same whichever of the tied statements count. -/
def Unmoved : Prop :=
  ∀ counting counting', Selected bundle.attestations counting →
    Selected bundle.attestations counting' →
      verdictOn request profile bundle (tallyFor request profile bundle floors counting) =
        verdictOn request profile bundle (tallyFor request profile bundle floors counting')

variable (bounded : bundle.attestations.length ≤ Limits.maxAttestationsPerBundle)

theorem counted_of_unmoved (unmoved : Unmoved request profile bundle floors)
    (selected : Selected bundle.attestations counting)
    (selected' : Selected bundle.attestations counting') :
    (tallyFor request profile bundle floors counting).supporting =
        (tallyFor request profile bundle floors counting').supporting ∧
      (tallyFor request profile bundle floors counting).rejected =
        (tallyFor request profile bundle floors counting').rejected := by
  have same := unmoved _ _ selected selected'
  have supporting := fun t => verdictOn_counts request profile bundle t
    EvidenceAssessment.distinctSupportingWitnesses fun _ _ _ _ _ _ _ _ => rfl
  have rejected := fun t => verdictOn_counts request profile bundle t
    EvidenceAssessment.rejectedAttestations fun _ _ _ _ _ _ _ _ => rfl
  exact ⟨(supporting _).symm.trans ((congrArg _ same).trans (supporting _)),
    (rejected _).symm.trans ((congrArg _ same).trans (rejected _))⟩

include bounded in
theorem sides_of_unmoved (unmoved : Unmoved request profile bundle floors) :
    SidesAgree request profile bundle floors := by
  have sample := selected_canonical (List.Perm.refl bundle.attestations)
  have few : ∀ (p : WitnessAttestation → Bool) {counting : List WitnessAttestation},
      Selected bundle.attestations counting → counting.countP p ≤ 64 :=
    fun p _ selected => List.countP_le_length.trans (selected.length_le.trans bounded)
  have unnamed : unnamedCount bundle.attestations ≤ 64 := List.countP_le_length.trans bounded
  have favours : ∀ counting counting', Selected bundle.attestations counting →
      Selected bundle.attestations counting' →
      counting.countP (backs request profile floors) =
        counting'.countP (backs request profile floors) := by
    intro counting counting' selected selected'
    have words := congrArg UInt32.toNat (counted_of_unmoved unmoved selected selected').1
    have short := few (backs request profile floors) selected
    have short' := few (backs request profile floors) selected'
    rw [tallyFor_supporting selected, tallyFor_supporting selected', UInt32.toNat_ofNat',
      UInt32.toNat_ofNat', Nat.mod_eq_of_lt (by omega), Nat.mod_eq_of_lt (by omega)] at words
    exact words
  have left_out : ∀ counting counting', Selected bundle.attestations counting →
      Selected bundle.attestations counting' →
      counting.countP (barred request profile floors) =
        counting'.countP (barred request profile floors) := by
    intro counting counting' selected selected'
    have words := congrArg UInt64.toNat (counted_of_unmoved unmoved selected selected').2
    have short := few (barred request profile floors) selected
    have short' := few (barred request profile floors) selected'
    simp only [tallyFor, tallied, UInt64.toNat_ofNat'] at words
    rw [Nat.mod_eq_of_lt (by omega), Nat.mod_eq_of_lt (by omega)] at words
    omega
  have agree := tied_iff.mp ((Choice.countP_constant_iff sample).mp favours)
  have agree' := tied_iff.mp ((Choice.countP_constant_iff sample).mp left_out)
  exact fun a b tied => ⟨agree a b tied, agree' a b tied⟩

theorem window_iff :
    (∀ counting counting', Selected bundle.attestations counting →
      Selected bundle.attestations counting' →
      (verdictOn request profile bundle
          (tallyFor request profile bundle floors counting)).earliestValidUntil =
        (verdictOn request profile bundle
          (tallyFor request profile bundle floors counting')).earliestValidUntil) ↔
    ∀ a b, Tied bundle.attestations a b →
      expiryOf request profile bundle floors b < expiryOf request profile bundle floors a →
      evidenceLimit request profile bundle ≤ expiryOf request profile bundle floors b ∨
        Assured bundle.attestations fun d =>
          expiryOf request profile bundle floors d ≤ expiryOf request profile bundle floors b := by
  have peaks := (Choice.peak_constant_iff
    (OrderDual.toDual (evidenceLimit request profile bundle))
    (fun a => OrderDual.toDual (expiryOf request profile bundle floors a))
    (Voices bundle.attestations) (speakers bundle.attestations)).trans tied_iff
  refine Iff.trans ?_ (peaks.trans ?_)
  · refine forall₄_congr fun counting counting' _ _ => ?_
    rw [← expiry_peak, ← expiry_peak, OrderDual.toDual_inj]
  · refine forall₄_congr fun a b _ _ => ?_
    rw [Choice.Certain, assured_iff]
    rfl

/-- A verdict that neither the lease nor a refusal decides gives the worst weight away. -/
theorem rank_of_reason (agree : SidesAgree request profile bundle floors)
    (selected : Selected bundle.attestations counting)
    (bounded : bundle.attestations.length ≤ Limits.maxAttestationsPerBundle)
    (free : ¬ Objected request profile bundle)
    (calm : (tallyFor request profile bundle floors counting).anyConflict = false) :
    (tallyFor request profile bundle floors counting).rank
        (isNarrow request profile bundle floors) =
      rankOfReason (verdictOn request profile bundle
        (tallyFor request profile bundle floors counting)).reason := by
  rw [verdictOn_sentence agree selected bounded free, calm]
  refine (rankOfReason_sentence fun narrow => ⟨?_, ?_⟩).symm
  · rw [narrow, Tally.rank, flagRank]
    split
    · decide
    split
    · decide
    · simp
  · exact ((isNarrow_iff agree selected bounded).mp narrow).1

theorem calm_iff (agree : SidesAgree request profile bundle floors)
    (selected : Selected bundle.attestations counting) :
    (tallyFor request profile bundle floors counting).anyConflict = false ↔
      ∀ a, Heads bundle.attestations a → a.witness.isEmpty = false →
        refuses request profile floors a = false := by
  simp only [tallyFor, tallied, List.any_eq_false, Bool.not_eq_true]
  constructor
  · intro calm a heads named
    have speaks : a.witness ∈ speakers bundle.attestations :=
      mem_speakers.mpr ⟨named, a, heads.mem, rfl⟩
    obtain ⟨b, member, voices⟩ := selected.of_class speaks
    rw [refuses_agree agree _ speaks a b ⟨heads, rfl⟩ voices]
    exact calm b member
  · intro calm a member
    obtain ⟨w, speaks, heads, rfl⟩ := selected.class_of member
    exact calm a heads (mem_speakers.mp speaks).1

theorem weight_iff :
    (∀ counting counting', Selected bundle.attestations counting →
      Selected bundle.attestations counting' →
      (tallyFor request profile bundle floors counting).rank
          (isNarrow request profile bundle floors) =
        (tallyFor request profile bundle floors counting').rank
          (isNarrow request profile bundle floors)) ↔
    ∀ a b, Tied bundle.attestations a b →
      gradeOf request profile bundle floors a < gradeOf request profile bundle floors b →
      0 < unnamedCount bundle.attestations ∨ Assured bundle.attestations fun d =>
        gradeOf request profile bundle floors b ≤ gradeOf request profile bundle floors d := by
  have peaks := (Choice.peak_constant_iff
    (if 0 < unnamedCount bundle.attestations then 3 else 0) (gradeOf request profile bundle floors)
    (Voices bundle.attestations) (speakers bundle.attestations)).trans tied_iff
  refine Iff.trans ?_ (peaks.trans ?_)
  · refine forall₄_congr fun counting counting' _ _ => ?_
    rw [tallyFor, tallyFor, rank_tallied, rank_tallied]
    rfl
  · refine forall₄_congr fun a b _ less => ?_
    rw [Choice.Certain, assured_iff]
    refine or_congr_left ?_
    have top : gradeOf request profile bundle floors b ≤ 3 := Filing.grade_le _ _
    by_cases unnamed : 0 < unnamedCount bundle.attestations
    · simp only [unnamed, if_true, top]
    · simp only [unnamed, if_false, iff_false]
      omega

include bounded in
/-- When the ties do not show. -/
theorem unmoved_iff : Unmoved request profile bundle floors ↔
    OrderBlind request profile bundle floors := by
  constructor
  · intro unmoved
    have agree := sides_of_unmoved bounded unmoved
    refine ⟨agree, window_iff.mp fun _ _ selected selected' => ?_, fun free calm =>
      weight_iff.mp fun _ _ selected selected' => ?_⟩
    · rw [unmoved _ _ selected selected']
    · rw [rank_of_reason agree selected bounded free ((calm_iff agree selected).mpr calm),
        rank_of_reason agree selected' bounded free ((calm_iff agree selected').mpr calm),
        unmoved _ _ selected selected']
  · intro blind counting counting' selected selected'
    refine ruling_eq blind.sides selected selected' bounded ?_ fun free calm => ?_
    · exact window_iff.mpr blind.expiry _ _ selected selected'
    · have quiet := (calm_iff blind.sides selected).mp calm
      exact weight_iff.mpr (blind.verdict free quiet) _ _ selected selected'

end Constant

/-- The order of arrival, and whatever `std::sort` does with equal keys, is invisible
exactly when no tie shows. -/
theorem order_invisible_iff (sorting : Sorting) (request : EvidenceRequest)
    (profile : QuorumProfile) (bundle : EvidenceBundle) (floors : List WitnessFloor) :
    ((∀ arrival : List WitnessAttestation, arrival.Perm bundle.attestations →
        assessEvidence sorting request profile { bundle with attestations := arrival } floors =
          assessEvidence sorting request profile bundle floors) ↔
      (Weighed profile bundle → OrderBlind request profile bundle floors)) ∧
    ((∀ arrival sorted : List WitnessAttestation, arrival.Perm bundle.attestations →
        Canonical arrival sorted →
        assessInOrder request profile { bundle with attestations := arrival } floors sorted =
          assessEvidence sorting request profile bundle floors) ↔
      (Weighed profile bundle → OrderBlind request profile bundle floors)) := by
  have direct : (Weighed profile bundle → OrderBlind request profile bundle floors) →
      ∀ arrival sorted : List WitnessAttestation, arrival.Perm bundle.attestations →
        Canonical arrival sorted →
        assessInOrder request profile { bundle with attestations := arrival } floors sorted =
          assessEvidence sorting request profile bundle floors := by
    intro blind arrival sorted perm canonical
    by_cases weighed : Weighed profile bundle
    · have unmoved := (unmoved_iff weighed.bounded).mpr (blind weighed)
      rw [assess_selected weighed perm canonical, assessEvidence,
        assess_selected weighed (List.Perm.refl _) (sorting.canonical_canonical _)]
      exact unmoved _ _ (selected_of_sorted (canonical.perm.trans perm) canonical.keys)
        (selected_of_sorted (sorting.canonical_perm _) (sorting.canonical_sorted _))
    · have early : assessEvidence sorting request profile bundle floors =
          assessInOrder request profile bundle floors [] := assess_unweighed weighed rfl
      rw [assess_unweighed weighed perm.length_eq, early]
  have back : (∀ arrival : List WitnessAttestation, arrival.Perm bundle.attestations →
        assessEvidence sorting request profile { bundle with attestations := arrival } floors =
          assessEvidence sorting request profile bundle floors) →
      Weighed profile bundle → OrderBlind request profile bundle floors := by
    intro same weighed
    have ruled : ∀ counting, Selected bundle.attestations counting →
        verdictOn request profile bundle (tallyFor request profile bundle floors counting) =
          assessEvidence sorting request profile bundle floors := by
      intro counting selected
      obtain ⟨arrival, perm, rfl⟩ := selected_arrives sorting selected
      rw [← same arrival perm, assessEvidence,
        assess_selected weighed perm (sorting.canonical_canonical arrival)]
    refine (unmoved_iff weighed.bounded).mp fun counting counting' selected selected' => ?_
    rw [ruled counting selected, ruled counting' selected']
  refine ⟨⟨back, fun blind arrival perm => ?_⟩, ⟨fun same => back fun arrival perm => ?_, direct⟩⟩
  · exact direct blind arrival _ perm (sorting.canonical_canonical arrival)
  · exact same arrival _ perm (sorting.canonical_canonical arrival)

/-- Whichever of the two arrives first decides. -/
theorem torn_bundle :
    (panelProfile [119]).validate = .ok () ∧
    [{ panelStatement 119 1 with support := false }, panelStatement 119 1].Perm
      tornBundle.attestations ∧
    (assessEvidence {} panelRequest (panelProfile [119]) tornBundle []).state = .current ∧
    (assessEvidence {} panelRequest (panelProfile [119]) { tornBundle with
      attestations := [{ panelStatement 119 1 with support := false }, panelStatement 119 1] }
        []).state = .conflict := by
  refine ⟨by decide, List.Perm.swap _ _ _, by decide +kernel, by decide +kernel⟩

end Rulings

end SplitBrainFabric
