import SplitBrainFabric.Ties

/-! The verdict over one choice of statements, as a function of a few facts about the tally:
the weight of the worst statement, the supporters, and the earliest expiry. -/

namespace SplitBrainFabric
open Words

/-- How much a statement weighs on a verdict without conflict. When the quorum is there but
not spread over enough fault domains, stale statements are not looked at. -/
def Filing.grade (narrow : Bool) : Filing → Nat
  | .invalid => 3
  | .mismatched => 2
  | .stale | .belowFloor => if narrow then 0 else 1
  | .superseded | .unknown | .heard _ => 0

theorem Filing.grade_le (narrow : Bool) (filing : Filing) : filing.grade narrow ≤ 3 := by
  cases filing <;> cases narrow <;> simp [Filing.grade]

section Lease

variable (request : EvidenceRequest) (profile : QuorumProfile) (bundle : EvidenceBundle)
  (floors : List WitnessFloor)

/-- The lease decides the verdict by itself. -/
def Objected : Prop :=
  bundle.hasLease = true ∧ (leaseObjection bundle.lease request profile).isSome = true

instance : Decidable (Objected request profile bundle) :=
  inferInstanceAs (Decidable (_ ∧ _))

/-- The step no evidence reaches beyond, whoever vouches for it. -/
def evidenceLimit : Step :=
  if bundle.hasLease = true ∧ ¬ Objected request profile bundle then bundle.lease.validUntil
  else maxWord

/-- The step a statement limits the evidence to. -/
def expiryOf (a : WitnessAttestation) : Step :=
  if backs request profile floors a then a.validUntil else evidenceLimit request profile bundle

end Lease

section Verdicts

/-- The verdict, by the weight of the worst statement. -/
def sentence (conflict : Bool) (rank : Nat) (narrow unknown : Bool) (supporting : UInt32)
    (out : EvidenceAssessment) : EvidenceAssessment :=
  if conflict then
    out.judged .conflict .conflict .conflictingAttestations
      out.distinctSupportingWitnesses.toUInt64
  else if rank = 3 then out.judged .invalid .invalid .witnessScopeMismatch out.rejectedAttestations
  else if rank = 2 then out.judged .stale .stale .witnessGenerationMismatch
  else if supporting < out.requiredWitnesses then
    if rank = 1 then out.judged .stale .stale .staleAttestation supporting.toUInt64
    else out.judged .unknown .unknown .insufficientDistinctWitnesses supporting.toUInt64
  else if narrow then
    out.judged .unknown .unknown .insufficientFaultDomains out.supportingFaultDomains.toUInt64
  else if rank = 1 then out.judged .stale .stale .staleAttestation out.rejectedAttestations
  else if unknown then
    out.judged .unknown .unknown .witnessEpochMismatch out.rejectedAttestations
  else { out with state := .current, outcome := .ok, reason := .none, status := .ok }

/-- The weight of what a tally flags. -/
def flagRank (invalid mismatched stale narrow : Bool) : Nat :=
  if invalid then 3 else if mismatched then 2 else if stale && !narrow then 1 else 0

theorem flagRank_filed (invalid mismatched stale narrow : Bool) (filing : Filing) :
    flagRank (invalid || filing.isInvalid) (mismatched || filing.isMismatched)
        (stale || filing.isStale) narrow =
      max (flagRank invalid mismatched stale narrow) (filing.grade narrow) := by
  cases filing <;> cases invalid <;> cases mismatched <;> cases stale <;> cases narrow <;> rfl

/-- The weight of the worst statement of a tally. -/
def Tally.rank (t : Tally) (narrow : Bool) : Nat :=
  flagRank t.anyInvalid t.generationMismatch t.anyStale narrow

variable {profile : QuorumProfile} {t : Tally} {out : EvidenceAssessment} {narrow : Bool}

theorem rank_cases :
    t.rank narrow = 3 ∨ t.rank narrow = 2 ∨ t.rank narrow = 1 ∨ t.rank narrow = 0 := by
  unfold Tally.rank flagRank
  split
  · exact .inl rfl
  split
  · exact .inr (.inl rfl)
  split
  · exact .inr (.inr (.inl rfl))
  · exact .inr (.inr (.inr rfl))

theorem conclude_eq (spread : narrow = true ↔ ¬ t.supporting < out.requiredWitnesses ∧
      out.supportingFaultDomains < profile.minFaultDomains) :
    conclude profile t out =
      sentence t.anyConflict (t.rank narrow) narrow t.anyUnknown t.supporting out := by
  unfold conclude sentence Tally.rank flagRank
  cases t.anyConflict with
  | true => rfl
  | false =>
    cases t.anyInvalid with
    | true => rfl
    | false =>
      cases t.generationMismatch with
      | true => rfl
      | false =>
        by_cases short : t.supporting < out.requiredWitnesses
        · have wide : narrow = false := by
            rw [Bool.eq_false_iff]
            exact fun n => (spread.mp n).1 short
          subst wide
          cases t.anyStale <;> simp [short]
        · cases narrow with
          | true =>
            have few := (spread.mp rfl).2
            cases t.anyStale <;> simp [short, few]
          | false =>
            have many : ¬ out.supportingFaultDomains < profile.minFaultDomains :=
              fun few => Bool.false_ne_true (spread.mpr ⟨short, few⟩)
            cases t.anyStale <;> simp [short, many]

/-- Statements that could not be placed matter only when nothing worse is there. -/
theorem sentence_unknown {conflict unknown unknown' : Bool} {supporting : UInt32}
    (same : t.rank narrow = 0 → narrow = false → unknown = unknown') :
    sentence conflict (t.rank narrow) narrow unknown supporting out =
      sentence conflict (t.rank narrow) narrow unknown' supporting out := by
  by_cases level : t.rank narrow = 0 ∧ narrow = false
  · rw [same level.1 level.2]
  · unfold sentence
    split
    · rfl
    split
    · rfl
    split
    · rfl
    split
    · rfl
    split
    · rfl
    split
    · rfl
    · rename_i three two _ wide one
      have low : t.rank narrow = 0 := by
        rcases rank_cases with h | h | h | h
        · exact absurd h three
        · exact absurd h two
        · exact absurd h one
        · exact h
      exact absurd ⟨low, Bool.eq_false_iff.mpr wide⟩ level

/-- The reason of a verdict gives the weight away. -/
def rankOfReason : Reason → Nat
  | .witnessScopeMismatch => 3
  | .witnessGenerationMismatch => 2
  | .staleAttestation => 1
  | _ => 0

theorem rankOfReason_sentence {unknown : Bool} {supporting : UInt32}
    (wide : narrow = true → t.rank narrow ≠ 1 ∧ ¬ supporting < out.requiredWitnesses) :
    rankOfReason (sentence false (t.rank narrow) narrow unknown supporting out).reason =
      t.rank narrow := by
  have few : t.rank narrow = 3 ∨ t.rank narrow = 2 ∨ t.rank narrow = 1 ∨ t.rank narrow = 0 :=
    rank_cases
  generalize t.rank narrow = rank at few wide
  unfold sentence
  rcases few with rfl | rfl | rfl | rfl
  · rfl
  · rfl
  · cases narrow with
    | true => exact absurd rfl (wide rfl).1
    | false =>
      by_cases short : supporting < out.requiredWitnesses
      · simp [short, EvidenceAssessment.judged, rankOfReason]
      · simp [short, EvidenceAssessment.judged, rankOfReason]
  · by_cases short : supporting < out.requiredWitnesses
    · simp [short, EvidenceAssessment.judged, rankOfReason]
    · cases narrow <;> cases unknown <;> simp [short, EvidenceAssessment.judged, rankOfReason]

end Verdicts

section Rulings

variable {request : EvidenceRequest} {profile : QuorumProfile} {bundle : EvidenceBundle}
  {floors : List WitnessFloor} {counting : List WitnessAttestation}

variable (request profile bundle floors) in
/-- The tally if these statements count. -/
def tallyFor (counting : List WitnessAttestation) : Tally :=
  tallied request profile floors
    (bundle.attestations.length - unnamedCount bundle.attestations -
      (speakers bundle.attestations).length)
    (unnamedCount bundle.attestations) counting

/-- An assessment is the verdict over one of the choices. -/
theorem assess_selected (weighed : Weighed profile bundle) {arrival sorted : List WitnessAttestation}
    (perm : arrival.Perm bundle.attestations) (canonical : Canonical arrival sorted) :
    assessInOrder request profile { bundle with attestations := arrival } floors sorted =
      verdictOn request profile bundle
        (tallyFor request profile bundle floors (considered sorted)) := by
  have whole := canonical.perm.trans perm
  have unnamed : unnamedCount sorted = unnamedCount bundle.attestations := whole.countP_eq _
  have chosen := (selected_of_sorted whole canonical.keys).length_eq
  rw [assess_weighed _ _ _ (weighed.with_attestations (perm.length_eq ▸ weighed.bounded)),
    tallyOf_eq, whole.length_eq, unnamed, chosen]
  rfl

/-- The weight of the worst statement is the greatest among those that count. -/
theorem rank_tallied {superseded unnamed : Nat} (narrow : Bool) :
    (tallied request profile floors superseded unnamed counting).rank narrow =
      Choice.peak (if 0 < unnamed then 3 else 0)
        (fun a => (appraised request profile floors a).grade narrow) counting := by
  induction counting using List.reverseRecOn with
  | nil => simp [Tally.rank, flagRank, tallied, Choice.peak]
  | append_singleton counting a ih =>
    have step : Choice.peak (if 0 < unnamed then 3 else 0)
          (fun a => (appraised request profile floors a).grade narrow) (counting ++ [a]) =
        max (Choice.peak (if 0 < unnamed then 3 else 0)
          (fun a => (appraised request profile floors a).grade narrow) counting)
          ((appraised request profile floors a).grade narrow) := by
      rw [Choice.peak, List.foldl_append]
      rfl
    rw [step, ← ih]
    rw [Tally.rank, Tally.rank, ← flagRank_filed]
    simp only [tallied, List.any_append, List.any_cons, List.any_nil, Bool.or_false, Bool.or_assoc]

/-- The earliest expiry among the statements in favour, and the limit. -/
theorem min_earliest (limit start : Step) :
    min limit ((counting.filter (backs request profile floors)).foldl
        (fun earliest a => if a.validUntil < earliest then a.validUntil else earliest) start) =
      counting.foldl (fun earliest a => min earliest
        (if backs request profile floors a then a.validUntil else limit)) (min limit start) := by
  induction counting generalizing start with
  | nil => rfl
  | cons a rest ih =>
    rw [List.filter_cons, List.foldl_cons]
    by_cases favours : backs request profile floors a = true
    · have sooner : (if a.validUntil < start then a.validUntil else start) =
          min start a.validUntil := (min_def_lt _ _).symm.trans (min_comm _ _)
      rw [if_pos favours, if_pos favours, List.foldl_cons, ih, sooner, min_assoc]
    · have kept : min (min limit start) limit = min limit start := by
        rw [min_comm limit start, min_assoc, min_self]
      rw [if_neg favours, if_neg favours, ih, kept]

/-- The window of an assessment is closed by the limit and by every statement in favour. -/
theorem verdictOn_expiry (t : Tally) :
    (verdictOn request profile bundle t).earliestValidUntil =
      min (evidenceLimit request profile bundle) t.earliestExpiry := by
  have kept : ∀ out : EvidenceAssessment,
      (conclude profile t out).earliestValidUntil = out.earliestValidUntil :=
    conclude_counts EvidenceAssessment.earliestValidUntil fun _ _ _ _ _ => rfl
  have unlimited : min maxWord t.earliestExpiry = t.earliestExpiry := min_eq_right (le_maxWord _)
  unfold verdictOn evidenceLimit
  by_cases leased : bundle.hasLease = true
  · rw [if_pos leased]
    cases objects : leaseObjection bundle.lease request profile with
    | some verdict =>
      have objected : Objected request profile bundle := ⟨leased, by rw [objects]; rfl⟩
      rw [if_neg fun h => h.2 objected, unlimited]
      rfl
    | none =>
      have free : ¬ Objected request profile bundle := by
        rintro ⟨-, objected⟩
        rw [objects] at objected
        cases objected
      rw [if_pos ⟨leased, free⟩]
      rw [kept]
      exact (min_def_lt _ _).symm
  · rw [if_neg leased, if_neg fun h => leased h.1, unlimited, kept]
    rfl

/-- The same window as a peak, in the order turned around. -/
theorem expiry_peak :
    OrderDual.toDual (verdictOn request profile bundle
        (tallyFor request profile bundle floors counting)).earliestValidUntil =
      Choice.peak (OrderDual.toDual (evidenceLimit request profile bundle))
        (fun a => OrderDual.toDual (expiryOf request profile bundle floors a)) counting := by
  rw [verdictOn_expiry]
  simp only [tallyFor, tallied]
  rw [min_earliest, min_eq_left (le_maxWord _)]
  rfl

variable (bundle) in
/-- The assessment the verdict is passed on. -/
def presented (profile : QuorumProfile) (t : Tally) (expiry : Step) : EvidenceAssessment :=
  { countedFrom profile t with
    earliestValidUntil := expiry
    leaseValidUntil := if bundle.hasLease then bundle.lease.validUntil else 0
    leasePresent := bundle.hasLease }

theorem verdictOn_free (free : ¬ Objected request profile bundle) (t : Tally) :
    verdictOn request profile bundle t = conclude profile t (presented bundle profile t
      (verdictOn request profile bundle t).earliestValidUntil) := by
  have kept : ∀ out : EvidenceAssessment,
      (conclude profile t out).earliestValidUntil = out.earliestValidUntil :=
    conclude_counts EvidenceAssessment.earliestValidUntil fun _ _ _ _ _ => rfl
  unfold verdictOn
  by_cases leased : bundle.hasLease = true
  · have sound : leaseObjection bundle.lease request profile = none := by
      by_contra objects
      exact free ⟨leased, Option.isSome_iff_ne_none.mpr objects⟩
    rw [if_pos leased]
    simp only [sound]
    rw [kept]
    simp only [presented, leased, if_true]
    rfl
  · rw [if_neg leased, kept]
    simp only [presented, Bool.eq_false_iff.mpr leased]
    rfl

theorem verdictOn_objected (objected : Objected request profile bundle) :
    ∃ state outcome reason, ∀ t : Tally, verdictOn request profile bundle t =
      (countedFrom profile t).judged state outcome reason := by
  obtain ⟨leased, objects⟩ := objected
  obtain ⟨⟨state, outcome, reason⟩, found⟩ := Option.isSome_iff_exists.mp objects
  refine ⟨state, outcome, reason, fun t => ?_⟩
  rw [verdictOn, if_pos leased]
  simp only [found]

/-- With nothing worse about, a statement left out is one that could not be placed. -/
theorem unknown_tallied {superseded unnamed : Nat}
    (low : (tallied request profile floors superseded unnamed counting).rank false = 0) :
    (tallied request profile floors superseded unnamed counting).anyUnknown =
      counting.any (barred request profile floors) := by
  rw [rank_tallied] at low
  rw [tallied, Bool.eq_iff_iff, List.any_eq_true, List.any_eq_true]
  refine exists_congr fun a => and_congr_right fun member => ?_
  have reach : (appraised request profile floors a).grade false ≤ 0 :=
    low ▸ Choice.le_peak_iff.mpr (.inr ⟨a, member, le_rfl⟩)
  have never := appraised_isSuperseded request profile floors a
  unfold barred
  cases filed : appraised request profile floors a <;> rw [filed] at reach never <;>
    simp [Filing.grade, Filing.isUnknown, Filing.isHeard] at reach never ⊢

end Rulings

end SplitBrainFabric
