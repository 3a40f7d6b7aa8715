import SplitBrainFabric.Sentence
import SplitBrainFabric.Standing

/-! How long a decision claims to hold, against how long its evidence does. The assessment
works out the earliest expiry of what it counted, and neither window is taken from it. -/

namespace SplitBrainFabric
open Words

/-- The statements a verdict of current evidence rests on: of several with one key, the one
that the sort leaves in front. -/
def EvidenceBundle.quorum (sorting : Sorting) (bundle : EvidenceBundle) :
    List WitnessAttestation :=
  considered (sorting.canonical bundle.attestations)

/-- Nothing a decision rests on has run out at that step. -/
structure EvidenceBundle.Lasts (sorting : Sorting) (bundle : EvidenceBundle) (step : Step) :
    Prop where
  statements : ∀ a ∈ bundle.quorum sorting, step ≤ a.validUntil
  lease : bundle.hasLease = true → step ≤ bundle.lease.validUntil

section Windows

variable {sorting : Sorting} {request : EvidenceRequest} {profile : QuorumProfile}
  {bundle : EvidenceBundle} {floors : List WitnessFloor}

theorem Proven.unobjected (proven : Proven sorting request profile bundle floors) :
    ¬ Objected request profile bundle := by
  rintro ⟨leased, objects⟩
  rw [leaseObjection_none_iff.mpr (proven.lease leased)] at objects
  cases objects

/-- The window the assessment arrives at is the one its evidence lasts for. -/
theorem le_earliest_iff
    (current : (assessEvidence sorting request profile bundle floors).state = .current)
    (step : Step) :
    step ≤ (assessEvidence sorting request profile bundle floors).earliestValidUntil ↔
      bundle.Lasts sorting step := by
  have proven := proven_iff.mp current
  have ruled : assessEvidence sorting request profile bundle floors =
      verdictOn request profile bundle
        (tallyFor request profile bundle floors (bundle.quorum sorting)) :=
    assess_selected proven.weighed (List.Perm.refl _) (sorting.canonical_canonical _)
  have window : step ≤ (assessEvidence sorting request profile bundle floors).earliestValidUntil ↔
      step ≤ evidenceLimit request profile bundle ∧
        ∀ a ∈ bundle.quorum sorting, step ≤ expiryOf request profile bundle floors a := by
    rw [ruled, ← OrderDual.toDual_le_toDual, expiry_peak, Choice.peak_le_iff]
    rfl
  have limit : step ≤ evidenceLimit request profile bundle ↔
      (bundle.hasLease = true → step ≤ bundle.lease.validUntil) := by
    unfold evidenceLimit
    by_cases leased : bundle.hasLease = true
    · rw [if_pos ⟨leased, proven.unobjected⟩]
      exact ⟨fun low _ => low, fun low => low leased⟩
    · rw [if_neg fun h => leased h.1]
      exact ⟨fun _ h => absurd h leased, fun _ => le_maxWord step⟩
  have expiries : ∀ a ∈ bundle.quorum sorting,
      expiryOf request profile bundle floors a = a.validUntil := by
    intro a member
    obtain ⟨support, qualifies⟩ := proven.backed a member
    have favours : backs request profile floors a = true := by
      rw [backs, heard_iff.mpr qualifies, support]
      rfl
    exact if_pos favours
  rw [window, limit, and_comm]
  constructor
  · rintro ⟨statements, lease⟩
    exact ⟨fun a member => expiries a member ▸ statements a member, lease⟩
  · rintro ⟨statements, lease⟩
    exact ⟨fun a member => (expiries a member).symm ▸ statements a member, lease⟩

end Windows

/-- So many steps from now are past what a word can count. -/
def Wraps (now horizon : UInt64) : Prop := maxWord.toNat < now.toNat + horizon.toNat

instance (now horizon : UInt64) : Decidable (Wraps now horizon) := inferInstanceAs (Decidable (_ < _))

/-- A window of so many steps ends in time, as a number. -/
def ReachesTo (now horizon limit : UInt64) : Prop := now.toNat + horizon.toNat ≤ limit.toNat

theorem add_le_iff {now horizon limit : UInt64} (begun : now ≤ limit) :
    now + horizon ≤ limit ↔ Wraps now horizon ∨ ReachesTo now horizon limit := by
  have top : maxWord.toNat = 18446744073709551615 := rfl
  have low := limit.toNat_lt
  have low' := horizon.toNat_lt
  rw [UInt64.le_iff_toNat_le] at begun
  rw [UInt64.le_iff_toNat_le, UInt64.toNat_add, Wraps, ReachesTo]
  omega

/-- The lease is not longer than the statements; without one, the horizon is not. -/
def AuthorityRequest.CoveredBy (sorting : Sorting) (request : AuthorityRequest)
    (view : ArbiterView) (policy : ArbiterPolicy) : Prop :=
  if request.evidence.hasLease then
    ∀ a ∈ request.evidence.quorum sorting, request.evidence.lease.validUntil ≤ a.validUntil
  else Wraps view.now policy.quorum.evidenceHorizonSteps ∨
    ∀ a ∈ request.evidence.quorum sorting,
      ReachesTo view.now policy.quorum.evidenceHorizonSteps a.validUntil

/-- The registry's horizon is not longer than the statements and the lease. -/
def DecideRequest.CoveredFor (sorting : Sorting) (request : DecideRequest) (now horizon : Step) :
    Prop :=
  Wraps now horizon ∨
    (∀ a ∈ request.evidence.quorum sorting, ReachesTo now horizon a.validUntil) ∧
      (request.evidence.hasLease = true → ReachesTo now horizon request.evidence.lease.validUntil)

section Decisions

variable {sorting : Sorting} {request : AuthorityRequest} {view : ArbiterView}

/-- Everything a granted decision rests on is still good when it is made. -/
theorem lasts_now {policy : ArbiterPolicy} {fences : FenceTable} {lineage : LineageTable}
    (entitled : request.Entitled sorting view policy fences lineage) :
    request.evidence.Lasts sorting view.now := by
  have proven := proven_iff.mp entitled.current
  exact ⟨fun a member => (proven.backed a member).2.unexpired,
    fun leased => (proven.lease leased).unexpired⟩

theorem assessed_lease {policy : ArbiterPolicy}
    (current : (request.assessed sorting policy view).state = .current)
    (leased : request.evidence.hasLease = true) :
    (request.assessed sorting policy view).leaseValidUntil = request.evidence.lease.validUntil := by
  have proven := proven_iff.mp current
  have kept : ∀ (t : Tally) (out : EvidenceAssessment),
      (conclude policy.quorum t out).leaseValidUntil = out.leaseValidUntil :=
    fun t => conclude_counts EvidenceAssessment.leaseValidUntil fun _ _ _ _ _ => rfl
  rw [AuthorityRequest.assessed, assessEvidence, assess_weighed _ _ _ proven.weighed,
    verdictOn_free proven.unobjected, kept, presented, if_pos leased]

theorem covered_iff (granted : (decideAuthority sorting request view).isAuthoritative = true)
    {policy : ArbiterPolicy} (complete : view.policy = some policy) :
    request.evidence.Lasts sorting (decideAuthority sorting request view).validUntil ↔
      request.CoveredBy sorting view policy := by
  obtain ⟨p, fences, lineage, mustFence, entitled, written⟩ := decideAuthority_granted granted
  obtain rfl : p = policy := Option.some.inj (entitled.complete.1.symm.trans complete)
  obtain ⟨statements, lease⟩ := lasts_now entitled
  have present : (request.assessed sorting p view).leasePresent = request.evidence.hasLease :=
    (assess_lease entitled.current).1
  rw [written, AuthorityRequest.CoveredBy]
  simp only [AuthorityDecision.grantedBy, present]
  by_cases leased : request.evidence.hasLease = true
  · rw [if_pos leased, if_pos leased, assessed_lease entitled.current leased]
    exact ⟨fun lasts => lasts.statements, fun covered => ⟨covered, fun _ => le_rfl⟩⟩
  · rw [if_neg leased, if_neg leased]
    constructor
    · intro lasts
      by_cases wraps : Wraps view.now p.quorum.evidenceHorizonSteps
      · exact .inl wraps
      · exact .inr fun a member => ((add_le_iff (statements a member)).mp
          (lasts.statements a member)).resolve_left wraps
    · intro covered
      refine ⟨fun a member => (add_le_iff (statements a member)).mpr ?_, fun h => absurd h leased⟩
      exact covered.imp_right fun reaches => reaches a member

/-- The registry's answer, whose window is its own horizon. -/
theorem covered_for_iff {request : DecideRequest} {now : Step} {w w' : Work}
    {r : Except DecideResponse DecideResponse}
    (ran : (Work.decide sorting request now).exec w = (r, w'))
    (granted : (Prog.answer r).decision.isAuthoritative = true) :
    request.evidence.Lasts sorting (Prog.answer r).decision.validUntil ↔
      request.CoveredFor sorting now w.state.config.leaseHorizonSteps := by
  obtain ⟨-, -, -, -, g, d, rfl, authoritative, answered⟩ := Work.decide_decided ran granted
  obtain ⟨policy, fences, lineage, mustFence, entitled, -⟩ := decideAuthority_granted authoritative
  obtain ⟨statements, lease⟩ := lasts_now entitled
  rw [answered, DecideRequest.CoveredFor]
  constructor
  · intro lasts
    by_cases wraps : Wraps now w.state.config.leaseHorizonSteps
    · exact .inl wraps
    · refine .inr ⟨fun a member => ?_, fun leased => ?_⟩
      · exact ((add_le_iff (statements a member)).mp
          (lasts.statements a member)).resolve_left wraps
      · exact ((add_le_iff (lease leased)).mp (lasts.lease leased)).resolve_left wraps
  · intro covered
    refine ⟨fun a member => (add_le_iff (statements a member)).mpr ?_, fun leased =>
      (add_le_iff (lease leased)).mpr ?_⟩
    · exact covered.imp_right fun reaches => reaches.1 a member
    · exact covered.imp_right fun reaches => reaches.2 leased

end Decisions

/-- A decision lasts no longer than its evidence exactly when the window it is given fits
into the statements that count, and into the lease. -/
theorem validity_iff (sorting : Sorting) (request : AuthorityRequest) (view : ArbiterView)
    (asked : DecideRequest) (now : Step) (w : Work) :
    (∀ policy, view.policy = some policy →
      (decideAuthority sorting request view).isAuthoritative = true →
      (request.evidence.Lasts sorting (decideAuthority sorting request view).validUntil ↔
        request.CoveredBy sorting view policy)) ∧
    ∀ r w', (Work.decide sorting asked now).exec w = (r, w') →
      (Prog.answer r).decision.isAuthoritative = true →
      (asked.evidence.Lasts sorting (Prog.answer r).decision.validUntil ↔
        asked.CoveredFor sorting now w.state.config.leaseHorizonSteps) :=
  ⟨fun _ complete granted => covered_iff granted complete,
    fun _ _ ran granted => covered_for_iff ran granted⟩

/-- The question of a holder, answered with authority. -/
theorem held_decided : ∃ h r w, History.Reachable (fun _ _ => True) h ∧
    (Work.decide {} History.heldQuestion 4).exec h.work = (r, w) ∧
    (Prog.answer r).decision.isAuthoritative = true := by
  obtain ⟨h, ran, granted⟩ := Option.map_eq_some_iff.mp History.held_granted
  rcases decided : (Work.decide {} History.heldQuestion 4).exec h.work with ⟨r, w⟩
  rw [decided] at granted
  exact ⟨h, r, w, History.sample_reachable ran, decided, granted⟩

/-- Both kinds of decision, on one statement that is good until step ten. -/
theorem validity_iff_solo :
    ((soloRequest 97 120 2).evidence.Lasts {}
        (decideAuthority {} (soloRequest 97 120 2) (soloView [])).validUntil ↔
      (soloRequest 97 120 2).CoveredBy {} (soloView []) soloPolicy) ∧
    ∃ (h : History) (r : _) (w : Work),
      (Work.decide {} History.heldQuestion 4).exec h.work = (r, w) ∧
      (History.heldQuestion.evidence.Lasts {} (Prog.answer r).decision.validUntil ↔
        History.heldQuestion.CoveredFor {} 4 h.work.state.config.leaseHorizonSteps) := by
  obtain ⟨h, r, w, -, decided, granted⟩ := held_decided
  obtain ⟨alone, registered⟩ :=
    validity_iff {} (soloRequest 97 120 2) (soloView []) History.heldQuestion 4 h.work
  exact ⟨alone soloPolicy rfl (by decide +kernel), h, r, w, decided, registered r w decided granted⟩

/-- The statement runs out at step ten, and both decisions last a thousand steps longer. -/
theorem decision_outlives :
    ((decideAuthority {} (soloRequest 97 120 2) (soloView [])).isAuthoritative = true ∧
      ∃ a ∈ (soloRequest 97 120 2).evidence.quorum {},
        a.validUntil < (decideAuthority {} (soloRequest 97 120 2) (soloView [])).validUntil) ∧
    ∃ h r w, History.Reachable (fun _ _ => True) h ∧
      (Work.decide {} History.heldQuestion 4).exec h.work = (r, w) ∧
      (Prog.answer r).decision.isAuthoritative = true ∧
      ∃ a ∈ History.heldQuestion.evidence.quorum {},
        a.validUntil < (Prog.answer r).decision.validUntil := by
  refine ⟨by decide +kernel, ?_⟩
  have evaluated : (History.sampleStart.bind
      (History.guarded (fun _ _ => true) · History.heldEvents)).map (fun h =>
      let answer := Prog.answer ((Work.decide {} History.heldQuestion 4).exec h.work).1
      (answer.decision.isAuthoritative, (History.heldQuestion.evidence.quorum {}).any fun a =>
        decide (a.validUntil < answer.decision.validUntil))) = some (true, true) := by
    decide +kernel
  obtain ⟨h, ran, shown⟩ := Option.map_eq_some_iff.mp evaluated
  rcases decided : (Work.decide {} History.heldQuestion 4).exec h.work with ⟨r, w⟩
  simp only [decided] at shown
  obtain ⟨granted, short⟩ := Prod.mk.inj shown
  obtain ⟨a, member, less⟩ := List.any_eq_true.mp short
  exact ⟨h, r, w, History.sample_reachable ran, decided, granted, a, member,
    of_decide_eq_true less⟩

end SplitBrainFabric
