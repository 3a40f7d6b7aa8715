import SplitBrainFabric.EffectRuns
import SplitBrainFabric.Validity
import SplitBrainFabric.WitnessServer

/-! The windows that are counted from a step. Four places add a horizon to a step without a
check, so near the end of the range a window runs out before it begins. -/

namespace SplitBrainFabric
open Words

theorem begins_before_end_iff (now horizon : UInt64) :
    now ≤ now + horizon ↔ ¬ Wraps now horizon := by
  have top : maxWord.toNat = 18446744073709551615 := rfl
  have low := now.toNat_lt
  have low' := horizon.toNat_lt
  rw [UInt64.le_iff_toNat_le, UInt64.toNat_add, Wraps]
  omega

/-- A statement is dated by the step its requester sent, whatever that is. -/
theorem WitnessService.attest_window {s s' : WitnessService} {request : AttestRequest}
    {a : WitnessAttestation} (ran : (attest request).exec s = (.ok a, s')) :
    a.issuedAt = request.requesterStep ∧
      a.validUntil = request.requesterStep + s.config.attestationHorizonSteps := by
  obtain ⟨_, t, rfl, rfl, _⟩ := attest_made ran
  exact ⟨rfl, rfl⟩

namespace Work

variable {w w' : Work} {now : Step}

/-- No record and no counter touches the configuration. -/
theorem frame_config (now : Step) (kinds : List RecordKind) (config : RegistryConfig) :
    Frame now kinds (·.state.config = config) :=
  ⟨fun _ _ _ _ => .of_run fun _ _ _ before ran => (emit_setup ran).config.trans before,
    fun _ _ _ _ same => same⟩

/-- The window of an answer, its own or that of a repeated attempt, is the lease horizon. -/
theorem allocateEpoch_window {request : AllocateEpochRequest} {response : AllocateEpochResponse}
    (ran : (allocateEpoch request now).exec w = (.ok response, w')) :
    response.allocationStep = now ∧
      response.validUntil = now + w.state.config.leaseHorizonSteps := by
  have config : w'.state.config = w.state.config :=
    (frame_config now _ w.state.config).wording.allocateEpoch.run rfl ran
  have allocated := allocateEpoch_allocates ran
  generalize answered : (Except.ok response : Except AllocateEpochResponse _) = r at allocated
  cases allocated with
  | refused refusal fails => cases answered
  | repeated admissible boot found => cases answered; exact ⟨rfl, rfl⟩
  | stuck admissible boot fresh looped => cases answered
  | cleared admissible boot fresh looped opened =>
    rename_i result w₁
    cases result with
    | error st => cases answered
    | ok g =>
      cases answered
      rw [← config]
      exact ⟨rfl, rfl⟩

end Work

section Decisions

variable {sorting : Sorting} {request : AuthorityRequest} {view : ArbiterView}

/-- Under a lease the window is the lease's own, which has not run out. -/
theorem decision_window (granted : (decideAuthority sorting request view).isAuthoritative = true)
    {policy : ArbiterPolicy} (complete : view.policy = some policy) :
    (decideAuthority sorting request view).validFrom ≤
        (decideAuthority sorting request view).validUntil ↔
      request.evidence.hasLease = true ∨
        ¬ Wraps view.now policy.quorum.evidenceHorizonSteps := by
  obtain ⟨p, fences, lineage, mustFence, entitled, written⟩ := decideAuthority_granted granted
  obtain rfl : p = policy := Option.some.inj (entitled.complete.1.symm.trans complete)
  have present : (request.assessed sorting p view).leasePresent = request.evidence.hasLease :=
    (assess_lease entitled.current).1
  rw [written, ← begins_before_end_iff]
  simp only [AuthorityDecision.grantedBy, present]
  by_cases leased : request.evidence.hasLease = true
  · rw [if_pos leased, assessed_lease entitled.current leased]
    exact ⟨fun _ => .inl leased, fun _ => (lasts_now entitled).lease leased⟩
  · rw [if_neg leased]
    exact ⟨.inr, fun holds => holds.resolve_left leased⟩

/-- The registry's answer is counted from the same step, by its own horizon. -/
theorem answer_window {request : DecideRequest} {now : Step} {w w' : Work}
    {r : Except DecideResponse DecideResponse}
    (ran : (Work.decide sorting request now).exec w = (r, w'))
    (granted : (Prog.answer r).decision.isAuthoritative = true) :
    (Prog.answer r).decision.validFrom = now ∧
      (Prog.answer r).decision.validUntil = now + w.state.config.leaseHorizonSteps := by
  obtain ⟨-, -, -, -, g, d, rfl, authoritative, answered⟩ := Work.decide_decided ran granted
  obtain ⟨policy, fences, lineage, mustFence, entitled, written⟩ :=
    decideAuthority_granted authoritative
  rw [answered, written]
  exact ⟨rfl, rfl⟩

end Decisions

/-- Each of the four windows ends no earlier than it begins exactly when its horizon fits
between its step and the last one; a decision under a lease always does. -/
theorem windows_iff (sorting : Sorting) (s : WitnessService) (claimed : AttestRequest) (w : Work)
    (now : Step) (wanted : AllocateEpochRequest) (asked : DecideRequest) (view : ArbiterView)
    (request : AuthorityRequest) :
    (∀ a s', (WitnessService.attest claimed).exec s = (.ok a, s') →
      (a.issuedAt ≤ a.validUntil ↔
        ¬ Wraps claimed.requesterStep s.config.attestationHorizonSteps)) ∧
    (∀ response w', (Work.allocateEpoch wanted now).exec w = (.ok response, w') →
      (response.allocationStep ≤ response.validUntil ↔
        ¬ Wraps now w.state.config.leaseHorizonSteps)) ∧
    (∀ policy, view.policy = some policy →
      (decideAuthority sorting request view).isAuthoritative = true →
      ((decideAuthority sorting request view).validFrom ≤
          (decideAuthority sorting request view).validUntil ↔
        request.evidence.hasLease = true ∨
          ¬ Wraps view.now policy.quorum.evidenceHorizonSteps)) ∧
    ∀ r w', (Work.decide sorting asked now).exec w = (r, w') →
      (Prog.answer r).decision.isAuthoritative = true →
      ((Prog.answer r).decision.validFrom ≤ (Prog.answer r).decision.validUntil ↔
        ¬ Wraps now w.state.config.leaseHorizonSteps) := by
  refine ⟨?_, ?_, fun _ complete granted => decision_window granted complete, ?_⟩
  · intro a s' ran
    obtain ⟨issued, lasts⟩ := WitnessService.attest_window ran
    rw [issued, lasts]
    exact begins_before_end_iff _ _
  · intro response w' ran
    obtain ⟨allocated, lasts⟩ := Work.allocateEpoch_window ran
    rw [allocated, lasts]
    exact begins_before_end_iff _ _
  · intro r w' ran granted
    obtain ⟨decided, lasts⟩ := answer_window ran granted
    rw [decided, lasts]
    exact begins_before_end_iff _ _

/-- What a client that claims a scope at that step asks of the witness. -/
def claimAt (step : Step) : AttestRequest where
  subjectDomain := Id.make [100]
  subjectScope := Scope.single (Id.make [120]) WitnessServer.rivalExtent_named
  epoch := 1
  incarnation := 1
  fenceToken := 1
  requesterStep := step

theorem claimAt_attested (step : Step)
    (attested : ((WitnessService.attest (claimAt step)).exec
      WitnessServer.rivalGreeted.service).1.isOk = true) :
    ∃ a s', (WitnessService.attest (claimAt step)).exec WitnessServer.rivalGreeted.service =
      (.ok a, s') := by
  rcases ran : (WitnessService.attest (claimAt step)).exec WitnessServer.rivalGreeted.service
    with ⟨r, s'⟩
  rw [ran] at attested
  cases r with
  | error st => cases attested
  | ok a => exact ⟨a, s', rfl⟩

/-- One statement, one grant and both kinds of decision. -/
theorem windows_iff_samples :
    (∃ a s', (WitnessService.attest (claimAt 1)).exec WitnessServer.rivalGreeted.service =
        (.ok a, s') ∧
      (a.issuedAt ≤ a.validUntil ↔
        ¬ Wraps 1 WitnessServer.rivalGreeted.service.config.attestationHorizonSteps)) ∧
    (∃ (h : History) (response : _) (w' : Work),
      (Work.allocateEpoch (History.sampleAllocation 100 120 1 1) 3).exec h.work =
        (.ok response, w') ∧
      (response.allocationStep ≤ response.validUntil ↔
        ¬ Wraps 3 h.work.state.config.leaseHorizonSteps)) ∧
    ((decideAuthority {} (soloRequest 97 120 2) (soloView [])).validFrom ≤
        (decideAuthority {} (soloRequest 97 120 2) (soloView [])).validUntil ↔
      (soloRequest 97 120 2).evidence.hasLease = true ∨
        ¬ Wraps 1 soloPolicy.quorum.evidenceHorizonSteps) ∧
    ∃ (h : History) (r : _) (w : Work),
      (Work.decide {} History.heldQuestion 4).exec h.work = (r, w) ∧
      ((Prog.answer r).decision.validFrom ≤ (Prog.answer r).decision.validUntil ↔
        ¬ Wraps 4 h.work.state.config.leaseHorizonSteps) := by
  obtain ⟨a, s', attested⟩ := claimAt_attested 1 (by decide +kernel)
  obtain ⟨h, r, w, -, decided, granted⟩ := held_decided
  have allocates : (History.sampleStart.bind (History.guarded (fun _ _ => true) ·
      [.call (.defineDomain (History.sampleDomain 100 120)) 1,
        .call .allocateIncarnation 2])).map (fun h =>
      ((Work.allocateEpoch (History.sampleAllocation 100 120 1 1) 3).exec h.work).1.isOk) =
      some true := by
    decide +kernel
  obtain ⟨h₀, -, accepted⟩ := Option.map_eq_some_iff.mp allocates
  rcases ran : (Work.allocateEpoch (History.sampleAllocation 100 120 1 1) 3).exec h₀.work
    with ⟨result, w₀⟩
  rw [ran] at accepted
  obtain ⟨statements, grants, decisions, -⟩ := windows_iff {} WitnessServer.rivalGreeted.service
    (claimAt 1) h₀.work 3 (History.sampleAllocation 100 120 1 1) History.heldQuestion (soloView [])
    (soloRequest 97 120 2)
  obtain ⟨-, -, -, answers⟩ := windows_iff {} WitnessServer.rivalGreeted.service (claimAt 1) h.work
    4 (History.sampleAllocation 100 120 1 1) History.heldQuestion (soloView [])
    (soloRequest 97 120 2)
  cases result with
  | error refusal => cases accepted
  | ok response =>
    exact ⟨⟨a, s', attested, statements a s' attested⟩,
      ⟨h₀, response, w₀, ran, grants response w₀ ran⟩,
      decisions soloPolicy rfl (by decide +kernel),
      h, r, w, decided, answers r w decided granted⟩

/-- The last step there is, sent by a client that has greeted the witness. -/
theorem window_wraps : ¬ ∀ server : WitnessServer, server.Reachable → ∀ request a s',
    (WitnessService.attest request).exec server.service = (.ok a, s') →
    a.issuedAt ≤ a.validUntil := by
  intro holds
  obtain ⟨a, s', attested⟩ := claimAt_attested maxWord (by decide +kernel)
  have window := holds _ WitnessServer.rivalGreeted_reachable _ a s' attested
  obtain ⟨issued, lasts⟩ := WitnessService.attest_window attested
  rw [issued, lasts, begins_before_end_iff] at window
  exact window (by decide +kernel)

end SplitBrainFabric
