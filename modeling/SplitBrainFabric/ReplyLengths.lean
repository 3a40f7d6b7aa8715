import SplitBrainFabric.Answers
import SplitBrainFabric.Lockstep

/-! How long a reply is. A registry that holds no more grants than its table has room for answers
every frame within a few hundred kilobytes, far below what the length field of a frame counts. -/

namespace SplitBrainFabric
open Words

/-- The lists of a decision are short: so many claims to fence, and the rest within its limits. -/
structure AuthorityDecision.Within (n : Nat) (d : AuthorityDecision) : Prop where
  claims : d.mustFence.length ≤ n
  extents : d.fencedExtents.length ≤ Limits.maxExtentsPerScope
  codes : d.explanation.codes.length ≤ Limits.maxExplanationCodes

theorem Explanation.add_few {e : Explanation} (few : e.codes.length ≤ Limits.maxExplanationCodes)
    (reason : Reason) : (e.add reason).codes.length ≤ Limits.maxExplanationCodes := by
  rw [Explanation.add]
  split
  · exact few
  · rename_i room
    have short := Nat.lt_of_not_le fun full => room (.inr (.inr full))
    rw [List.length_append, List.length_singleton]
    exact short

section Decisions

variable {request : AuthorityRequest} {view : ArbiterView} {policy : ArbiterPolicy}
  {d d' : AuthorityDecision} {n : Nat}

namespace AuthorityDecision

theorem Within.mono (within : d.Within n) {m : Nat} (le : n ≤ m) : d.Within m :=
  { within with claims := within.claims.trans le }

theorem Within.fail (within : d.Within n) (verdict : AuthorityVerdict) (outcome : Outcome)
    (reason : Reason) (aux : UInt64) : (d.fail verdict outcome reason aux).Within n :=
  { within with codes := Explanation.add_few within.codes reason }

theorem Within.named (within : d.Within n) (claim : ClaimId) :
    { d with mustFence := d.mustFence ++ [claim] }.Within (n + 1) :=
  { within with
    claims := by
      rw [List.length_append, List.length_singleton]
      exact Nat.succ_le_succ within.claims }

/-- Where a loop over claims comes to, at its end or with an early return. -/
def cameTo : Except AuthorityDecision AuthorityDecision → AuthorityDecision
  | .ok d | .error d => d

end AuthorityDecision

open AuthorityDecision (Within cameTo)

/-- A claim of the first loop is named once, and with the last one the request itself. -/
theorem weighClaims_within (claims : List CompetingClaim) (within : d.Within n) :
    (cameTo (weighClaims request policy claims d)).Within (n + claims.length + 1) := by
  induction claims generalizing d n with
  | nil => exact within.mono (Nat.le_succ n)
  | cons c rest ih =>
    have skip : (cameTo (weighClaims request policy rest d)).Within (n + (rest.length + 1) + 1) :=
      (ih within).mono (by omega)
    have name := within.named c.claim
    rw [weighClaims, List.length_cons]
    split
    · exact skip
    split
    · split
      · exact (within.fail _ _ _ _).mono (by omega)
      · exact (within.fail _ _ _ _).mono (by omega)
    split
    · split
      · exact ((name.fail _ _ _ _).named request.claim).mono (by omega)
      · exact (name.fail _ _ _ _).mono (by omega)
    split
    · split
      · exact (name.fail _ _ _ _).mono (by omega)
      · exact (ih name).mono (by omega)
    · exact skip

theorem ownClaims_within (claims : List CompetingClaim) (within : d.Within n) :
    (cameTo (ownClaims request claims d)).Within n := by
  induction claims with
  | nil => exact within
  | cons c rest ih =>
    rw [ownClaims]
    split
    · split
      · exact within.fail _ _ _ _
      split
      · exact within.fail _ _ _ _
      · exact ih
    · exact ih

theorem decideExclusive_within {sorting : Sorting} {assessment : EvidenceAssessment}
    (within : d.Within n) :
    (decideExclusive sorting request view policy assessment d).Within
      (n + view.competing.length + 1) := by
  rw [decideExclusive]
  generalize listed : sorting.claims.sort (·.claim) (view.competing.filter fun c =>
    decide (c.claim ≠ request.claim) && request.scope.overlaps c.scope) = claims
  have few : claims.length ≤ view.competing.length := by
    rw [← listed, (sorting.claims.sort_perm _ _).length_eq]
    exact List.length_filter_le _ _
  have weighed : (cameTo (weighClaims request policy claims d)).Within
      (n + view.competing.length + 1) := (weighClaims_within claims within).mono (by omega)
  split
  · rename_i failed ran
    rw [ran] at weighed
    exact weighed
  · rename_i d₁ ran
    rw [ran] at weighed
    have weighed : d₁.Within (n + view.competing.length + 1) := weighed
    have owned : (cameTo (ownClaims request claims d₁)).Within (n + view.competing.length + 1) :=
      ownClaims_within claims weighed
    split
    · rename_i failed own
      rw [own] at owned
      exact owned
    · rename_i d₂ own
      rw [own] at owned
      split
      · exact owned.fail _ _ _ _
      · exact { owned with claims := (SortedTable.size_ofList_le _).trans owned.claims }

theorem decideEvidence_within {sorting : Sorting} {assessment : EvidenceAssessment}
    (within : d.Within n) :
    (decideEvidence sorting request view policy assessment d).Within
      (n + view.competing.length + 1) := by
  have still : d.Within (n + view.competing.length + 1) := within.mono (by omega)
  have explained := Explanation.add_few still.codes
  rw [decideEvidence]
  cases assessment.state with
  | conflict => exact still.fail _ _ _ _
  | invalid => exact still.fail _ _ _ _
  | unsupported => exact still.fail _ _ _ _
  | stale => exact still.fail _ _ _ _
  | unknown =>
    cases request.mode with
    | eligibilityProbe =>
      exact { still with codes := Explanation.add_few (still.fail _ _ _ _).codes _ }
    | recommendationRequest => exact { still with codes := explained _ }
    | _ => exact still.fail _ _ _ _
  | current =>
    simp only
    split
    · exact still.fail _ _ _ _
    · cases request.mode with
      | eligibilityProbe => exact { still with codes := explained _ }
      | recommendationRequest => exact { still with codes := explained _ }
      | sharedRead => exact { still with codes := explained _ }
      | _ => exact decideExclusive_within within

theorem decideOver_within {sorting : Sorting} {fences : FenceTable} {lineage : LineageTable}
    (within : d.Within n) :
    (decideOver sorting request view policy fences lineage d).Within
      (n + view.competing.length + 1) := by
  have still : d.Within (n + view.competing.length + 1) := within.mono (by omega)
  have fenced : { d with fencedExtents := request.scope.extents.filter fun e =>
      request.presentedFenceToken < fences.highWater e }.Within (n + view.competing.length + 1) :=
    { still with extents := (List.length_filter_le _ _).trans request.scope.bounded }
  rw [decideOver]
  split
  · exact { still with codes := Explanation.add_few still.codes _ }
  simp only
  split
  · exact still.fail _ _ _ _
  split
  · exact still.fail _ _ _ _
  split
  · exact still.fail _ _ _ _
  split
  · exact { still with codes := Explanation.add_few (still.fail _ _ _ _).codes _ }
  split
  · exact still.fail _ _ _ _
  split
  · exact still.fail _ _ _ _
  split
  · exact still.fail _ _ _ _
  split
  · exact fenced.fail _ _ _ _
  · exact decideEvidence_within { within with }

/-- However a request is decided, it names no more claims than compete with it, and itself. -/
theorem decideAuthority_within (sorting : Sorting) :
    (decideAuthority sorting request view).Within (view.competing.length + 1) := by
  have start : ∀ {d : AuthorityDecision}, d.mustFence = [] → d.fencedExtents = [] →
      d.explanation = {} → d.Within 0 := by
    rintro d claims extents explained
    exact ⟨by simp [claims], by simp [extents], by simp [explained]⟩
  have refused : ∀ {d : AuthorityDecision}, d.Within 0 → ∀ verdict outcome reason aux,
      (d.fail verdict outcome reason aux).Within (view.competing.length + 1) :=
    fun within _ _ _ _ => (within.fail _ _ _ _).mono (Nat.zero_le _)
  rw [decideAuthority]
  split
  · exact refused (start rfl rfl rfl) _ _ _ _
  split
  · exact refused (start rfl rfl rfl) _ _ _ _
  split
  · exact refused (start rfl rfl rfl) _ _ _ _
  split
  · exact refused (start rfl rfl rfl) _ _ _ _
  split
  · exact refused (start rfl rfl rfl) _ _ _ _
  split
  · rw [← Nat.zero_add (view.competing.length)]
    exact decideOver_within (start rfl rfl rfl)
  · exact refused (start rfl rfl rfl) _ _ _ _

end Decisions

open AuthorityDecision (Within)

namespace Work

theorem competing_few (w : Work) (g : EpochGrant) (now : Step) :
    (w.arbiterView g now).competing.length ≤ w.state.lineage.grants.length := by
  rw [arbiterView, List.length_map]
  refine (List.length_filter_le _ _).trans ?_
  rw [LineageTable.openGrants, List.length_insertionSort]
  exact List.length_filter_le _ _

theorem decide_within (sorting : Sorting) (request : DecideRequest) (now : Step) (w : Work) :
    (Prog.answer ((decide sorting request now).exec w).1).decision.Within
      (w.state.lineage.grants.length + 1) := by
  have unset : ∀ {n}, ({} : AuthorityDecision).Within n :=
    ⟨Nat.zero_le _, Nat.zero_le _, Nat.zero_le _⟩
  have refused : ∀ {d : AuthorityDecision} {reason : Reason} {n : Nat}, d.mustFence = [] →
      d.fencedExtents = [] → d.explanation = Explanation.add {} reason → d.Within n := by
    rintro d reason n claims extents explained
    refine ⟨by simp [claims], by simp [extents], ?_⟩
    rw [explained]
    exact Explanation.add_few (Nat.zero_le _) reason
  have ensures : Prog.Ensures (fun v => v = w) (decide sorting request now)
      (fun r _ => r.decision.Within (w.state.lineage.grants.length + 1))
      fun r _ => r.decision.Within (w.state.lineage.grants.length + 1) := by
    refine .get fun v s start => ?_
    obtain ⟨rfl, rfl⟩ := start
    refine (Prog.Ensures.refuseIf (fun _ _ _ => unset) (fun _ => ?_) :
      Prog.Ensures (fun _ => True) _ _ _) s trivial
    refine .bind (Prog.Refuses.ensures (checkScope_refuses
      (P := fun r : DecideResponse => r.decision.Within (s.state.lineage.grants.length + 1))
      (fun _ _ => unset) _ _)) fun _ => ?_
    split
    · exact .throw fun _ _ => refused rfl rfl rfl
    rename_i g _
    have mistaken : (mistoken g).decision.explanation = .add {} .fenceTokenRegressed := rfl
    refine .refuseIf (fun _ _ _ => refused rfl rfl mistaken) fun _ => ?_
    have decided : (decideAuthority sorting (authorityRequest request g now)
        (s.arbiterView g now)).Within (s.state.lineage.grants.length + 1) :=
      (decideAuthority_within sorting).mono (Nat.succ_le_succ (competing_few s g now))
    have windowed : ∀ {d : AuthorityDecision}, d.Within (s.state.lineage.grants.length + 1) →
        (if d.isAuthoritative then { d with validUntil := now + s.state.config.leaseHorizonSteps }
          else d).Within (s.state.lineage.grants.length + 1) := by
      intro d within
      split
      · exact { within with }
      · exact within
    exact .ite (fun _ => .pure fun _ _ => windowed decided)
      fun _ => .throw fun _ _ => windowed decided
  rcases ran : (decide sorting request now).exec w with ⟨r, w'⟩
  cases r with
  | ok response => exact ensures.ok rfl ran
  | error response => exact ensures.error rfl ran

end Work

theorem AuthorityDecision.Within.encode_length {d : AuthorityDecision} {n : Nat}
    (within : d.Within n) : d.encode.length ≤ 66 * n + 35000 := by
  have reasons := length_flatMap_le d.explanation.codes Writer.reason (k := 2)
    fun r _ => le_of_eq (Writer.reason_length r)
  have claims := length_flatMap_le d.mustFence (fun c => Writer.text c.value) (k := 66)
    fun c _ => by
      have short := c.length_le
      simp
      omega
  have extents := length_flatMap_le d.fencedExtents (fun e => Writer.text e.value)
    (k := 66) fun e _ => by
      have short := e.length_le
      simp
      omega
  have size := d.scope.encode_length
  have vector := d.vector.encode_length
  have claim := d.claim.length_le
  have fewClaims := within.claims
  have fewExtents := within.extents
  have few := within.codes
  simp only [Limits.maxExtentsPerScope, Limits.maxExplanationCodes] at fewExtents few
  simp [encode, encodeWith, Writer.sequence, -List.length_flatMap]
  omega

theorem HelloResponse.encode_length {v : HelloResponse} {node : NodeId}
    (named : v.serverIdentity = node.value) : v.encode.length ≤ 120 := by
  have short := node.length_le
  simp [encode, named]
  omega

theorem AllocateEpochResponse.encode_length (v : AllocateEpochResponse) :
    v.encode.length ≤ 160 := by
  have short := v.policy.length_le
  simp [encode]
  omega

theorem InspectResponse.encode_length (v : InspectResponse) : v.encode.length ≤ 5200 := by
  rw [encode]
  split
  · exact Nat.zero_le _
  · rename_i fits
    simp only [Limits.maxExplanationBytes] at fits
    simp
    omega

theorem ErrorResponse.encode_length (v : ErrorResponse) : v.encode.length ≤ 700 := by
  rw [encode]
  split
  · exact Nat.zero_le _
  · rename_i fits
    simp only [Limits.maxExplanationBytes] at fits
    simp
    omega

namespace RegistryService

/-- The payload of an answer. -/
def replyBytes (reply : Option WireValue) : Bytes := (reply.map WireValue.payload).getD []

variable {io : RequestIo} {frame : Frame} {binding : SessionBinding} {s s' : RegistryService}
  {reply : MessageType × Option WireValue}

/-- An operation is answered briefly, and a decision by what it names. -/
theorem reply_length (op : Op) (now : Step) (w : Work) :
    (replyBytes (op.reply now w).2).length ≤ 66 * w.state.lineage.grants.length + 40000 := by
  cases op with
  | defineDomain d =>
    show (DefineDomainResponse.encode _).length ≤ _
    simp [DefineDomainResponse.encode]
  | allocateEpoch request => exact (AllocateEpochResponse.encode_length _).trans (by omega)
  | decide request sorting =>
    have decision := (Work.decide_within sorting request now w).encode_length
    show (Prog.answer ((Work.decide sorting request now).exec w).1).encode.length ≤ _
    generalize Prog.answer ((Work.decide sorting request now).exec w).1 = response at decision ⊢
    simp [DecideResponse.encode, DecideResponse.encodeWith]
    omega
  | commit request io =>
    show (CommitResponse.encode _).length ≤ _
    simp [CommitResponse.encode]
  | fence request =>
    show (FenceResponse.encode _).length ≤ _
    simp [FenceResponse.encode]
  | release request =>
    show (ReleaseResponse.encode _).length ≤ _
    simp [ReleaseResponse.encode]
  | definePolicy p => exact Nat.zero_le _
  | allocateIncarnation => exact Nat.zero_le _
  | recoverAfterRestart => exact Nat.zero_le _

/-- A frame that asks for no operation is answered with a report, or without a payload. -/
theorem handleFrame_aside (aside : ¬ frame.header.type.operates = true)
    (ran : (handleFrame io frame binding).exec s = (.ok reply, s')) :
    reply.2 = none ∨ ∃ report : InspectResponse, reply.2 = some ⟨.inspectResponse, report⟩ := by
  have unasked : ∀ {type : MessageType}, type.operates = true → frame.header.type ≠ type :=
    fun operates same => aside (same ▸ operates)
  unfold handleFrame at ran
  split at ran
  · cases ran
    exact .inl rfl
  · cases ran
    exact .inl rfl
  obtain ⟨-, ran⟩ := Prog.refuseIf_ok ran
  split at ran
  · exact absurd ‹frame.header.type = _› (unasked rfl)
  · exact absurd ‹frame.header.type = _› (unasked rfl)
  · exact absurd ‹frame.header.type = _› (unasked rfl)
  · exact absurd ‹frame.header.type = _› (unasked rfl)
  · exact absurd ‹frame.header.type = _› (unasked rfl)
  · exact absurd ‹frame.header.type = _› (unasked rfl)
  · obtain ⟨request, -, ran⟩ := received_ok ran
    cases ran
    exact .inr ⟨_, rfl⟩
  · cases ran

theorem handleFrame_length (ran : (handleFrame io frame binding).exec s = (.ok reply, s')) :
    (replyBytes reply.2).length ≤ 66 * s.state.lineage.grants.length + 40000 := by
  by_cases operates : frame.header.type.operates = true
  · obtain ⟨op, asks⟩ := handleFrame_asked operates ran
    cases handleFrame_handled ran with
    | idle silent => cases silent.symm.trans asks
    | unrecorded asks' room aside => exact reply_length _ _ s.work
    | written asks' room records appended => exact reply_length _ _ s.work
  · rcases handleFrame_aside operates ran with silent | ⟨report, told⟩
    · rw [silent]
      exact Nat.zero_le _
    · rw [told]
      exact report.encode_length.trans (by omega)

/-- Whatever is asked, the answer is short as long as the table of grants is. -/
theorem answer_length :
    (replyBytes (s.answer io frame binding).1.reply).length ≤
      66 * s.state.lineage.grants.length + 40000 := by
  have error : ∀ v : ErrorResponse, (replyBytes (some ⟨.errorResponse, v⟩)).length ≤
      66 * s.state.lineage.grants.length + 40000 := fun v =>
    v.encode_length.trans (by omega)
  have hello : ∀ (node : NodeId) {v : HelloResponse}, v.serverIdentity = node.value →
      (replyBytes (some ⟨.helloResponse, v⟩)).length ≤
        66 * s.state.lineage.grants.length + 40000 := fun _ _ named =>
    (HelloResponse.encode_length named).trans (by omega)
  rw [answer]
  split
  · rw [greet]
    split
    · exact error _
    rcases (RegistryService.hello io frame.payload).exec s with ⟨r, t⟩
    cases r with
    | ok established => exact hello s.config.node rfl
    | error refusal => exact hello s.config.node rfl
  · rw [answerBound]
    split
    · exact error _
    simp only
    rcases ran : (handleFrame io frame { binding with
      lastRequest := frame.header.requestId
      acceptedRequests := tryIncrement binding.acceptedRequests }).exec s with ⟨r, t⟩
    cases r with
    | ok reply => exact handleFrame_length ran
    | error refusal => exact error _

/-- A registry that some run comes to answers every frame in a frame. -/
theorem Backed.answer_short (backed : s.Backed) :
    (replyBytes (s.answer io frame binding).1.reply).length < 2 ^ 32 := by
  have few : s.state.lineage.grants.length ≤ Limits.maxLineageEntries :=
    backed.footing.sound.bounded
  have length := @answer_length io frame binding s
  simp only [Limits.maxLineageEntries] at few
  omega

end RegistryService
end SplitBrainFabric
