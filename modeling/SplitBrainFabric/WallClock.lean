import SplitBrainFabric.CurrentEvidence
import SplitBrainFabric.Standing
import SplitBrainFabric.Replay

/-! Readings of the wall clock travel inside requests and statements, and nothing the
registry does or answers depends on them. -/

namespace SplitBrainFabric
open Words

/-- The statement without its reading. -/
def WitnessAttestation.timeless (a : WitnessAttestation) : WitnessAttestation :=
  { a with observedAt := {} }

def EvidenceBundle.timeless (bundle : EvidenceBundle) : EvidenceBundle :=
  { bundle with attestations := bundle.attestations.map (·.timeless) }

def AuthorityRequest.timeless (request : AuthorityRequest) : AuthorityRequest :=
  { request with evidence := request.evidence.timeless, requestedAt := {} }

def AllocateEpochRequest.timeless (request : AllocateEpochRequest) : AllocateEpochRequest :=
  { request with requestedAt := {} }

def DecideRequest.timeless (request : DecideRequest) : DecideRequest :=
  { request with evidence := request.evidence.timeless, requestedAt := {} }

def CommitRequest.timeless (request : CommitRequest) : CommitRequest :=
  { request with requestedAt := {} }

section Assessment

variable {sorting : Sorting} {request : EvidenceRequest} {profile : QuorumProfile}
  {floors : List WitnessFloor}

theorem latestIndex_timeless (l : List WitnessAttestation) :
    latestIndex (l.map (·.timeless)) = latestIndex l := by
  unfold latestIndex
  rw [List.zipIdx_map, List.foldl_map]
  rfl

theorem tallyOf_timeless (l : List WitnessAttestation) :
    tallyOf request profile floors (l.map (·.timeless)) = tallyOf request profile floors l := by
  unfold tallyOf
  rw [latestIndex_timeless, List.zipIdx_map, List.foldl_map]
  rfl

/-- A reading is no part of the key. -/
theorem canonical_timeless (l : List WitnessAttestation) :
    sorting.canonical (l.map (·.timeless)) = (sorting.canonical l).map (·.timeless) :=
  sorting.statements.sort_map WitnessAttestation.sortKey WitnessAttestation.timeless l

theorem assessEvidence_timeless (bundle : EvidenceBundle) :
    assessEvidence sorting request profile bundle.timeless floors =
      assessEvidence sorting request profile bundle floors := by
  unfold assessEvidence assessInOrder
  simp only [EvidenceBundle.timeless, canonical_timeless, tallyOf_timeless, List.length_map]

end Assessment

section Decision

variable {sorting : Sorting} {view : ArbiterView} {policy : ArbiterPolicy}
  {assessment : EvidenceAssessment}

theorem weighClaims_timeless (request : AuthorityRequest) (l : List CompetingClaim)
    (d : AuthorityDecision) :
    weighClaims request.timeless policy l d = weighClaims request policy l d := by
  induction l generalizing d with
  | nil => rfl
  | cons c rest ih =>
    unfold weighClaims
    simp only [ih]
    rfl

theorem ownClaims_timeless (request : AuthorityRequest) (l : List CompetingClaim)
    (d : AuthorityDecision) : ownClaims request.timeless l d = ownClaims request l d := by
  induction l with
  | nil => rfl
  | cons c rest ih =>
    unfold ownClaims
    rw [ih]
    rfl

theorem decideExclusive_timeless (request : AuthorityRequest) (d : AuthorityDecision) :
    decideExclusive sorting request.timeless view policy assessment d =
      decideExclusive sorting request view policy assessment d := by
  unfold decideExclusive
  simp only [weighClaims_timeless, ownClaims_timeless]
  rfl

theorem decideEvidence_timeless (request : AuthorityRequest) (d : AuthorityDecision) :
    decideEvidence sorting request.timeless view policy assessment d =
      decideEvidence sorting request view policy assessment d := by
  unfold decideEvidence
  simp only [decideExclusive_timeless]
  rfl

theorem decideAuthority_timeless (request : AuthorityRequest) (view : ArbiterView) :
    decideAuthority sorting request.timeless view = decideAuthority sorting request view := by
  have evidence : request.timeless.evidence = request.evidence.timeless := rfl
  unfold decideAuthority decideOver
  simp only [decideEvidence_timeless, evidence, assessEvidence_timeless]
  rfl

end Decision

/-- What one call answers. -/
inductive OpAnswer where
  | done (answer : Except Status PUnit)
  | incarnation (answer : Except Status IncarnationId)
  | allocation (answer : Except AllocateEpochResponse AllocateEpochResponse)
  | decision (answer : Except DecideResponse DecideResponse)
  | commit (answer : Except CommitResponse CommitResponse)
  | fence (answer : Except FenceResponse FenceResponse)
  | release (answer : Except ReleaseResponse ReleaseResponse)

namespace Op

def answer (now : Step) (w : Work) : Op → OpAnswer
  | .defineDomain d => .done ((Work.defineDomain d now).exec w).1
  | .definePolicy p => .done ((Work.definePolicy p now).exec w).1
  | .allocateIncarnation => .incarnation ((Work.allocateIncarnation now).exec w).1
  | .allocateEpoch request => .allocation ((Work.allocateEpoch request now).exec w).1
  | .decide request sorting => .decision ((Work.decide sorting request now).exec w).1
  | .commit request io => .commit ((Work.commit request now io).exec w).1
  | .fence request => .fence ((Work.fence request now).exec w).1
  | .release request => .release ((Work.release request now).exec w).1
  | .recoverAfterRestart => .done ((Work.recoverAfterRestart now).exec w).1

/-- The call without its readings. -/
def timeless : Op → Op
  | .allocateEpoch request => .allocateEpoch request.timeless
  | .decide request sorting => .decide request.timeless sorting
  | .commit request io => .commit request.timeless io
  | op => op

end Op

section Registry

theorem Work.decide_timeless (sorting : Sorting) (request : DecideRequest) (now : Step) :
    Work.decide sorting request.timeless now = Work.decide sorting request now := by
  have asked : ∀ g, authorityRequest request.timeless g now =
      (authorityRequest request g now).timeless := fun _ => rfl
  unfold Work.decide
  simp only [asked, decideAuthority_timeless]
  rfl

theorem Op.after_timeless (op : Op) (now : Step) (w : Work) :
    op.timeless.after now w = op.after now w ∧ op.timeless.answer now w = op.answer now w := by
  cases op with
  | allocateEpoch request => exact ⟨rfl, rfl⟩
  | decide request sorting => exact ⟨by simp only [timeless, after, Work.decide_timeless],
      by simp only [timeless, answer, Work.decide_timeless]⟩
  | commit request io => exact ⟨rfl, rfl⟩
  | defineDomain _ | definePolicy _ | allocateIncarnation | fence _ | release _
  | recoverAfterRestart => exact ⟨rfl, rfl⟩

/-- The answers to a run of calls, and what it leaves behind. -/
def answerAll (calls : List (Op × Step)) (w : Work) : List OpAnswer × Work :=
  calls.foldl (fun run call =>
    (run.1 ++ [call.1.answer call.2 run.2], call.1.after call.2 run.2)) ([], w)

theorem answerAll_concat (calls : List (Op × Step)) (call : Op × Step) (w : Work) :
    answerAll (calls ++ [call]) w = ((answerAll calls w).1 ++
      [call.1.answer call.2 (answerAll calls w).2], call.1.after call.2 (answerAll calls w).2) := by
  rw [answerAll, List.foldl_append]
  rfl

theorem answerAll_timeless (calls : List (Op × Step)) (w : Work) :
    answerAll (calls.map fun call => (call.1.timeless, call.2)) w = answerAll calls w := by
  induction calls using List.reverseRecOn with
  | nil => rfl
  | append_singleton calls call ih =>
    obtain ⟨state, answer⟩ := call.1.after_timeless call.2 (answerAll calls w).2
    rw [List.map_append, List.map_singleton, answerAll_concat, answerAll_concat, ih]
    exact Prod.ext (by simp only [answer]) state

end Registry

/-- Nothing depends on a reading: not an assessment, not a decision, and over a run of
calls neither the answers nor the records and the state it ends with. -/
theorem wall_clock_unseen :
    (∀ (sorting : Sorting) (request : EvidenceRequest) (profile : QuorumProfile)
      (bundle bundle' : EvidenceBundle) (floors : List WitnessFloor),
      bundle.timeless = bundle'.timeless →
      assessEvidence sorting request profile bundle floors =
        assessEvidence sorting request profile bundle' floors) ∧
    (∀ (sorting : Sorting) (request request' : AuthorityRequest) (view : ArbiterView),
      request.timeless = request'.timeless →
      decideAuthority sorting request view = decideAuthority sorting request' view) ∧
    ∀ (w : Work) (calls calls' : List (Op × Step)),
      calls.map (fun call => (call.1.timeless, call.2)) =
        calls'.map (fun call => (call.1.timeless, call.2)) →
      answerAll calls w = answerAll calls' w := by
  refine ⟨fun sorting request profile bundle bundle' floors same => ?_,
    fun sorting request request' view same => ?_, fun w calls calls' same => ?_⟩
  · rw [← assessEvidence_timeless bundle, same, assessEvidence_timeless]
  · rw [← decideAuthority_timeless request, same, decideAuthority_timeless]
  · rw [← answerAll_timeless calls, same, answerAll_timeless]

/-- A reading that other requests do not have. -/
def lateReading : WallClockReading := { unixNanos := 1000, source := 1, observedRegression := true }

/-- The same evidence, statements taken at that reading. -/
def EvidenceBundle.observedLate (bundle : EvidenceBundle) : EvidenceBundle :=
  { bundle with attestations := bundle.attestations.map fun a => { a with observedAt := lateReading } }

theorem wall_clock_unseen_held :
    assessEvidence {} {} soloPolicy.quorum History.heldQuestion.evidence.observedLate [] =
      assessEvidence {} {} soloPolicy.quorum History.heldQuestion.evidence [] ∧
    decideAuthority {} { soloRequest 97 120 2 with requestedAt := lateReading } (soloView []) =
      decideAuthority {} (soloRequest 97 120 2) (soloView []) ∧
    answerAll [(.allocateIncarnation, 2), (.decide { History.heldQuestion with
        evidence := History.heldQuestion.evidence.observedLate, requestedAt := lateReading } {}, 4)]
        { state := {} } =
      answerAll [(.allocateIncarnation, 2), (.decide History.heldQuestion {}, 4)] { state := {} } :=
  ⟨wall_clock_unseen.1 _ _ _ _ _ _ rfl, wall_clock_unseen.2.1 _ _ _ _ rfl,
    wall_clock_unseen.2.2 _ _ _ rfl⟩

end SplitBrainFabric
