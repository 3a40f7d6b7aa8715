import SplitBrainFabric.Clients
import SplitBrainFabric.Failures
import SplitBrainFabric.RegistrySessions

/-! What a client can make of an answer of the registry: an error response is a failure, and
any other answer to a request is the outcome of just the operation that was asked for. -/

namespace SplitBrainFabric
open Words

/-- The requests that ask for an operation. -/
def MessageType.operates : MessageType → Bool
  | .defineDomainRequest | .allocateEpochRequest | .decideRequest | .commitRequest
  | .fenceRequest | .releaseRequest => true
  | _ => false

namespace RegistryService

variable {io : RequestIo} {frame : Frame} {binding : SessionBinding} {s s' : RegistryService}
  {reply : MessageType × Option WireValue}

theorem received_ok {ρ : Type} {read : Reader.Read ρ} {envelope : ρ → RequestEnvelope}
    {payload : Bytes} {f : ρ → Handler}
    (ran : (received read envelope payload binding >>= f).exec s = (.ok reply, s')) :
    ∃ request, asRequest read envelope payload binding = some request ∧
      (f request).exec s = (.ok reply, s') := by
  obtain ⟨request, t, taken, ran⟩ := Prog.bind_ok ran
  rw [received] at taken
  obtain ⟨request', decoded, taken⟩ := Prog.ofExcept_ok taken
  obtain ⟨passed, taken⟩ := Prog.refuseIf_ok taken
  cases taken
  refine ⟨_, ?_, ran⟩
  rw [asRequest, decoded]
  exact if_pos (by simpa using passed)

/-- A request for an operation goes through only if it is one of its session. -/
theorem handleFrame_asked (operates : frame.header.type.operates = true)
    (ran : (handleFrame io frame binding).exec s = (.ok reply, s')) :
    ∃ op, asked io frame binding = some op := by
  have requested : (handleRequest io frame binding).exec s = (.ok reply, s') := by
    unfold handleFrame at ran
    split at ran
    · rename_i type
      rw [type] at operates
      cases operates
    · rename_i type
      rw [type] at operates
      cases operates
    · exact ran
  rw [handleRequest] at requested
  obtain ⟨bound, requested⟩ := Prog.refuseIf_ok requested
  rw [asked, if_neg bound]
  split at requested
  · obtain ⟨request, taken, -⟩ := received_ok requested
    exact ⟨.defineDomain request.definition,
      by simp only [‹frame.header.type = _›, taken, Option.map_some]⟩
  · obtain ⟨request, taken, rest⟩ := received_ok requested
    obtain ⟨named, rest⟩ := Prog.refuseIf_ok rest
    obtain ⟨kind, -⟩ := Prog.refuseIf_ok rest
    have passes : ¬ (request.incarnation ≠ request.envelope.incarnation ∨
        request.boot ≠ request.envelope.boot ∨ binding.kind ≠ .coordinator) := by
      rw [← or_assoc]
      exact not_or.mpr ⟨named, kind⟩
    exact ⟨.allocateEpoch request,
      by simp only [‹frame.header.type = _›, taken, Option.bind_some, if_neg passes]⟩
  · obtain ⟨request, taken, -⟩ := received_ok requested
    exact ⟨.decide request io.sorting,
      by simp only [‹frame.header.type = _›, taken, Option.map_some]⟩
  · obtain ⟨request, taken, rest⟩ := received_ok requested
    obtain ⟨kind, -⟩ := Prog.refuseIf_ok rest
    exact ⟨.commit request io.fabric,
      by simp only [‹frame.header.type = _›, taken, Option.bind_some, if_neg kind]⟩
  · obtain ⟨request, taken, -⟩ := received_ok requested
    exact ⟨.fence request, by simp only [‹frame.header.type = _›, taken, Option.map_some]⟩
  · obtain ⟨request, taken, -⟩ := received_ok requested
    exact ⟨.release request, by simp only [‹frame.header.type = _›, taken, Option.map_some]⟩
  · rename_i type
    rw [type] at operates
    cases operates
  · cases requested

/-- How a request for an operation is answered: with a failure, or with the reply of the
operation that is asked for. -/
inductive Replies (io : RequestIo) (frame : Frame) (binding : SessionBinding)
    (s : RegistryService) (answer : Answer) : Prop
  | failed (refusal : ErrorResponse) (fails : refusal.status.Fails)
    (type : answer.type = .errorResponse) (reply : answer.reply = some ⟨.errorResponse, refusal⟩)
  | done (op : Op) (asks : asksFor io frame binding = some op) (room : s.state.clock ≠ maxWord)
    (reply : (answer.type, answer.reply) = op.reply (s.state.clock + 1) s.work)

theorem answer_replies (operates : frame.header.type.operates = true) :
    Replies io frame binding s (s.answer io frame binding).1 := by
  rw [answer]
  split
  · rw [greet, if_pos fun hello => by rw [hello] at operates; cases operates]
    exact .failed _ (Status.fails rfl) rfl rfl
  rename_i bound
  rw [answerBound]
  split
  · exact .failed _ (Status.fails rfl) rfl rfl
  rename_i later
  rcases ran : (handleFrame io frame (noted frame binding)).exec s with ⟨r, t⟩
  have known := ran
  rw [noted] at ran
  simp only [ran]
  cases r with
  | error refusal =>
    have fails : refusal.Fails := handleFrame_refuses io frame _ s refusal t ran
    exact .failed ⟨refusal, refusal.text⟩ fails rfl rfl
  | ok reply =>
    obtain ⟨op, asks⟩ := handleFrame_asked operates known
    have wants : asksFor io frame binding = some op := by
      rw [asksFor, if_neg (not_or.mpr ⟨bound, later⟩), asks]
    cases handleFrame_handled known with
    | idle silent => cases silent.symm.trans asks
    | unrecorded asks' room aside =>
      cases asks'.symm.trans asks
      exact .done op wants room rfl
    | written asks' room records appended =>
      cases asks'.symm.trans asks
      exact .done op wants room rfl

end RegistryService

section Decisions

variable {sorting : Sorting} {request : AuthorityRequest} {policy : ArbiterPolicy}
  {view : ArbiterView} {l : List CompetingClaim} {d failed : AuthorityDecision}

/-- A decision that carries authority, or says that it does not. -/
def AuthorityDecision.Plain (d : AuthorityDecision) : Prop :=
  d.isAuthoritative = true ∨ d.status.Fails

theorem weighClaims_fails (weighed : weighClaims request policy l d = .error failed) :
    failed.status.Fails := by
  induction l generalizing d with
  | nil => cases weighed
  | cons c rest ih =>
    unfold weighClaims at weighed
    split at weighed
    · exact ih weighed
    split at weighed
    · split at weighed
      · cases weighed
        rfl
      · cases weighed
        rfl
    split at weighed
    · simp only at weighed
      split at weighed
      · cases weighed
        rfl
      · cases weighed
        rfl
    split at weighed
    · simp only at weighed
      split at weighed
      · cases weighed
        rfl
      · exact ih weighed
    · exact ih weighed

theorem ownClaims_fails (owned : ownClaims request l d = .error failed) :
    failed.status.Fails := by
  induction l with
  | nil => cases owned
  | cons c rest ih =>
    unfold ownClaims at owned
    split at owned
    · split at owned
      · cases owned
        rfl
      split at owned
      · cases owned
        rfl
      · exact ih owned
    · exact ih owned

theorem decideExclusive_plain (assessment : EvidenceAssessment) :
    (decideExclusive sorting request view policy assessment d).Plain := by
  unfold decideExclusive
  simp only
  split
  · exact .inr (weighClaims_fails ‹_›)
  split
  · exact .inr (ownClaims_fails ‹_›)
  split
  · exact .inr rfl
  · exact .inl rfl

theorem decideEvidence_plain (exclusive : request.mode = .exclusiveMutation)
    (assessment : EvidenceAssessment) :
    (decideEvidence sorting request view policy assessment d).Plain := by
  unfold decideEvidence
  simp only [exclusive]
  split
  · exact .inr rfl
  · exact .inr rfl
  · exact .inr rfl
  · exact .inr rfl
  · exact .inr rfl
  · split
    · exact .inr rfl
    · exact decideExclusive_plain assessment

/-- Only the modes that never carry authority are answered with an `Ok` that does not. -/
theorem decideAuthority_plain (exclusive : request.mode = .exclusiveMutation) :
    (decideAuthority sorting request view).Plain := by
  have checked : ∀ {c : Prop} [Decidable c] {d d' : AuthorityDecision}, d.Plain → d'.Plain →
      (if c then d else d').Plain := by
    intro c _ d d' yes no
    split
    · exact yes
    · exact no
  refine checked (.inr rfl) <| checked (.inr rfl) <| checked (.inr rfl) <| checked (.inr rfl) <|
    checked (.inr rfl) ?_
  split
  · unfold decideOver
    split
    · exact .inr rfl
    refine checked (.inr rfl) <| checked (.inr rfl) <| checked (.inr rfl) ?_
    rw [if_neg (by rw [exclusive]; exact nofun)]
    refine checked (.inr rfl) <| checked (.inr rfl) <| checked (.inr rfl) <| checked (.inr rfl) ?_
    exact decideEvidence_plain exclusive _
  · exact .inr rfl

end Decisions

namespace Work

open Prog (Refuses)

variable {w : Work} {now : Step}

theorem checkScope_refuses {ρ : Type} {answer : Status → ρ} {P : ρ → Prop}
    (fails : ∀ st, st.Fails → P (answer st)) (domain : DomainId) (scope : Scope) :
    (checkScope answer w domain scope).Refuses P := by
  unfold checkScope
  split
  · exact .throw (fails _ rfl)
  · exact .ite (fun _ => .throw (fails _ rfl)) fun _ => .pure _

end Work

namespace ExtentMarks

theorem check_refuses {below foreign : ExtentFenceState → Status} {marks : ExtentMarks}
    {token : FenceToken} {incarnation : IncarnationId} {st : Status}
    (fails : ∀ s, (below s).Fails ∧ (foreign s).Fails) {l : List ExtentId}
    (refused : check below foreign marks token incarnation l = .error st) : st.Fails := by
  induction l with
  | nil => cases refused
  | cons e rest ih =>
    unfold check at refused
    split at refused
    · exact ih refused
    split at refused
    · cases refused
      exact (fails _).1
    split at refused
    · cases refused
      exact (fails _).2
    · exact ih refused

end ExtentMarks

namespace FabricStore

theorem append_refuses (r : MutationRecord) (io : AppendIo) :
    (append r io).Refuses Status.Fails := by
  refine .get fun s => ?_
  simp only
  split
  · exact .set _
  · exact .bind (.set _) fun _ => .throw (Status.fails rfl)
  · exact .bind (.set _) fun _ => .throw (Status.fails rfl)
  · exact .bind (.set _) fun _ => .throw (Status.fails rfl)

theorem admitMutation_refuses (domain : DomainId) (token : FenceToken) (scope : Scope)
    (epoch : Epoch) (incarnation : IncarnationId) (grant : GrantId) (operation : Bytes)
    (payloadDigest : Digest256) (now : Step) (io : AppendIo) :
    (admitMutation domain token scope epoch incarnation grant operation payloadDigest now
      io).Refuses Status.Fails :=
  .get fun _ => .refuseIf (fun _ => rfl) <| .refuseIf (fun _ => rfl) <|
    .refuseIf (fun _ => rfl) <| .refuseIf (fun _ => rfl) <| .refuseIf (fun _ => rfl) <|
    .refuseIf (fun _ => rfl) <| .refuseIf (fun _ => rfl) <|
    .bind (.ofExcept fun _ refused =>
      ExtentMarks.check_refuses (fun _ => ⟨Status.fails rfl, Status.fails rfl⟩) refused)
      fun _ => .refuseIf (fun _ => rfl) <| .bind (append_refuses _ io) fun _ => .pure _

end FabricStore

namespace Work

variable {w : Work} {now : Step}

theorem emit_refuses (payload : Bytes) (status : Status) :
    (emit .commitRecord payload status now).Refuses Status.Fails := by
  intro w st w' refused
  by_cases full : w.state.registrySequence = maxWord
  · rw [emit_full full] at refused
    cases refused
    rfl
  · rw [@emit_runs _ _ _ _ _ .commitRecord _ full rfl rfl] at refused
    cases refused

theorem commit_refuses (request : CommitRequest) (now : Step) (io : AppendIo) :
    (commit request now io).Refuses fun response => response.status.Fails := by
  refine .get fun w => .refuseIf (fun _ => rfl) <| .refuseIf (fun _ => rfl) <|
    .bind (checkScope_refuses (P := fun response : CommitResponse => response.status.Fails)
      (fun _ fails => fails) _ _) fun _ => ?_
  split
  · exact .throw (Status.fails rfl)
  refine .refuseIf (fun _ => rfl) <| .refuseIf (fun _ => rfl) <| .refuseIf (fun _ => rfl) ?_
  refine .bind (.mapError (.zoom (FabricStore.admitMutation_refuses _ _ _ _ _ _ _ _ _ io)))
    fun record => ?_
  exact .bind (.mapError (emit_refuses _ _)) fun _ => .pure _

/-- A decision as it is sent: with authority, or with a status that fails. -/
def Ruled (response : DecideResponse) : Prop :=
  response.status.Fails ∨ response.decision.isAuthoritative = true

theorem ungranted_fails (w : Work) (request : DecideRequest) :
    (w.ungranted request).status.Fails := by
  unfold ungranted
  simp only
  split_ifs
  · rfl
  · rfl
  · rfl

theorem decide_ruled {sorting : Sorting} {request : DecideRequest}
    (exclusive : request.mode = .exclusiveMutation) (now : Step) (w : Work) :
    Ruled (Prog.answer ((decide sorting request now).exec w).1) := by
  have ensures : Prog.Ensures (fun _ => True) (decide sorting request now) (fun v _ => Ruled v)
      fun v _ => Ruled v := by
    refine .get fun w => .refuseIf (fun _ _ _ => .inl rfl) fun _ => ?_
    refine .bind (Prog.Refuses.ensures (checkScope_refuses (fun _ fails => .inl fails) _ _))
      fun _ => ?_
    split
    · exact .throw fun _ _ => .inl (ungranted_fails w request)
    refine .refuseIf (fun _ _ _ => .inl rfl) fun _ => ?_
    simp only
    rename_i g _ _
    have ruled : ∀ d : AuthorityDecision, d.Plain → Ruled {
        status := d.status
        decision := if d.isAuthoritative then
          { d with validUntil := now + w.state.config.leaseHorizonSteps } else d } := by
      rintro d (granted | fails)
      · rw [if_pos granted]
        exact .inr granted
      · exact .inl fails
    have plain : (decideAuthority sorting (authorityRequest request g now)
        (w.arbiterView g now)).Plain := decideAuthority_plain exclusive
    exact .ite (fun _ => .pure fun _ _ => ruled _ plain) fun _ => .throw fun _ _ => ruled _ plain
  rcases ran : (decide sorting request now).exec w with ⟨r, w'⟩
  cases r with
  | ok response => exact ensures.ok trivial ran
  | error response => exact ensures.error trivial ran

end Work

section Reading

/-- An error response is read as it was sent, if it is read at all. -/
theorem ErrorResponse.decode_encode {v e : ErrorResponse}
    (accepted : Reader.decode ErrorResponse.decode v.encode = .ok e) : e = v := by
  by_cases long : Limits.maxExplanationBytes < v.detail.length
  · rw [encode, if_pos long] at accepted
    cases accepted
  · have read : Reader.decode ErrorResponse.decode v.encode = .ok v :=
      exact_decode.whole_iff.mpr ⟨not_lt.mp long, rfl⟩
    exact Except.ok.inj (accepted.symm.trans read)

theorem RequestEnvelope.agrees_decode (e : RequestEnvelope) :
    Decoder.Agrees RequestEnvelope.decode e.encode e :=
  .field (reads_u64 _).agrees <| .field (agrees_identifier _ _) <| .field (reads_u64 _).agrees <|
    .field (reads_u64 _).agrees <| .pure e

theorem reads_wallClock (reading : WallClockReading) :
    Decoder.Reads decodeWallClock (encodeWallClock reading) reading :=
  exact_wallClock.reads ⟨trivial, rfl⟩

/-- What a registry takes for a commit is the commit that a client wrote. -/
theorem CommitRequest.decode_encode {r v : CommitRequest}
    (accepted : Reader.decode CommitRequest.decode r.encode = .ok v) : v = r := by
  by_cases long : Limits.maxTextLength < r.operation.length
  · rw [encode, encodeWith, if_pos long] at accepted
    cases accepted
  rw [encode, encodeWith, if_neg long] at accepted
  have short : r.operation.length < 65536 := by
    simp only [Limits.maxTextLength] at long
    omega
  have envelope := agrees_nested (r.envelope.encode_length.trans (by decide))
    r.envelope.agrees_decode
  have agrees : Decoder.Agrees CommitRequest.decode (List.flatten [Writer.blob r.envelope.encode,
      Writer.text r.domain.value, Writer.blob r.scope.encode, Writer.u64 r.epoch,
      Writer.u64 r.incarnation, Writer.u64 r.grant, Writer.u64 r.fenceToken,
      Writer.u64 r.attemptSequence, Writer.text r.operation, Writer.digest r.payloadDigest,
      encodeWallClock r.requestedAt]) r :=
    .field envelope <| .field (agrees_identifier _ _) <| .field (agrees_nested_scope _) <|
    .field (reads_u64 _).agrees <| .field (reads_u64 _).agrees <| .field (reads_u64 _).agrees <|
    .field (reads_u64 _).agrees <| .field (reads_u64 _).agrees <|
    .field (reads_text short).agrees <| .refuseIf fun _ => .field (reads_digest _).agrees <|
    .field (reads_wallClock _).agrees <| .pure r
  exact agrees.whole accepted

/-- What a registry takes for a decide has the mode that a client wrote. -/
theorem DecideRequest.decode_mode {r v : DecideRequest}
    (accepted : Reader.decode DecideRequest.decode r.encode = .ok v) : v.mode = r.mode := by
  obtain ⟨encodable, scope, spelled, same⟩ := spells_decode.whole_iff.mp accepted
  have name : ∀ d : DomainId, d.value.length < 65536 := fun d => by
    have short := d.length_le
    omega
  simp only [encode, encodeWith, List.flatten_cons] at same
  obtain ⟨-, same⟩ := exact_blob.splits ⟨r.envelope.encode_length.trans (by decide), rfl⟩
    ⟨v.envelope.encode_length.trans (by decide), rfl⟩ same
  obtain ⟨-, same⟩ := exact_text.splits ⟨name _, rfl⟩ ⟨name _, rfl⟩ same
  obtain ⟨-, same⟩ := exact_blob.splits ⟨r.scope.encode_fits, rfl⟩
    ⟨spelled.length.trans_le v.scope.encode_fits, rfl⟩ same
  obtain ⟨-, same⟩ := exact_u64.splits ⟨trivial, rfl⟩ ⟨trivial, rfl⟩ same
  obtain ⟨-, same⟩ := exact_u64.splits ⟨trivial, rfl⟩ ⟨trivial, rfl⟩ same
  obtain ⟨-, same⟩ := exact_u64.splits ⟨trivial, rfl⟩ ⟨trivial, rfl⟩ same
  obtain ⟨-, same⟩ := exact_u64.splits ⟨trivial, rfl⟩ ⟨trivial, rfl⟩ same
  exact (AuthorityMode.exact_read.splits ⟨trivial, rfl⟩ ⟨trivial, rfl⟩ same).1.symm

/-- What a client takes for a decision has the verdict and the statuses that were sent. -/
theorem DecideResponse.decode_encode {v r : DecideResponse}
    (accepted : Reader.decode DecideResponse.decode v.encode = .ok r) :
    r.status = v.status ∧ r.decision.verdict = v.decision.verdict := by
  obtain ⟨image, spelled, same⟩ := spells_decode.whole_iff.mp accepted
  have fits := spelled.length
  obtain ⟨listed, codes, scope, -, -, rfl⟩ := spelled
  simp only [encode, encodeWith, List.flatten_cons] at same
  obtain ⟨status, same⟩ := exact_nestedStatus.splits ⟨trivial, rfl⟩ ⟨trivial, rfl⟩ same
  rw [List.flatten_nil, List.append_nil, List.append_nil, blob_inj, AuthorityDecision.encode,
    AuthorityDecision.encodeWith, AuthorityDecision.encodeWith, List.flatten_cons,
    List.flatten_cons] at same
  have verdict := AuthorityVerdict.exact_read.splits ⟨trivial, rfl⟩ ⟨trivial, rfl⟩ same
  exact ⟨status.symm, verdict.1.symm⟩

theorem CommitResponse.decode_encode {v r : CommitResponse}
    (accepted : Reader.decode CommitResponse.decode v.encode = .ok r) : r = v := by
  have read : Reader.decode CommitResponse.decode v.encode = .ok v :=
    exact_decode.whole_iff.mpr ⟨trivial, rfl⟩
  exact Except.ok.inj (accepted.symm.trans read)

end Reading

/-- What comes back over a connection that loses and damages nothing. -/
def Answer.exchange (a : Answer) : Exchange :=
  .answered a.type ((a.reply.map WireValue.payload).getD [])

namespace RegistryService

variable {io : RequestIo} {frame : Frame} {binding : SessionBinding} {s : RegistryService}

/-- A failure is a failure for every client. -/
theorem failed_response {a : Answer} {refusal : ErrorResponse} (fails : refusal.status.Fails)
    (type : a.type = .errorResponse) (reply : a.reply = some ⟨.errorResponse, refusal⟩)
    {ρ : Type} (expected : MessageType) (read : Reader.Read ρ) (r : ρ) :
    a.exchange.response expected read ≠ .ok r := by
  have payload : (a.reply.map WireValue.payload).getD [] = refusal.encode := by
    rw [reply]
    rfl
  intro heard
  rw [Answer.exchange, payload, Exchange.response, Exchange.payload, if_pos type] at heard
  cases decoded : Reader.decode ErrorResponse.decode refusal.encode with
  | error st =>
    rw [decoded] at heard
    cases heard
  | ok e =>
    obtain rfl := ErrorResponse.decode_encode decoded
    simp only [decoded] at heard
    rw [if_neg (by rw [show e.status.isOk = false from fails]; exact Bool.noConfusion)] at heard
    cases heard

theorem asRequest_decoded {ρ : Type} {read : Reader.Read ρ} {envelope : ρ → RequestEnvelope}
    {payload : Bytes} {request : ρ} (asks : asRequest read envelope payload binding = some request) :
    Reader.decode read payload = .ok request := by
  unfold asRequest at asks
  split at asks
  · rename_i decoded
    split at asks
    · cases asks
      exact decoded
    · cases asks
  · cases asks

/-- A commit that is answered with `Ok` is the one that was written, and took effect. -/
theorem commit_heard {request : CommitRequest} {response : CommitResponse}
    (type : frame.header.type = .commitRequest) (payload : frame.payload = request.encode)
    (heard : (s.answer io frame binding).1.exchange.response .commitResponse
      CommitResponse.decode = .ok response) (ok : response.status.isOk = true) :
    asksFor io frame binding = some (.commit request io.fabric) ∧ s.state.clock ≠ maxWord ∧
      ((Work.commit request (s.state.clock + 1) io.fabric).exec s.work).1 = .ok response := by
  have replies : Replies io frame binding s (s.answer io frame binding).1 :=
    answer_replies (by rw [type]; rfl)
  cases replies with
  | failed refusal fails type' reply => exact absurd heard (failed_response fails type' reply _ _ _)
  | done op asks room reply =>
    have known : op = .commit request io.fabric := by
      rw [asksFor] at asks
      split at asks
      · cases asks
      rw [asked] at asks
      split at asks
      · cases asks
      rw [type] at asks
      obtain ⟨taken, decoded, asks⟩ := Option.bind_eq_some_iff.mp asks
      split at asks
      · cases asks
      · cases asks
        rw [payload] at decoded
        rw [CommitRequest.decode_encode (asRequest_decoded decoded)]
    subst known
    refine ⟨asks, room, ?_⟩
    obtain ⟨type', reply⟩ := Prod.mk.inj reply
    rw [Answer.exchange, type', reply] at heard
    have same := CommitResponse.decode_encode heard
    rw [same] at ok ⊢
    rcases ran : (Work.commit request (s.state.clock + 1) io.fabric).exec s.work with ⟨r, w⟩
    rw [ran] at ok
    cases r with
    | error refusal =>
      have fails : refusal.status.isOk = false := Work.commit_refuses _ _ _ _ _ _ ran
      cases fails.symm.trans ok
    | ok response => rfl

/-- A decide on a mutation that is answered with `Ok` is answered with authority. -/
theorem decide_heard {request : DecideRequest} {response : DecideResponse}
    (exclusive : request.mode = .exclusiveMutation)
    (type : frame.header.type = .decideRequest) (payload : frame.payload = request.encode)
    (heard : (s.answer io frame binding).1.exchange.response .decideResponse
      DecideResponse.decode = .ok response) (ok : response.status.isOk = true) :
    response.decision.isAuthoritative = true := by
  have replies : Replies io frame binding s (s.answer io frame binding).1 :=
    answer_replies (by rw [type]; rfl)
  cases replies with
  | failed refusal fails type' reply => exact absurd heard (failed_response fails type' reply _ _ _)
  | done op asks room reply =>
    obtain ⟨taken, mode, rfl⟩ : ∃ taken : DecideRequest, taken.mode = request.mode ∧
        op = .decide taken io.sorting := by
      rw [asksFor] at asks
      split at asks
      · cases asks
      rw [asked] at asks
      split at asks
      · cases asks
      rw [type] at asks
      obtain ⟨taken, decoded, rfl⟩ := Option.map_eq_some_iff.mp asks
      rw [payload] at decoded
      exact ⟨taken, DecideRequest.decode_mode (asRequest_decoded decoded), rfl⟩
    obtain ⟨type', reply⟩ := Prod.mk.inj reply
    rw [Answer.exchange, type', reply] at heard
    obtain ⟨status, verdict⟩ := DecideResponse.decode_encode heard
    rw [status] at ok
    rw [AuthorityDecision.isAuthoritative, verdict]
    rcases Work.decide_ruled (mode.trans exclusive) (s.state.clock + 1) s.work with fails | ruled
    · cases (show Status.isOk _ = false from fails).symm.trans ok
    · exact ruled

end RegistryService
end SplitBrainFabric
