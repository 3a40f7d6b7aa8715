import SplitBrainFabric.Codecs

/-! The witness behind its connections: the worker that answers frames, and when a client
can read the answer. Every refusal of an attest request leaves as a response that its own
decoder refuses. -/

namespace SplitBrainFabric
open Words

def Limits.maxSessions : Nat := 256

namespace WitnessService

/-- A refusal keeps the attestation it started from. -/
def attestReply (payload : Bytes) (binding : SessionBinding) (s : WitnessService) :
    AttestResponse × WitnessService :=
  match Reader.decode AttestRequest.decode payload with
  | .error refusal => ({ status := refusal }, s)
  | .ok request =>
    let bound := request.envelope.validateAgainst binding
    if bound.isOk = true then
      match (attest request).exec s with
      | (.ok attestation, s') => ({ status := .ok, attestation := attestation }, s')
      | (.error refusal, s') => ({ status := refusal }, s')
    else ({ status := bound }, s)

def statusReply (payload : Bytes) (s : WitnessService) : WitnessStatusResponse :=
  let counted : WitnessStatusResponse := {
    attestationsIssued := s.issued
    refusalsConflict := s.refusalsConflict
    refusalsEpochRegression := s.refusalsRegression }
  match Reader.decode WitnessStatusRequest.decode payload with
  | .error refusal => { counted with status := refusal }
  | .ok _ => { counted with
      status := .ok
      witness := s.config.witness
      faultDomain := s.config.faultDomain
      generation := UInt64.ofNat s.subjects.size
      lastSequence := s.lastSequence
      step := s.clock }

end WitnessService

/-- The service with its sessions; every connection keeps a binding of its own, which is
blank until its hello is accepted. -/
structure WitnessServer where
  service : WitnessService := {}
  sessions : List SessionBinding := []
  nextSession : SessionId := 0
  nextIncarnation : IncarnationId := 0
  bindings : Nat → SessionBinding := fun _ => {}

namespace WitnessServer

def bind (s : WitnessServer) (connection : Nat) (binding : SessionBinding) : WitnessServer :=
  { s with bindings := Function.update s.bindings connection binding }

def hello (connection : Nat) (payload : Bytes) (s : WitnessServer) :
    HelloResponse × WitnessServer :=
  let identity := s.service.config.witness.value
  match Reader.decode HelloRequest.decode payload with
  | .error refusal => ({ status := refusal, serverIdentity := identity }, s)
  | .ok request =>
    if request.clientProtocol ≠ frameVersion then
      ({ status := .make .unsupported .unsupportedVersion request.clientProtocol.toUInt64
         serverIdentity := identity }, s)
    else if Limits.maxSessions ≤ s.sessions.length then
      ({ status := .make .exhausted .boundedTableFull, serverIdentity := identity }, s)
    else
      let session := tryIncrement s.nextSession
      let incarnation := tryIncrement s.nextIncarnation
      let binding : SessionBinding := {
        session := session
        node := request.node
        boot := incarnation
        incarnation := incarnation
        kind := request.kind }
      ({ status := .ok, session := session, boot := incarnation, incarnation := incarnation
         serverProtocol := frameVersion, serverIdentity := identity, firstRequest := 1 },
        { s.bind connection binding with
          sessions := s.sessions ++ [binding]
          nextSession := session
          nextIncarnation := incarnation })

/-- A frame of a connection whose hello was accepted. -/
def answerBound (connection : Nat) (frame : Frame) (s : WitnessServer) : Answer × WitnessServer :=
  let binding := s.bindings connection
  if frame.header.requestId ≤ binding.lastRequest then
    ({ stop := some true
       reply := some ⟨.errorResponse, {
         status := .make .invalid .requestIdRegression frame.header.requestId
         detail := ascii "request id must strictly increase" }⟩ }, s)
  else
    let binding := { binding with lastRequest := frame.header.requestId }
    let s := s.bind connection binding
    match frame.header.type with
    | .attestRequest =>
      let (response, service) := s.service.attestReply frame.payload binding
      ({ type := .attestResponse
         reply := some ⟨.attestResponse, response⟩
         stop := if response.status.isOk then none
           else some (response.status.reason = .sessionMismatch) },
        { s with service := service })
    | .witnessStatusRequest =>
      ({ type := .witnessStatusResponse
         reply := some ⟨.witnessStatusResponse, s.service.statusReply frame.payload⟩ }, s)
    | _ =>
      ({ reply := some ⟨.errorResponse, {
           status := .make .unsupported .invalidEnum
           detail := ascii "unsupported message type" }⟩ }, s)

def answer (connection : Nat) (frame : Frame) (s : WitnessServer) : Answer × WitnessServer :=
  if (s.bindings connection).session = 0 then
    if frame.header.type = .helloRequest then
      let (response, s) := s.hello connection frame.payload
      ({ type := .helloResponse
         reply := some ⟨.helloResponse, response⟩
         stop := if response.status.isOk then none else some true }, s)
    else ({ stop := some true }, s)
  else s.answerBound connection frame

/-- A configured witness that was started, and any frames on any connections after that. -/
inductive Reachable : WitnessServer → Prop where
  | start {config : WitnessConfig} {service : WitnessService}
      (configured : (WitnessService.configure config).exec {} = (.ok ⟨⟩, service)) :
      Reachable { service := { service with clock := tryIncrement service.clock } }
  | receive {s : WitnessServer} (reachable : Reachable s) (connection : Nat) (frame : Frame) :
      Reachable (s.answer connection frame).2

end WitnessServer

namespace WitnessService

/-- What is remembered of the subject allows the request, or there is room to remember it. -/
def Accommodates (request : AttestRequest) (s : WitnessService) : Prop :=
  match s.subjects.find (keyFor request.subjectDomain request.subjectScope.digest) with
  | some previous => previous.epoch ≤ request.epoch ∧ (request.epoch = previous.epoch →
      previous.incarnation = request.incarnation ∧ request.fenceToken = previous.fenceToken)
  | none => s.subjects.size < s.config.maxSubjects.toNat

/-- The witness has nothing against the request. -/
structure Admits (request : AttestRequest) (s : WitnessService) : Prop where
  domain : request.subjectDomain.isEmpty = false
  scope : request.subjectScope.isEmpty = false
  holder : request.epoch ≠ 0 ∧ request.incarnation ≠ 0 ∧ request.fenceToken ≠ 0
  step : request.requesterStep ≠ 0
  clock : s.clock ≠ maxWord
  memory : s.Accommodates request
  sequence : s.lastSequence ≠ maxWord

theorem contradiction_eq_none {previous : AttestedSubject} {request : AttestRequest}
    {s : WitnessService} : contradiction previous request s = none ↔
      previous.epoch ≤ request.epoch ∧ (request.epoch = previous.epoch →
        previous.incarnation = request.incarnation ∧ request.fenceToken = previous.fenceToken) := by
  unfold contradiction
  by_cases below : request.epoch < previous.epoch
  · simp [below]
  · by_cases same : request.epoch = previous.epoch
    · by_cases holder : previous.incarnation = request.incarnation
      · by_cases token : request.fenceToken = previous.fenceToken
        · simp [same, holder, token]
        · simp [same, holder, token]
      · simp [same, holder]
    · simp [below, same, not_lt.mp below]

theorem objection_eq_none {request : AttestRequest} {s : WitnessService} :
    objection request s = none ↔ s.Accommodates request := by
  unfold objection Accommodates
  cases s.subjects.find (keyFor request.subjectDomain request.subjectScope.digest) with
  | some previous => exact contradiction_eq_none
  | none => simp

theorem attest_granted {request : AttestRequest} {s s' : WitnessService} {a : WitnessAttestation}
    (ran : (attest request).exec s = (.ok a, s')) : s.Admits request ∧
      a.witness = s.config.witness ∧ a.subjectDomain = request.subjectDomain := by
  obtain ⟨domain, ran⟩ := Prog.refuseIf_ok ran
  obtain ⟨scope, ran⟩ := Prog.refuseIf_ok ran
  obtain ⟨holder, ran⟩ := Prog.refuseIf_ok ran
  obtain ⟨step, ran⟩ := Prog.refuseIf_ok ran
  rw [Prog.exec_get_bind] at ran
  obtain ⟨clock, ran⟩ := Prog.refuseIf_ok ran
  rw [Prog.exec_modify_bind, Prog.exec_get_bind] at ran
  cases quiet : objection request { s with clock := s.clock + 1 } with
  | some refusal => rw [quiet] at ran; cases ran
  | none =>
    rw [quiet] at ran
    obtain ⟨sequence, ran⟩ := Prog.refuseIf_ok ran
    cases ran
    simp only [not_or] at holder
    have memory := objection_eq_none.mp quiet
    exact ⟨⟨by simpa using domain, by simpa using scope, holder, step, clock, memory, sequence⟩,
      rfl, rfl⟩

/-- The service at the point where it takes down a statement. -/
def numbering (s : WitnessService) : WitnessService :=
  { s with clock := s.clock + 1, lastSequence := s.lastSequence + 1 }

def stating (request : AttestRequest) (s : WitnessService) : WitnessAttestation :=
  statement request s.numbering (remember request s.numbering)

def attested (request : AttestRequest) (s : WitnessService) : WitnessService :=
  { s.numbering with
    subjects := s.subjects.put (remember request s.numbering)
    issued := s.issued + 1 }

theorem attest_exec {request : AttestRequest} {s : WitnessService} (admits : s.Admits request) :
    (attest request).exec s = (.ok (stating request s), attested request s) := by
  have quiet : objection request { s with clock := s.clock + 1 } = none :=
    objection_eq_none.mpr admits.memory
  have holder : ¬ (request.epoch = 0 ∨ request.incarnation = 0 ∨ request.fenceToken = 0) := by
    simp only [not_or]
    exact admits.holder
  simp only [attest, Prog.exec_refuseIf, Prog.exec_get_bind, Prog.exec_modify_bind,
    admits.domain, admits.scope, holder, admits.step, admits.clock, quiet, admits.sequence]
  rfl

/-- The payload is a request of this session that the witness admits. -/
def Grants (payload : Bytes) (binding : SessionBinding) (s : WitnessService) : Prop :=
  ∃ request, Reader.decode AttestRequest.decode payload = .ok request ∧
    (request.envelope.validateAgainst binding).isOk = true ∧ s.Admits request

/-- A response can be read exactly when it carries an attestation. -/
theorem attestReply_encodable_iff {payload : Bytes} {binding : SessionBinding}
    {s : WitnessService} (named : s.config.witness.isEmpty = false) :
    (s.attestReply payload binding).1.Encodable ↔ s.Grants payload binding := by
  unfold attestReply Grants
  cases read : Reader.decode AttestRequest.decode payload with
  | error refusal => simp [AttestResponse.Encodable, WitnessAttestation.Encodable]
  | ok request =>
    by_cases bound : (request.envelope.validateAgainst binding).isOk = true
    · simp only [if_pos bound]
      constructor
      · intro encodable
        cases ran : (attest request).exec s with
        | mk result s' =>
          cases result with
          | error refusal =>
            rw [ran] at encodable
            cases encodable.1
          | ok a => exact ⟨request, rfl, bound, (attest_granted ran).1⟩
      · rintro ⟨_, same, -, admits⟩
        cases same
        have ran := attest_exec admits
        obtain ⟨-, witness, domain⟩ := attest_granted ran
        rw [ran]
        exact ⟨witness ▸ named, domain ▸ admits.domain⟩
    · simp [bound, AttestResponse.Encodable, WitnessAttestation.Encodable]

theorem statusReply_encodable_iff {payload : Bytes} {s : WitnessService}
    (named : s.config.witness.isEmpty = false) (placed : s.config.faultDomain.isEmpty = false) :
    (s.statusReply payload).Encodable ↔
      ∃ request, Reader.decode WitnessStatusRequest.decode payload = .ok request := by
  unfold statusReply
  cases read : Reader.decode WitnessStatusRequest.decode payload with
  | error refusal => simp [WitnessStatusResponse.Encodable]
  | ok request => simp [WitnessStatusResponse.Encodable, named, placed]

theorem attestReply_config (payload : Bytes) (binding : SessionBinding) (s : WitnessService) :
    (s.attestReply payload binding).2.config = s.config := by
  unfold attestReply
  cases Reader.decode AttestRequest.decode payload with
  | error refusal => rfl
  | ok request =>
    by_cases bound : (request.envelope.validateAgainst binding).isOk = true
    · simp only [if_pos bound]
      cases ran : (attest request).exec s with
      | mk result s' =>
        cases result with
        | error refusal => exact (attest_error ran).2
        | ok a => exact (attest_ok ran).2.2.1
    · simp only [if_neg bound]

end WitnessService

namespace WitnessServer

theorem hello_config (connection : Nat) (payload : Bytes) (s : WitnessServer) :
    (s.hello connection payload).2.service.config = s.service.config := by
  unfold hello
  cases Reader.decode HelloRequest.decode payload with
  | error refusal => rfl
  | ok request =>
    simp only
    split
    · rfl
    · split
      · rfl
      · rfl

theorem answerBound_config (connection : Nat) (frame : Frame) (s : WitnessServer) :
    (s.answerBound connection frame).2.service.config = s.service.config := by
  simp only [answerBound]
  split
  · rfl
  · cases frame.header.type with
    | attestRequest => exact WitnessService.attestReply_config _ _ _
    | _ => rfl

theorem answer_config (connection : Nat) (frame : Frame) (s : WitnessServer) :
    (s.answer connection frame).2.service.config = s.service.config := by
  unfold answer
  split
  · split
    · exact hello_config connection frame.payload s
    · rfl
  · exact answerBound_config connection frame s

/-- Started witnesses have names to sign with. -/
theorem Reachable.named {s : WitnessServer} (reachable : s.Reachable) :
    s.service.config.witness.isEmpty = false ∧ s.service.config.faultDomain.isEmpty = false := by
  induction reachable with
  | start configured =>
    rw [WitnessService.configure_ok configured]
    obtain ⟨named, -⟩ := Prog.refuseIf_ok configured
    simpa using named
  | receive reachable connection frame ih => rwa [answer_config]

/-- The client can read the answer with the decoder that belongs to it. -/
def Readable (a : Answer) : Prop := ∃ w, a.reply = some w ∧ w.Transportable

/-- What the request and the state have to be for the answer to be readable. -/
def Answerable (connection : Nat) (frame : Frame) (s : WitnessServer) : Prop :=
  frame.header.requestId ≤ (s.bindings connection).lastRequest ∨
    (frame.header.type = .witnessStatusRequest ∧
      ∃ request, Reader.decode WitnessStatusRequest.decode frame.payload = .ok request) ∨
    (frame.header.type = .attestRequest ∧
      s.service.Grants frame.payload (s.bindings connection))

theorem readable_iff {a : Answer} {w : WireValue} (replied : a.reply = some w) :
    Readable a ↔ w.kind.codec.Encodable w.value := by
  rw [← WireValue.transportable_iff, Readable]
  constructor
  · rintro ⟨_, same, transportable⟩
    cases replied.symm.trans same
    exact transportable
  · exact fun transportable => ⟨w, replied, transportable⟩

theorem reply_attest {s : WitnessServer} {connection : Nat} {frame : Frame}
    (established : (s.bindings connection).session ≠ 0)
    (fresh : ¬ frame.header.requestId ≤ (s.bindings connection).lastRequest)
    (asked : frame.header.type = .attestRequest) :
    (s.answer connection frame).1.reply = some ⟨.attestResponse, (s.service.attestReply
      frame.payload { s.bindings connection with lastRequest := frame.header.requestId }).1⟩ := by
  rw [answer, if_neg established]
  simp only [answerBound, if_neg fresh, asked]
  rfl

theorem unreadable_of_refused {s : WitnessServer} {connection : Nat} {frame : Frame}
    {refusal : Status} (established : (s.bindings connection).session ≠ 0)
    (fresh : ¬ frame.header.requestId ≤ (s.bindings connection).lastRequest)
    (asked : frame.header.type = .attestRequest)
    (refused : (s.service.attestReply frame.payload
      { s.bindings connection with lastRequest := frame.header.requestId }).1 =
        { status := refusal }) : ¬ Readable (s.answer connection frame).1 := by
  rw [readable_iff (reply_attest established fresh asked), refused]
  rintro ⟨named, -⟩
  cases named

/-- An answer can be read exactly if it is no refusal of an attest request, and no answer to
a status request that could not be read either. -/
theorem readable_answer_iff {s : WitnessServer} (reachable : s.Reachable) {connection : Nat}
    {frame : Frame} (established : (s.bindings connection).session ≠ 0)
    (asked : frame.header.type = .attestRequest ∨ frame.header.type = .witnessStatusRequest) :
    Readable (s.answer connection frame).1 ↔ s.Answerable connection frame := by
  obtain ⟨named, placed⟩ := reachable.named
  by_cases stale : frame.header.requestId ≤ (s.bindings connection).lastRequest
  · simp only [Answerable, stale, true_or, iff_true]
    rw [answer, if_neg established,
      readable_iff (by simp only [answerBound, if_pos stale]; rfl)]
    show (ascii "request id must strictly increase").length ≤ Limits.maxExplanationBytes
    decide
  · rcases asked with attest | status
    · rw [readable_iff (reply_attest established stale attest)]
      refine (WitnessService.attestReply_encodable_iff named).trans ?_
      simp only [Answerable, stale, attest, reduceCtorEq, false_and, false_or, true_and]
      exact Iff.rfl
    · rw [answer, if_neg established,
        readable_iff (by simp only [answerBound, if_neg stale, status]; rfl)]
      refine (WitnessService.statusReply_encodable_iff named placed).trans ?_
      simp [Answerable, stale, status]

section Rivals

def rivalConfig : WitnessConfig := { witness := Id.make [119], faultDomain := Id.make [102] }

def rivalStart : WitnessServer := { service := { config := rivalConfig, clock := 1 } }

def rivalHello : Frame where
  header := { type := .helloRequest }
  payload := HelloRequest.encode { node := Id.make [110] }

/-- A witness that one client has greeted. -/
def rivalGreeted : WitnessServer := (rivalStart.answer 0 rivalHello).2

theorem rivalExtent_named : (Id.make [120] : ExtentId).isEmpty = false := by decide

/-- The claim of an incarnation to epoch one of a scope. -/
def rivalClaim (requestId : RequestId) (incarnation : IncarnationId) : Frame where
  header := { type := .attestRequest, requestId := requestId }
  payload := AttestRequest.encode {
    envelope := { session := 1, node := Id.make [110], boot := 1, incarnation := 1 }
    subjectDomain := Id.make [100]
    subjectScope := Scope.single (Id.make [120]) rivalExtent_named
    epoch := 1
    incarnation := incarnation
    fenceToken := 1
    requesterStep := 1 }

/-- The same witness after it attested the claim of the first incarnation. -/
def rivalAttested : WitnessServer := (rivalGreeted.answer 0 (rivalClaim 1 1)).2

theorem rivalGreeted_reachable : rivalGreeted.Reachable :=
  .receive (.start (rfl : (WitnessService.configure rivalConfig).exec {} = _)) 0 rivalHello

theorem rivalAttested_reachable : rivalAttested.Reachable :=
  .receive rivalGreeted_reachable 0 (rivalClaim 1 1)

theorem readable_answer_first :
    Readable (rivalGreeted.answer 0 (rivalClaim 1 1)).1 ↔
      rivalGreeted.Answerable 0 (rivalClaim 1 1) :=
  readable_answer_iff rivalGreeted_reachable (by decide +kernel) (by decide +kernel)

/-- The witness refuses the second incarnation, and the client cannot read the refusal. -/
theorem conflict_unreadable : ¬ ∀ (s : WitnessServer), s.Reachable → ∀ connection frame,
    (s.bindings connection).session ≠ 0 →
    (frame.header.type = .attestRequest ∨ frame.header.type = .witnessStatusRequest) →
    Readable (s.answer connection frame).1 := by
  intro readable
  have established : (rivalAttested.bindings 0).session ≠ 0 := by decide +kernel
  have fresh : ¬ (rivalClaim 2 2).header.requestId ≤ (rivalAttested.bindings 0).lastRequest := by
    decide +kernel
  have unsigned : (rivalAttested.service.attestReply (rivalClaim 2 2).payload
      { rivalAttested.bindings 0 with lastRequest := (rivalClaim 2 2).header.requestId }).1 =
        { status := .make .conflict .conflictingAttestations 1 } := by decide +kernel
  refine unreadable_of_refused established fresh rfl unsigned ?_
  exact readable rivalAttested rivalAttested_reachable 0 (rivalClaim 2 2) established (.inl rfl)

end Rivals

end WitnessServer

end SplitBrainFabric
