import SplitBrainFabric.OperationFrames
import SplitBrainFabric.Service

/-! What a handler comes to: a frame of a session asks for one operation of the registry,
and what the operation emitted is written before it is answered. -/

namespace SplitBrainFabric
open Words

/-- The answer to an operation, once its records are written. -/
def Op.reply (now : Step) (w : Work) : Op → MessageType × Option WireValue
  | .defineDomain d => (.defineDomainResponse, some ⟨.defineDomainResponse, {
      status := match ((Work.defineDomain d now).exec w).1 with
        | .ok _ => .ok
        | .error refusal => refusal
      domainGeneration := ((Work.defineDomain d now).exec w).2.state.generation }⟩)
  | .allocateEpoch request => (.allocateEpochResponse,
      some ⟨.allocateEpochResponse, Prog.answer ((Work.allocateEpoch request now).exec w).1⟩)
  | .decide request sorting => (.decideResponse,
      some ⟨.decideResponse, Prog.answer ((Work.decide sorting request now).exec w).1⟩)
  | .commit request io => (.commitResponse,
      some ⟨.commitResponse, Prog.answer ((Work.commit request now io).exec w).1⟩)
  | .fence request => (.fenceResponse,
      some ⟨.fenceResponse, Prog.answer ((Work.fence request now).exec w).1⟩)
  | .release request => (.releaseResponse,
      some ⟨.releaseResponse, Prog.answer ((Work.release request now).exec w).1⟩)
  | .definePolicy _ | .allocateIncarnation | .recoverAfterRestart => (.errorResponse, none)

/-- Decisions are the one operation whose handler writes nothing. -/
def Op.records : Op → Bool
  | .decide _ _ => false
  | _ => true

namespace RegistryService

variable {io : RequestIo} {frame : Frame} {binding : SessionBinding} {s s' : RegistryService}

/-- A payload that is a request of this session. -/
def asRequest {ρ : Type} (read : Reader.Read ρ) (envelope : ρ → RequestEnvelope) (payload : Bytes)
    (binding : SessionBinding) : Option ρ :=
  match Reader.decode read payload with
  | .ok request => if (checkEnvelope (envelope request) binding).isOk then some request else none
  | .error _ => none

/-- The operation a frame of a session asks for. -/
def asked (io : RequestIo) (frame : Frame) (binding : SessionBinding) : Option Op :=
  if binding.session = 0 then none
  else match frame.header.type with
    | .defineDomainRequest =>
      (asRequest DefineDomainRequest.decode (·.envelope) frame.payload binding).map
        (.defineDomain ·.definition)
    | .allocateEpochRequest =>
      (asRequest AllocateEpochRequest.decode (·.envelope) frame.payload binding).bind fun request =>
        if request.incarnation ≠ request.envelope.incarnation ∨
          request.boot ≠ request.envelope.boot ∨ binding.kind ≠ .coordinator then none
        else some (.allocateEpoch request)
    | .decideRequest =>
      (asRequest DecideRequest.decode (·.envelope) frame.payload binding).map
        (.decide · io.sorting)
    | .commitRequest =>
      (asRequest CommitRequest.decode (·.envelope) frame.payload binding).bind fun request =>
        if binding.kind ≠ .coordinator then none else some (.commit request io.fabric)
    | .fenceRequest => (asRequest FenceRequest.decode (·.envelope) frame.payload binding).map .fence
    | .releaseRequest =>
      (asRequest ReleaseRequest.decode (·.envelope) frame.payload binding).map .release
    | _ => none

/-- The service with its clock moved on by one. -/
def ticked (s : RegistryService) : RegistryService :=
  { s with state := { s.state with clock := s.state.clock + 1 } }

/-- What an operation of the next step finds. -/
def work (s : RegistryService) : Work := { state := s.ticked.state }

/-- The service behind an operation, with nothing of it written yet. -/
def performed (s : RegistryService) (op : Op) : RegistryService :=
  { s with state := (op.after (s.state.clock + 1) s.work).state }

/-- The records of an operation of the next step. -/
def produced (s : RegistryService) (op : Op) : List JournalRecord :=
  (op.after (s.state.clock + 1) s.work).emitted

/-- How a handler ends: without an operation, at the last step of the clock, or with an
operation whose records were written or not. -/
inductive Handled (io : RequestIo) (frame : Frame) (binding : SessionBinding)
    (s : RegistryService) : Except Status (MessageType × Option WireValue) → RegistryService → Prop
  | idle {r : Except Status (MessageType × Option WireValue)}
    (silent : asked io frame binding = none) : Handled io frame binding s r s
  | timeless {op : Op} (asks : asked io frame binding = some op)
    (full : s.state.clock = maxWord) :
    Handled io frame binding s (.error (.make .exhausted .counterOverflow)) s
  | unrecorded {op : Op} (asks : asked io frame binding = some op)
    (room : s.state.clock ≠ maxWord) (aside : op.records = false) :
    Handled io frame binding s (.ok (op.reply (s.state.clock + 1) s.work)) (s.performed op)
  | written {op : Op} {s' : RegistryService} (asks : asked io frame binding = some op)
    (room : s.state.clock ≠ maxWord) (records : op.records = true)
    (appended : (appendRecords io (s.produced op)).exec (s.performed op) = (.ok ⟨⟩, s')) :
    Handled io frame binding s (.ok (op.reply (s.state.clock + 1) s.work)) s'
  | unwritten {op : Op} {st : Status} {s' : RegistryService}
    (asks : asked io frame binding = some op) (room : s.state.clock ≠ maxWord)
    (records : op.records = true)
    (appended : (appendRecords io (s.produced op)).exec (s.performed op) = (.error st, s')) :
    Handled io frame binding s (.error st) s'

theorem advance_exec : (onRegistry advance).exec s = if s.state.clock = maxWord then
    (.error (.make .exhausted .counterOverflow), s) else (.ok (s.state.clock + 1), s.ticked) := by
  rw [onRegistry, Prog.exec_zoom, advance, Prog.exec_get_bind, Prog.exec_refuseIf]
  by_cases full : s.state.clock = maxWord
  · rw [if_pos full, if_pos full]
  · rw [if_neg full, if_neg full]
    rfl

theorem exec_perform {ε α β : Type} (m : Prog ε Work α)
    (f : Except ε α × List JournalRecord → Prog Status RegistryService β) :
    (perform m >>= f).exec s =
      (f ((m.exec { state := s.state }).1, (m.exec { state := s.state }).2.emitted)).exec
        { s with state := (m.exec { state := s.state }).2.state } := by
  rw [Prog.exec_bind]
  rfl

/-- A handler that starts by looking whether the payload is a request of this session. -/
theorem received_handled {ρ : Type} {read : Reader.Read ρ} {envelope : ρ → RequestEnvelope}
    {f : ρ → Handler} {r : Except Status (MessageType × Option WireValue)}
    (silent : asRequest read envelope frame.payload binding = none →
      asked io frame binding = none)
    (handled : ∀ request, asRequest read envelope frame.payload binding = some request →
      (f request).exec s = (r, s') → Handled io frame binding s r s')
    (ran : (received read envelope frame.payload binding >>= f).exec s = (r, s')) :
    Handled io frame binding s r s' := by
  unfold asRequest at silent handled
  rw [Prog.exec_bind, received, Prog.exec_ofExcept_bind] at ran
  cases decoded : Reader.decode read frame.payload with
  | error st =>
    rw [decoded] at ran silent
    cases ran
    exact .idle (silent rfl)
  | ok request =>
    rw [decoded] at ran silent handled
    simp only [Prog.exec_refuseIf] at ran
    cases mine : (checkEnvelope (envelope request) binding).isOk with
    | false =>
      rw [mine] at ran
      cases ran
      exact .idle (silent (if_neg (by simp [mine])))
    | true =>
      rw [mine] at ran
      exact handled request (if_pos mine) ran

/-- An operation whose records are written before it answers. -/
theorem operate_handled {ρ : Type} (op : Op) {m : Step → Prog ρ Work ρ}
    {answer : ρ → MessageType × Option WireValue}
    {r : Except Status (MessageType × Option WireValue)} (asks : asked io frame binding = some op)
    (records : op.records = true) (after : ∀ now w, ((m now).exec w).2 = op.after now w)
    (reply : ∀ now w, answer (Prog.answer ((m now).exec w).1) = op.reply now w)
    (ran : (operate io m >>= fun response => pure (answer response)).exec s = (r, s')) :
    Handled io frame binding s r s' := by
  by_cases full : s.state.clock = maxWord
  · have stopped : (operate io m).exec s = (.error (.make .exhausted .counterOverflow), s) :=
      Prog.exec_bind_error (advance_exec.trans (if_pos full))
    rw [Prog.exec_bind_error stopped] at ran
    cases ran
    exact .timeless asks full
  have moved : (onRegistry advance).exec s = (.ok (s.state.clock + 1), s.ticked) :=
    advance_exec.trans (if_neg full)
  have same : (m (s.state.clock + 1)).exec { state := s.ticked.state } =
      (((m (s.state.clock + 1)).exec s.work).1, op.after (s.state.clock + 1) s.work) := by
    rw [← after]
    rfl
  have before : (operate io m).exec s = (appendRecords io (s.produced op) >>= fun _ =>
      pure (Prog.answer ((m (s.state.clock + 1)).exec s.work).1)).exec (s.performed op) := by
    rw [operate, Prog.exec_bind_ok moved, exec_perform, same]
    rfl
  rcases appended : (appendRecords io (s.produced op)).exec (s.performed op) with ⟨result, t⟩
  cases result with
  | error st =>
    rw [Prog.exec_bind_error appended] at before
    rw [Prog.exec_bind_error before] at ran
    cases ran
    exact .unwritten asks full records appended
  | ok u =>
    rw [Prog.exec_bind_ok appended] at before
    rw [Prog.exec_bind_ok before] at ran
    cases ran
    rw [reply]
    exact .written asks full records appended

theorem handleDefineDomain_handled {r : Except Status (MessageType × Option WireValue)}
    {request : DefineDomainRequest}
    (asks : asked io frame binding = some (.defineDomain request.definition))
    (ran : (do
      let now ← onRegistry advance
      let (result, records) ← perform (Work.defineDomain request.definition now)
      let s ← get
      appendRecords io records
      pure (.defineDomainResponse, some ⟨.defineDomainResponse, {
        status := match result with
          | .ok _ => .ok
          | .error refusal => refusal
        domainGeneration := s.state.generation }⟩) : Handler).exec s = (r, s')) :
    Handled io frame binding s r s' := by
  by_cases full : s.state.clock = maxWord
  · rw [Prog.exec_bind_error (advance_exec.trans (if_pos full))] at ran
    cases ran
    exact .timeless asks full
  rw [Prog.exec_bind_ok (advance_exec.trans (if_neg full)), exec_perform, Prog.exec_get_bind] at ran
  rcases appended : (appendRecords io (s.produced (.defineDomain request.definition))).exec
    (s.performed (.defineDomain request.definition)) with ⟨result, t⟩
  cases result with
  | error st =>
    have ran := (Prog.exec_bind_error appended).symm.trans ran
    cases ran
    exact .unwritten asks full rfl appended
  | ok u =>
    have ran := (Prog.exec_bind_ok appended).symm.trans ran
    cases ran
    exact .written asks full rfl appended

theorem handleDecide_handled {r : Except Status (MessageType × Option WireValue)}
    {request : DecideRequest} (asks : asked io frame binding = some (.decide request io.sorting))
    (ran : (do
      let now ← onRegistry advance
      let (result, _) ← perform (Work.decide io.sorting request now)
      pure (.decideResponse, some ⟨.decideResponse, Prog.answer result⟩) : Handler).exec s =
        (r, s')) : Handled io frame binding s r s' := by
  by_cases full : s.state.clock = maxWord
  · rw [Prog.exec_bind_error (advance_exec.trans (if_pos full))] at ran
    cases ran
    exact .timeless asks full
  rw [Prog.exec_bind_ok (advance_exec.trans (if_neg full)), exec_perform] at ran
  cases ran
  exact .unrecorded asks full rfl

theorem handleRequest_handled {r : Except Status (MessageType × Option WireValue)}
    (bound : binding.session ≠ 0) (ran : (handleRequest io frame binding).exec s = (r, s')) :
    Handled io frame binding s r s' := by
  rw [handleRequest, Prog.exec_refuseIf, if_neg bound] at ran
  cases type : frame.header.type with
  | defineDomainRequest =>
    simp only [type] at ran
    refine received_handled (fun none => ?_) (fun request found ran => ?_) ran
    · simp [asked, bound, type, none]
    · exact handleDefineDomain_handled (by simp [asked, bound, type, found]) ran
  | allocateEpochRequest =>
    simp only [type] at ran
    refine received_handled (fun none => ?_) (fun request found ran => ?_) ran
    · simp [asked, bound, type, none]
    rw [Prog.exec_refuseIf] at ran
    by_cases named : request.incarnation ≠ request.envelope.incarnation ∨
      request.boot ≠ request.envelope.boot
    · rw [if_pos named] at ran
      cases ran
      exact .idle (by simp [asked, bound, type, found, ← or_assoc, named])
    rw [if_neg named, Prog.exec_refuseIf] at ran
    by_cases kind : binding.kind ≠ .coordinator
    · rw [if_pos kind] at ran
      cases ran
      exact .idle (by simp [asked, bound, type, found, kind])
    rw [if_neg kind] at ran
    refine operate_handled (.allocateEpoch request) ?_ rfl (fun _ _ => rfl) (fun _ _ => rfl)
      ran
    have passes : ¬ (request.incarnation ≠ request.envelope.incarnation ∨
        request.boot ≠ request.envelope.boot ∨ binding.kind ≠ .coordinator) := by
      rw [← or_assoc]
      exact not_or.mpr ⟨named, kind⟩
    simp only [asked, if_neg bound, type, found, Option.bind_some, if_neg passes]
  | decideRequest =>
    simp only [type] at ran
    refine received_handled (fun none => ?_) (fun request found ran => ?_) ran
    · simp [asked, bound, type, none]
    · exact handleDecide_handled (by simp [asked, bound, type, found]) ran
  | commitRequest =>
    simp only [type] at ran
    refine received_handled (fun none => ?_) (fun request found ran => ?_) ran
    · simp [asked, bound, type, none]
    rw [Prog.exec_refuseIf] at ran
    by_cases kind : binding.kind ≠ .coordinator
    · rw [if_pos kind] at ran
      cases ran
      exact .idle (by simp [asked, bound, type, found, kind])
    rw [if_neg kind] at ran
    refine operate_handled (.commit request io.fabric) ?_ rfl (fun _ _ => rfl)
      (fun _ _ => rfl) ran
    simp only [asked, if_neg bound, type, found, Option.bind_some, if_neg kind]
  | fenceRequest =>
    simp only [type] at ran
    refine received_handled (fun none => ?_) (fun request found ran => ?_) ran
    · simp [asked, bound, type, none]
    · exact operate_handled (.fence request) (by simp [asked, bound, type, found]) rfl
        (fun _ _ => rfl) (fun _ _ => rfl) ran
  | releaseRequest =>
    simp only [type] at ran
    refine received_handled (fun none => ?_) (fun request found ran => ?_) ran
    · simp [asked, bound, type, none]
    · exact operate_handled (.release request) (by simp [asked, bound, type, found]) rfl
        (fun _ _ => rfl) (fun _ _ => rfl) ran
  | inspectRequest =>
    simp only [type] at ran
    refine received_handled (fun _ => ?_) (fun _ _ ran => ?_) ran
    · simp [asked, bound, type]
    · cases ran
      exact .idle (by simp [asked, bound, type])
  | _ =>
    simp only [type] at ran
    cases ran
    exact .idle (by simp [asked, bound, type])

theorem handleFrame_handled {r : Except Status (MessageType × Option WireValue)}
    (ran : (handleFrame io frame binding).exec s = (r, s')) : Handled io frame binding s r s' := by
  by_cases bound : binding.session = 0
  · have none : asked io frame binding = none := if_pos bound
    have idle : ∀ {r}, (handleRequest io frame binding).exec s = (r, s') → s' = s := by
      intro r ran
      rw [handleRequest, Prog.exec_refuseIf, if_pos bound] at ran
      cases ran
      rfl
    unfold handleFrame at ran
    split at ran
    · cases ran; exact .idle none
    · cases ran; exact .idle none
    · cases idle ran; exact .idle none
  · unfold handleFrame at ran
    split at ran
    · rename_i type
      cases ran
      exact .idle (by simp [asked, bound, type])
    · rename_i type
      cases ran
      exact .idle (by simp [asked, bound, type])
    · exact handleRequest_handled bound ran

end RegistryService
end SplitBrainFabric
