import SplitBrainFabric.Codecs
import SplitBrainFabric.Operations
import SplitBrainFabric.Restart
import SplitBrainFabric.Snapshot
import SplitBrainFabric.Store

/-! The registry behind its sessions: the handshake, the handlers, and what every request
writes to the store before it is answered. -/

namespace SplitBrainFabric
open Words

/-- `to_string` of a status. -/
def Status.text (st : Status) : Bytes :=
  ascii (st.outcome.name ++ ":" ++ st.reason.name) ++
    if st.aux = 0 then [] else ascii "#" ++ hexU64 st.aux

/-- Violations of identity and of framing end a connection, refusals do not. -/
def closesConnection : Reason → Bool
  | .sessionMismatch | .badMagic | .invalidEnum | .truncatedFrame | .oversizedPayload
  | .stickyFailure | .integrityMismatch | .unsupportedVersion => true
  | _ => false

/-- What the disk does under one request, and what `std::sort` does with equal keys. -/
structure RequestIo where
  fabric : AppendIo := .done
  journal : Nat → AppendIo := fun _ => .done
  checkpoint : CheckpointIo := .done
  sorting : Sorting := {}

structure RegistryService where
  config : RegistryConfig := {}
  store : Store := {}
  state : RegistryState := {}
  sessions : SortedTable SessionBinding.session := SortedTable.empty
  nextSession : SessionId := 0
  recordsSinceCheckpoint : UInt64 := 0
  handledRequests : UInt64 := 0
  rejectedRequests : UInt64 := 0
  poisonEvents : UInt64 := 0
  stopping : Bool := false

namespace RegistryService

def onRegistry {α : Type} (m : Prog Status RegistryState α) : Prog Status RegistryService α :=
  Prog.zoom (·.state) (fun t s => { s with state := t }) m

def onStore {α : Type} (m : Prog Status Store α) : Prog Status RegistryService α :=
  Prog.zoom (·.store) (fun t s => { s with store := t }) m

/-- An operation of the registry, with the records it emitted whichever way it ended. -/
def perform {ε α : Type} (m : Prog ε Work α) :
    Prog Status RegistryService (Except ε α × List JournalRecord) := fun s =>
  let (result, w) := m.exec { state := s.state }
  (.ok (result, w.emitted), { s with state := w.state })

def appendRecords (io : RequestIo) (records : List JournalRecord) :
    Prog Status RegistryService PUnit := do
  records.zipIdx.forM fun (record, i) => do
    onStore (Store.append record (io.journal i))
    modify fun s => { s with recordsSinceCheckpoint := s.recordsSinceCheckpoint + 1 }
  let s ← get
  if s.config.checkpointEveryRecords ≤ s.recordsSinceCheckpoint then do
    onStore (Store.checkpoint s.state.serialize s.store.lastSequence s.state.clock io.checkpoint)
    modify fun s => { s with recordsSinceCheckpoint := 0 }
  else pure ⟨⟩

def releaseSession (session : SessionId) (s : RegistryService) : RegistryService :=
  { s with sessions := s.sessions.erase session }

def handleHello (io : RequestIo) (request : HelloRequest) :
    Prog Status RegistryService SessionBinding := do
  Prog.refuseIf (request.node.isEmpty = true) (.make .invalid .emptyValue)
  Prog.refuseIf (request.clientProtocol ≠ frameVersion)
    (.make .unsupported .unsupportedVersion request.clientProtocol.toUInt64)
  let s ← get
  Prog.refuseIf (s.config.maxSessions.toNat ≤ s.sessions.size)
    (.make .exhausted .boundedTableFull (UInt64.ofNat s.sessions.size))
  let now ← onRegistry advance
  let (allocated, records) ← perform (Work.allocateIncarnation now)
  let incarnation ← Prog.ofExcept allocated
  appendRecords io records
  let s ← get
  let binding : SessionBinding := {
    session := tryIncrement s.nextSession
    node := request.node
    boot := s.state.boot.boot
    incarnation := incarnation
    kind := request.kind }
  set { s with nextSession := binding.session, sessions := s.sessions.emplace binding }
  pure binding

def greeting (config : RegistryConfig) (binding : SessionBinding) : HelloResponse where
  status := .ok
  session := binding.session
  boot := binding.boot
  incarnation := binding.incarnation
  serverProtocol := frameVersion
  serverIdentity := config.node.value
  firstRequest := 1

def checkEnvelope (envelope : RequestEnvelope) (binding : SessionBinding) : Status :=
  let bound := envelope.validateAgainst binding
  if bound.isOk = false then bound
  else if envelope.incarnation ≠ binding.incarnation then .make .invalid .sessionMismatch 4
  else .ok

/-- A payload that is a request of this session. -/
def received {ρ : Type} (read : Reader.Read ρ) (envelope : ρ → RequestEnvelope) (payload : Bytes)
    (binding : SessionBinding) : Prog Status RegistryService ρ := do
  let request ← Prog.ofExcept (Reader.decode read payload)
  let checked := checkEnvelope (envelope request) binding
  Prog.refuseIf (checked.isOk = false) checked
  pure request

abbrev Handler := Prog Status RegistryService (MessageType × Option WireValue)

/-- An operation that answers either way; what it emitted is written before it answers. -/
def operate {ρ : Type} (io : RequestIo) (m : Step → Prog ρ Work ρ) :
    Prog Status RegistryService ρ := do
  let now ← onRegistry advance
  let (result, records) ← perform (m now)
  appendRecords io records
  pure (Prog.answer result)

def handleDefineDomain (io : RequestIo) (payload : Bytes) (binding : SessionBinding) :
    Handler := do
  let request ← received DefineDomainRequest.decode (·.envelope) payload binding
  let now ← onRegistry advance
  let (result, records) ← perform (Work.defineDomain request.definition now)
  let s ← get
  appendRecords io records
  pure (.defineDomainResponse, some ⟨.defineDomainResponse, {
    status := match result with
      | .ok _ => .ok
      | .error refusal => refusal
    domainGeneration := s.state.generation }⟩)

def handleAllocateEpoch (io : RequestIo) (payload : Bytes) (binding : SessionBinding) :
    Handler := do
  let request ← received AllocateEpochRequest.decode (·.envelope) payload binding
  Prog.refuseIf (request.incarnation ≠ request.envelope.incarnation ∨
    request.boot ≠ request.envelope.boot) (.make .invalid .sessionMismatch 5)
  Prog.refuseIf (binding.kind ≠ .coordinator) (.make .refused .eligibilityNotAuthorization)
  let response ← operate io (Work.allocateEpoch request)
  pure (.allocateEpochResponse, some ⟨.allocateEpochResponse, response⟩)

/-- A decision emits nothing, and nothing is written for it. -/
def handleDecide (io : RequestIo) (payload : Bytes) (binding : SessionBinding) : Handler := do
  let request ← received DecideRequest.decode (·.envelope) payload binding
  let now ← onRegistry advance
  let (result, _) ← perform (Work.decide io.sorting request now)
  pure (.decideResponse, some ⟨.decideResponse, Prog.answer result⟩)

def handleCommit (io : RequestIo) (payload : Bytes) (binding : SessionBinding) : Handler := do
  let request ← received CommitRequest.decode (·.envelope) payload binding
  Prog.refuseIf (binding.kind ≠ .coordinator) (.make .refused .eligibilityNotAuthorization)
  let response ← operate io fun now => Work.commit request now io.fabric
  pure (.commitResponse, some ⟨.commitResponse, response⟩)

def handleFence (io : RequestIo) (payload : Bytes) (binding : SessionBinding) : Handler := do
  let request ← received FenceRequest.decode (·.envelope) payload binding
  let response ← operate io (Work.fence request)
  pure (.fenceResponse, some ⟨.fenceResponse, response⟩)

def handleRelease (io : RequestIo) (payload : Bytes) (binding : SessionBinding) : Handler := do
  let request ← received ReleaseRequest.decode (·.envelope) payload binding
  let response ← operate io (Work.release request)
  pure (.releaseResponse, some ⟨.releaseResponse, response⟩)

/-- A definition from the process itself, without a session. -/
def defineDomain (io : RequestIo) (definition : DomainDefinition) :
    Prog Status RegistryService PUnit := do
  let now ← onRegistry advance
  let (result, records) ← perform (Work.defineDomain definition now)
  Prog.ofExcept result
  appendRecords io records

/-- The text of an inspection. -/
def inspection (s : RegistryState) : Bytes :=
  let count (n : Nat) := ascii (toString n)
  ascii "store=" ++ s.storeId.value ++
    ascii " boot=" ++ hexU64 s.boot.boot ++
    ascii " incarnation=" ++ hexU64 s.boot.incarnation ++
    ascii " step=" ++ hexU64 s.clock ++
    ascii " grants=" ++ count s.lineage.grants.length ++
    ascii " open=" ++ count s.lineage.openGrants.length ++
    ascii " extents=" ++ count s.fences.extents.size ++
    ascii " interrupts=" ++ count s.interrupts.length ++
    ascii " mutations=" ++ count s.fabric.records.length ++
    ascii " commits=" ++ count s.commits.toNat ++
    ascii " token_counter=" ++ hexU64 s.tokenCounter

def handleInspect (payload : Bytes) (binding : SessionBinding) : Handler := do
  let _ ← received InspectRequest.decode (·.envelope) payload binding
  let s ← get
  pure (.inspectResponse, some ⟨.inspectResponse, {
    status := .ok
    registryGeneration := s.state.generation
    lastRegistrySequence := s.state.registrySequence
    report := inspection s.state }⟩)

/-- The requests that need a session. -/
def handleRequest (io : RequestIo) (frame : Frame) (binding : SessionBinding) : Handler := do
  Prog.refuseIf (binding.session = 0) (.make .invalid .sessionMismatch)
  match frame.header.type with
  | .defineDomainRequest => handleDefineDomain io frame.payload binding
  | .allocateEpochRequest => handleAllocateEpoch io frame.payload binding
  | .decideRequest => handleDecide io frame.payload binding
  | .commitRequest => handleCommit io frame.payload binding
  | .fenceRequest => handleFence io frame.payload binding
  | .releaseRequest => handleRelease io frame.payload binding
  | .inspectRequest => handleInspect frame.payload binding
  | type => throw (.make .unsupported .invalidEnum type.code.toUInt64)

def handleFrame (io : RequestIo) (frame : Frame) (binding : SessionBinding) : Handler :=
  match frame.header.type with
  | .pingRequest => pure (.pingResponse, none)
  | .shutdownRequest => pure (.shutdownResponse, none)
  | _ => handleRequest io frame binding

end RegistryService
end SplitBrainFabric
