import SplitBrainFabric.Messages

/-! The two clients a coordinator holds. What the other end does in one exchange is a
parameter, and a session has a budget of requests that it never gets back. -/

namespace SplitBrainFabric
open Words

def Limits.maxRequestsPerSession : UInt64 := 1000000

/-- A status that is not `Ok`. -/
abbrev Failure := { st : Status // st.isOk = false }

/-- What one exchange comes to: the frame is not written, no frame comes back and the
connection is gone, or a frame comes back. -/
inductive Exchange where
  | unwritten (why : Failure)
  | unread (why : Failure)
  | answered (type : MessageType) (payload : Bytes)

namespace Exchange

/-- The connection is still there afterwards. -/
def Answered : Exchange → Prop
  | .answered _ _ => True
  | .unwritten _ | .unread _ => False

instance : DecidablePred Answered
  | .answered _ _ => inferInstanceAs (Decidable True)
  | .unwritten _ | .unread _ => inferInstanceAs (Decidable False)

/-- The payload a client goes on to decode. An error response that says `Ok` is one. -/
def payload (expected : MessageType) : Exchange → Except Status Bytes
  | .unwritten why | .unread why => .error why
  | .answered type payload =>
    if type = .errorResponse then
      match Reader.decode ErrorResponse.decode payload with
      | .error refusal => .error refusal
      | .ok response => if response.status.isOk then .ok payload else .error response.status
    else if type ≠ expected then .error (.make .invalid .invalidEnum type.code.toUInt64)
    else .ok payload

/-- The response of an exchange, once its request is on the wire. -/
def response {ρ : Type} (expected : MessageType) (read : Reader.Read ρ) (e : Exchange) :
    Except Status ρ := do Reader.decode read (← e.payload expected)

end Exchange

/-- The requests a coordinator sends to the registry. -/
inductive RegistryRequest where
  | allocateEpoch (request : AllocateEpochRequest)
  | decide (request : DecideRequest)
  | commit (request : CommitRequest)

namespace RegistryRequest

def type : RegistryRequest → MessageType
  | .allocateEpoch _ => .allocateEpochRequest
  | .decide _ => .decideRequest
  | .commit _ => .commitRequest

def encode : RegistryRequest → Bytes
  | .allocateEpoch request => request.encode
  | .decide request => request.encode
  | .commit request => request.encode

/-- The epoch and the token a request acts under. -/
def authority : RegistryRequest → Option (Epoch × FenceToken)
  | .allocateEpoch _ => none
  | .decide request => some (request.epoch, request.presentedFenceToken)
  | .commit request => some (request.epoch, request.fenceToken)

end RegistryRequest

def SessionBinding.envelope (binding : SessionBinding) : RequestEnvelope where
  session := binding.session
  node := binding.node
  boot := binding.boot
  incarnation := binding.incarnation

/-- `sent` is what was handed to the socket so far; the source does not keep it. -/
structure RegistryClient where
  connected : Bool := false
  requestsSent : UInt64 := 0
  nextRequest : RequestId := 0
  binding : SessionBinding := {}
  lastFailure : Status := .ok
  sent : List RegistryRequest := []

namespace RegistryClient

def envelope (c : RegistryClient) : RequestEnvelope := c.binding.envelope

def fail {α : Type} (st : Status) : Prog Status RegistryClient α := do
  modify fun c => { c with lastFailure := st }
  throw st

def disconnect {α : Type} (why : Failure) : Prog Status RegistryClient α := do
  modify fun c => { c with connected := false }
  fail why.val

/-- A request that was written counts, whatever comes back. -/
def counted (id : RequestId) (c : RegistryClient) : RegistryClient :=
  { c with
    requestsSent := c.requestsSent + 1
    binding := { c.binding with
      lastRequest := id, acceptedRequests := tryIncrement c.binding.acceptedRequests } }

/-- The frame that came back. An error response may say `Ok`, and then its payload is
taken for the response. -/
def accept (expected type : MessageType) (payload : Bytes) : Prog Status RegistryClient Bytes :=
  if type = .errorResponse then
    match Reader.decode ErrorResponse.decode payload with
    | .error refusal => fail refusal
    | .ok response => do
      modify fun c => { c with lastFailure := response.status }
      if response.status.isOk then pure payload else throw response.status
  else if type ≠ expected then fail (.make .invalid .invalidEnum type.code.toUInt64)
  else pure payload

def transact (request : RegistryRequest) (expected : MessageType) (exchange : Exchange) :
    Prog Status RegistryClient Bytes := do
  let c ← get
  Prog.refuseIf (c.connected = false) (.make .closed .connectionClosed)
  Prog.refuseIf (Limits.maxRequestsPerSession ≤ c.requestsSent)
    (.make .exhausted .resourceExhausted c.requestsSent)
  Prog.refuseIf (c.nextRequest = maxWord) (.make .exhausted .counterOverflow)
  modify fun c => { c with
    nextRequest := c.nextRequest + 1
    sent := c.sent ++ [request] }
  match exchange with
  | .unwritten why => disconnect why
  | .unread why => do
    modify (counted c.nextRequest)
    disconnect why
  | .answered type payload => do
    modify (counted c.nextRequest)
    accept expected type payload

/-- How many more requests the session can send. -/
def budget (c : RegistryClient) : Nat :=
  if c.connected then
    min (Limits.maxRequestsPerSession.toNat - c.requestsSent.toNat)
      (maxWord.toNat - c.nextRequest.toNat)
  else 0

section Transact

variable {request : RegistryRequest} {expected : MessageType} {exchange : Exchange}
  {c c' : RegistryClient} {r : Except Status Bytes}

theorem accept_exec (type : MessageType) (payload : Bytes) : ∃ last,
    (accept expected type payload).exec c =
      ((Exchange.answered type payload).payload expected, { c with lastFailure := last }) := by
  unfold accept Exchange.payload
  by_cases error : type = .errorResponse
  · rw [if_pos error]
    simp only [if_pos error]
    cases Reader.decode ErrorResponse.decode payload with
    | error refusal => exact ⟨_, rfl⟩
    | ok response =>
      refine ⟨response.status, ?_⟩
      simp only [Prog.exec_modify_bind, Prog.exec_ite, Prog.exec_pure, Prog.exec_throw]
      cases response.status.isOk <;> rfl
  · rw [if_neg error]
    simp only [if_neg error]
    by_cases other : type ≠ expected
    · rw [if_pos other, if_pos other]
      exact ⟨_, rfl⟩
    · rw [if_neg other, if_neg other]
      exact ⟨c.lastFailure, rfl⟩

/-- With nothing left to spend nothing happens; else the request is sent, and the session
has one request less, or none when the connection is gone. -/
theorem transact_spec (ran : (transact request expected exchange).exec c = (r, c')) :
    (c.budget = 0 ∧ c' = c ∧ ∃ st, r = .error st) ∨
    (0 < c.budget ∧ c'.sent = c.sent ++ [request] ∧ r = exchange.payload expected ∧
      c'.budget = if exchange.Answered then c.budget - 1 else 0) := by
  have million : Limits.maxRequestsPerSession.toNat = 1000000 := rfl
  have top : maxWord.toNat = 18446744073709551615 := rfl
  rw [transact, Prog.exec_get_bind, Prog.exec_refuseIf] at ran
  by_cases gone : c.connected = false
  · rw [if_pos gone] at ran
    cases ran
    exact .inl ⟨by simp [budget, gone], rfl, _, rfl⟩
  rw [if_neg gone, Prog.exec_refuseIf] at ran
  have alive : c.connected = true := by simpa using gone
  by_cases spent : Limits.maxRequestsPerSession ≤ c.requestsSent
  · rw [if_pos spent] at ran
    cases ran
    rw [UInt64.le_iff_toNat_le] at spent
    exact .inl ⟨by simp only [budget, if_pos alive]; omega, rfl, _, rfl⟩
  rw [if_neg spent, Prog.exec_refuseIf] at ran
  by_cases last : c.nextRequest = maxWord
  · rw [if_pos last] at ran
    cases ran
    exact .inl ⟨by simp only [budget, if_pos alive, last]; omega, rfl, _, rfl⟩
  rw [if_neg last, Prog.exec_modify_bind] at ran
  have before : c.budget = min (1000000 - c.requestsSent.toNat)
      (18446744073709551615 - c.nextRequest.toNat) := if_pos alive
  have unspent : c.requestsSent.toNat < 1000000 := by
    rw [UInt64.le_iff_toNat_le] at spent
    omega
  have below : c.nextRequest.toNat < 18446744073709551615 := by
    have differ : c.nextRequest.toNat ≠ maxWord.toNat := fun same => last (UInt64.toNat_inj.mp same)
    have bound := c.nextRequest.toNat_lt
    omega
  have affords : 0 < c.budget := by omega
  cases exchange with
  | unwritten why =>
    cases ran
    exact .inr ⟨affords, rfl, rfl, rfl⟩
  | unread why =>
    cases ran
    exact .inr ⟨affords, rfl, rfl, rfl⟩
  | answered type payload =>
    rw [Prog.exec_modify_bind] at ran
    obtain ⟨status, accepted⟩ := @accept_exec expected
      (counted c.nextRequest { c with
        nextRequest := c.nextRequest + 1, sent := c.sent ++ [request] }) type payload
    rw [accepted] at ran
    cases ran
    refine .inr ⟨affords, rfl, rfl, ?_⟩
    have spends : (c.requestsSent + 1).toNat = c.requestsSent.toNat + 1 := by
      apply toNat_succ
      rintro full
      rw [full] at unspent
      omega
    have moves : (c.nextRequest + 1).toNat = c.nextRequest.toNat + 1 := toNat_succ last
    have answered : (Exchange.answered type payload).Answered := trivial
    have after : RegistryClient.budget { counted c.nextRequest { c with
        nextRequest := c.nextRequest + 1, sent := c.sent ++ [request] } with
          lastFailure := status } =
        min (1000000 - (c.requestsSent + 1).toNat)
          (18446744073709551615 - (c.nextRequest + 1).toNat) := if_pos alive
    rw [after, if_pos answered]
    omega

end Transact

/-- A request in the session's envelope, and the response it is answered by. -/
def ask {ρ : Type} (request : RequestEnvelope → RegistryRequest) (expected : MessageType)
    (read : Reader.Read ρ) (exchange : Exchange) : Prog Status RegistryClient ρ := do
  let c ← get
  let payload ← transact (request c.envelope) expected exchange
  Prog.ofExcept (Reader.decode read payload)

def allocateEpoch (domain : DomainId) (scope : Scope) (incarnation : IncarnationId) (boot : BootId)
    (attempt : Sequence) (exchange : Exchange) :
    Prog Status RegistryClient AllocateEpochResponse := do
  let c ← get
  Prog.refuseIf (c.connected = false) (.make .closed .connectionClosed)
  ask (fun envelope => .allocateEpoch {
      envelope := envelope, domain := domain, scope := scope, incarnation := incarnation
      boot := boot, attemptSequence := attempt })
    .allocateEpochResponse AllocateEpochResponse.decode exchange

def decide (request : DecideRequest) (exchange : Exchange) :
    Prog Status RegistryClient DecideResponse :=
  ask (fun envelope => .decide { request with envelope := envelope }) .decideResponse
    DecideResponse.decode exchange

def commit (request : CommitRequest) (exchange : Exchange) :
    Prog Status RegistryClient CommitResponse :=
  ask (fun envelope => .commit { request with envelope := envelope }) .commitResponse
    CommitResponse.decode exchange

theorem ask_spec {ρ : Type} {request : RequestEnvelope → RegistryRequest} {expected : MessageType}
    {read : Reader.Read ρ} {exchange : Exchange} {c c' : RegistryClient} {r : Except Status ρ}
    (ran : (ask request expected read exchange).exec c = (r, c')) :
    (c.budget = 0 ∧ c' = c ∧ ∃ st, r = .error st) ∨
    (0 < c.budget ∧ c'.sent = c.sent ++ [request c.envelope] ∧
      r = exchange.response expected read ∧
      c'.budget = if exchange.Answered then c.budget - 1 else 0) := by
  rw [ask, Prog.exec_get_bind, Prog.exec_bind] at ran
  rcases transacted : (transact (request c.envelope) expected exchange).exec c with ⟨got, c₁⟩
  rw [transacted] at ran
  rcases transact_spec transacted with ⟨spent, rfl, st, rfl⟩ | ⟨affords, sent, rfl, budget⟩
  · cases ran
    exact .inl ⟨spent, rfl, st, rfl⟩
  · refine .inr ⟨affords, ?_⟩
    rw [Exchange.response]
    cases got : exchange.payload expected with
    | error st =>
      rw [got] at ran
      cases ran
      exact ⟨sent, rfl, budget⟩
    | ok payload =>
      rw [got] at ran
      cases ran
      exact ⟨sent, rfl, budget⟩

end RegistryClient

structure WitnessClient where
  connected : Bool := false
  nextRequest : RequestId := 0
  binding : SessionBinding := {}
  lastFailure : Status := .ok
  collected : UInt64 := 0
  failures : UInt64 := 0
  sent : List AttestRequest := []

namespace WitnessClient

def fail {α : Type} (st : Status) : Prog Status WitnessClient α := do
  modify fun c => { c with failures := c.failures + 1, lastFailure := st }
  throw st

/-- The statement a witness makes about a claim, in the envelope of its own session. -/
def attest (subject : AttestRequest) (exchange : Exchange) :
    Prog Status WitnessClient AttestResponse := do
  let c ← get
  if c.connected = false then fail (.make .unreachable .quorumUnreachable)
  else do
    Prog.refuseIf (c.nextRequest = maxWord) (.make .exhausted .counterOverflow)
    modify fun c => { c with
      nextRequest := c.nextRequest + 1
      sent := c.sent ++ [{ subject with envelope := c.binding.envelope }] }
    match exchange with
    | .unwritten why | .unread why => do
      modify fun c => { c with connected := false }
      fail why.val
    | .answered type payload =>
      if type = .errorResponse then
        match Reader.decode ErrorResponse.decode payload with
        | .error refusal => fail refusal
        | .ok response => do
          modify fun c => { c with failures := c.failures + 1, lastFailure := response.status }
          if response.status.isOk then pure {} else throw response.status
      else if type ≠ .attestResponse then fail (.make .invalid .invalidEnum)
      else match Reader.decode AttestResponse.decode payload with
        | .error refusal => fail refusal
        | .ok response => do
          if response.status.isOk = false then fail response.status
          else do
            modify fun c => { c with collected := c.collected + 1 }
            pure response

end WitnessClient
end SplitBrainFabric
