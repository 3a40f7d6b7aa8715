import SplitBrainFabric.Ids

/-! Session identities: what a connection is bound to by its handshake, and what every
later request must repeat. -/

namespace SplitBrainFabric

inductive ClientKind where
  | coordinator | observer | witness | operator
  deriving DecidableEq

structure SessionBinding where
  session : SessionId := 0
  node : NodeId := Id.empty
  boot : BootId := 0
  incarnation : IncarnationId := 0
  kind : ClientKind := .coordinator
  lastRequest : RequestId := 0
  acceptedRequests : Sequence := 0
  deriving DecidableEq

structure RequestEnvelope where
  session : SessionId := 0
  node : NodeId := Id.empty
  boot : BootId := 0
  incarnation : IncarnationId := 0
  deriving DecidableEq

def RequestEnvelope.validateAgainst (e : RequestEnvelope) (binding : SessionBinding) : Status :=
  if e.session = 0 ∨ e.session ≠ binding.session then .make .invalid .sessionMismatch e.session
  else if e.node ≠ binding.node then .make .invalid .sessionMismatch 1
  else if e.boot ≠ binding.boot then .make .invalid .sessionMismatch 2
  else if e.incarnation ≠ binding.incarnation then .make .invalid .sessionMismatch 3
  else .ok

end SplitBrainFabric
