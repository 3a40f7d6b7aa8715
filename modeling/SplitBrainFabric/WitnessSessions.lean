import SplitBrainFabric.Connection
import SplitBrainFabric.Library.Runs
import SplitBrainFabric.WitnessServer

/-! The connections of a witness, with the workers that serve them taking turns. A worker
leaves its loop for many reasons and there is one way out; no session is released on it. -/

namespace SplitBrainFabric
open Words Runs

namespace WitnessServer

/-- What an answer does to the sessions: nothing, or it adds the one it binds. -/
structure Answered (s s' : WitnessServer) (connection : Nat) : Prop where
  others : ∀ d, d ≠ connection → s'.bindings d = s.bindings d
  sessions : s'.sessions = s.sessions ∧
      (s'.bindings connection).session = (s.bindings connection).session ∨
    (s.bindings connection).session = 0 ∧ s.sessions.length < Limits.maxSessions ∧
      s'.sessions = s.sessions ++ [s'.bindings connection] ∧
      (s'.bindings connection).session ≠ 0

theorem Answered.same {s s' : WitnessServer} {connection : Nat} (bindings : s'.bindings = s.bindings)
    (sessions : s'.sessions = s.sessions) : Answered s s' connection :=
  ⟨fun _ _ => by rw [bindings], .inl ⟨sessions, by rw [bindings]⟩⟩

theorem tryIncrement_ne_zero (a : UInt64) : tryIncrement a ≠ 0 := by
  unfold tryIncrement
  split
  · rename_i full
    rw [full]
    decide
  · rename_i room
    exact succ_ne_zero room

theorem hello_answered (connection : Nat) (payload : Bytes) {s : WitnessServer}
    (unbound : (s.bindings connection).session = 0) :
    Answered s (s.hello connection payload).2 connection := by
  unfold hello
  cases Reader.decode HelloRequest.decode payload with
  | error refusal => exact .same rfl rfl
  | ok request =>
    simp only
    split
    · exact .same rfl rfl
    split
    · exact .same rfl rfl
    · rename_i room
      refine ⟨fun d other => Function.update_of_ne other _ _, .inr ⟨unbound, not_le.mp room, ?_, ?_⟩⟩
      · simp only [bind, Function.update_self]
      · simp only [bind, Function.update_self]
        exact tryIncrement_ne_zero _

theorem answerBound_answered (connection : Nat) (frame : Frame) (s : WitnessServer) :
    Answered s (s.answerBound connection frame).2 connection := by
  simp only [answerBound]
  split
  · exact .same rfl rfl
  · have bound : Answered s (s.bind connection
        { s.bindings connection with lastRequest := frame.header.requestId }) connection :=
      ⟨fun d other => Function.update_of_ne other _ _, .inl ⟨rfl, by simp [bind]⟩⟩
    cases frame.header.type with
    | attestRequest => exact ⟨bound.others, bound.sessions⟩
    | _ => exact bound

theorem answer_answered (connection : Nat) (frame : Frame) (s : WitnessServer) :
    Answered s (s.answer connection frame).2 connection := by
  unfold answer
  split
  · rename_i unbound
    split
    · exact hello_answered connection frame.payload unbound
    · exact .same rfl rfl
  · exact answerBound_answered connection frame s

/-- A readable hello is turned away for want of room exactly by a full table. -/
theorem hello_full {connection : Nat} {payload : Bytes} {s : WitnessServer} {request : HelloRequest}
    (read : Reader.decode HelloRequest.decode payload = .ok request)
    (refused : (s.hello connection payload).1.status = .make .exhausted .boundedTableFull) :
    Limits.maxSessions ≤ s.sessions.length := by
  simp only [hello, read] at refused
  split at refused
  · have clash : Outcome.unsupported = .exhausted := congrArg Status.outcome refused
    cases clash
  split at refused
  · assumption
  · have clash : Outcome.ok = .exhausted := congrArg Status.outcome refused
    cases clash

end WitnessServer

/-- A worker in its loop: the frames of the read it is at, and whether the connection ends
behind them. One that is leaving has only its exit before it. -/
structure WitnessWorker where
  decoder : FrameDecoder := {}
  pending : List Frame := []
  stop : Bool := false
  leaving : Bool := false

/-- The service with the connections whose worker has not ended. -/
structure WitnessHub where
  server : WitnessServer
  alive : List Nat := []
  connections : Nat := 0
  workers : Nat → WitnessWorker := fun _ => {}
  stopping : Bool := false

/-- What may happen next: a client connects, a worker looks at its socket, it answers one
frame and writes the reply or fails to, it takes its exit, or the service is stopped. -/
inductive HubEvent where
  | connect
  | read (connection : Nat) (arrival : Arrival)
  | serve (connection : Nat) (written : Bool)
  | leave (connection : Nat)
  | stop

namespace WitnessHub

def setWorker (h : WitnessHub) (connection : Nat) (worker : WitnessWorker) : WitnessHub :=
  { h with workers := Function.update h.workers connection worker }

def connect (h : WitnessHub) : WitnessHub :=
  if h.stopping = true then h
  else
    { (h.setWorker h.connections {}) with
      server := h.server.bind h.connections {}
      alive := h.alive ++ [h.connections]
      connections := h.connections + 1 }

/-- Behind the frames of a read. -/
def settle (h : WitnessHub) (worker : WitnessWorker) : WitnessWorker :=
  { worker with leaving := worker.pending.isEmpty && (worker.stop || h.stopping) }

def readWorker (h : WitnessHub) (worker : WitnessWorker) : Arrival → WitnessWorker
  | .ended => { worker with leaving := true }
  | .chunk bytes =>
    let pushed := worker.decoder.push bytes
    if h.stopping = true ∨ bytes = [] ∨ pushed.status.isOk = false then
      { worker with leaving := true }
    else h.settle { decoder := pushed.decoder, pending := pushed.frames }

def read (h : WitnessHub) (connection : Nat) (arrival : Arrival) : WitnessHub :=
  let worker := h.workers connection
  if connection ∈ h.alive ∧ worker.leaving = false ∧ worker.pending = [] then
    h.setWorker connection (h.readWorker worker arrival)
  else h

def serve (h : WitnessHub) (connection : Nat) (written : Bool) : WitnessHub :=
  let worker := h.workers connection
  if connection ∈ h.alive ∧ worker.leaving = false then
    match worker.pending with
    | [] => h
    | frame :: rest =>
      let (answer, server) := h.server.answer connection frame
      let h := { h with server := server }
      if written = false then h.setWorker connection { worker with leaving := true }
      else h.setWorker connection
        (h.settle { worker with pending := rest, stop := answer.stop.getD worker.stop })
  else h

def Leaving (h : WitnessHub) (connection : Nat) : Prop :=
  connection ∈ h.alive ∧ (h.workers connection).leaving = true

instance (h : WitnessHub) (connection : Nat) : Decidable (h.Leaving connection) :=
  inferInstanceAs (Decidable (_ ∧ _))

/-- The worker shuts its socket and takes it out of the hub. -/
def leave (h : WitnessHub) (connection : Nat) : WitnessHub :=
  if h.Leaving connection then { h with alive := h.alive.erase connection } else h

def after (h : WitnessHub) : HubEvent → WitnessHub
  | .connect => h.connect
  | .read connection arrival => h.read connection arrival
  | .serve connection written => h.serve connection written
  | .leave connection => h.leave connection
  | .stop => { h with stopping := true }

def started (service : WitnessService) : WitnessHub := { server := { service := service } }

def sessionOf (h : WitnessHub) (connection : Nat) : SessionId :=
  (h.server.bindings connection).session

/-- The sessions of the connections that are alive. -/
def live (h : WitnessHub) : List SessionId := (h.alive.map h.sessionOf).filter (· ≠ 0)

/-- The table holds the sessions of live connections and no others, and a hello is turned
away for want of room only when as many sessions as it holds are alive. -/
structure Released (h : WitnessHub) : Prop where
  sessions : (h.server.sessions.map (·.session)).Perm h.live
  full : ∀ connection payload request, Reader.decode HelloRequest.decode payload = .ok request →
    (h.server.hello connection payload).1.status = .make .exhausted .boundedTableFull →
    h.live.length = Limits.maxSessions

/-- No worker takes its exit once its connection has a session. -/
def Stays (h : WitnessHub) : HubEvent → Prop
  | .leave connection => h.Leaving connection → h.sessionOf connection = 0
  | _ => True

/-- What the exit of a worker takes away from the live sessions. -/
def abandoned (h : WitnessHub) : HubEvent → List SessionId
  | .leave connection =>
    if h.Leaving connection ∧ h.sessionOf connection ≠ 0 then [h.sessionOf connection] else []
  | _ => []

structure Accounted (h : WitnessHub) (lost : List SessionId) : Prop where
  sessions : (h.server.sessions.map (·.session)).Perm (h.live ++ lost)
  bounded : h.server.sessions.length ≤ Limits.maxSessions
  distinct : h.alive.Nodup
  below : ∀ c ∈ h.alive, c < h.connections

variable {h h' : WitnessHub} {lost : List SessionId}

/-- Events that neither bind nor end a connection. -/
theorem Accounted.congr (accounted : h.Accounted lost) (sessions : h'.server.sessions = h.server.sessions)
    (alive : h'.alive = h.alive) (connections : h'.connections = h.connections)
    (bound : ∀ c ∈ h.alive, h'.sessionOf c = h.sessionOf c) : h'.Accounted lost := by
  have live : h'.live = h.live := by
    rw [WitnessHub.live, WitnessHub.live, alive, List.map_congr_left bound]
  refine ⟨?_, ?_, ?_, ?_⟩
  · rw [sessions, live]
    exact accounted.sessions
  · rw [sessions]
    exact accounted.bounded
  · rw [alive]
    exact accounted.distinct
  · rw [alive, connections]
    exact accounted.below

theorem connect_sessionOf (running : ¬ h.stopping = true) (c : Nat) :
    h.connect.sessionOf c = if c = h.connections then 0 else h.sessionOf c := by
  rw [WitnessHub.connect, if_neg running]
  show (Function.update h.server.bindings h.connections {} c).session = _
  rw [Function.update_apply]
  split
  · rfl
  · rfl

theorem connect_live (below : ∀ c ∈ h.alive, c < h.connections) : h.connect.live = h.live := by
  by_cases stopping : h.stopping = true
  · rw [WitnessHub.connect, if_pos stopping]
  · have alive : h.connect.alive = h.alive ++ [h.connections] := by
      rw [WitnessHub.connect, if_neg stopping]
    have old : h.alive.map h.connect.sessionOf = h.alive.map h.sessionOf := by
      refine List.map_congr_left fun c member => ?_
      rw [connect_sessionOf stopping, if_neg (below c member).ne]
    have new : h.connect.sessionOf h.connections = 0 := by
      rw [connect_sessionOf stopping, if_pos rfl]
    rw [live, live, alive, List.map_append, old, List.map_singleton, new, List.filter_append]
    simp

theorem Accounted.connect (accounted : h.Accounted lost) : h.connect.Accounted lost := by
  have live := connect_live accounted.below
  by_cases stopping : h.stopping = true
  · rw [WitnessHub.connect, if_pos stopping]
    exact accounted
  · have sessions : h.connect.server.sessions = h.server.sessions := by
      rw [WitnessHub.connect, if_neg stopping]
      rfl
    have alive : h.connect.alive = h.alive ++ [h.connections] := by
      rw [WitnessHub.connect, if_neg stopping]
    have connections : h.connect.connections = h.connections + 1 := by
      rw [WitnessHub.connect, if_neg stopping]
    refine ⟨?_, ?_, ?_, fun c member => ?_⟩
    · rw [sessions, live]
      exact accounted.sessions
    · rw [sessions]
      exact accounted.bounded
    · rw [alive, List.nodup_append]
      refine ⟨accounted.distinct, List.nodup_singleton _, fun c member d single => ?_⟩
      rw [List.mem_singleton.mp single]
      exact (accounted.below c member).ne
    · rw [alive] at member
      rw [connections]
      rcases List.mem_append.mp member with old | single
      · exact Nat.lt_succ_of_lt (accounted.below c old)
      · rw [List.mem_singleton.mp single]
        exact Nat.lt_succ_self _

theorem Accounted.read (accounted : h.Accounted lost) (connection : Nat) (arrival : Arrival) :
    (h.read connection arrival).Accounted lost := by
  simp only [WitnessHub.read]
  split
  · exact accounted.congr rfl rfl rfl fun _ _ => rfl
  · exact accounted

/-- One connection that is alive, and the rest. -/
theorem live_split {connection : Nat} (member : connection ∈ h.alive) :
    h.live.Perm ((h.sessionOf connection :: (h.alive.erase connection).map h.sessionOf).filter
      (· ≠ 0)) :=
  ((List.perm_cons_erase member).map h.sessionOf).filter _

theorem Accounted.answered {connection : Nat} {server : WitnessServer} (accounted : h.Accounted lost)
    (member : connection ∈ h.alive) (answered : h.server.Answered server connection)
    (same : h'.server = server) (alive : h'.alive = h.alive)
    (connections : h'.connections = h.connections) : h'.Accounted lost := by
  subst same
  rcases answered.sessions with ⟨sessions, session⟩ | ⟨unbound, room, sessions, bound⟩
  · refine accounted.congr sessions alive connections fun c _ => ?_
    by_cases here : c = connection
    · rw [here]
      exact session
    · rw [sessionOf, answered.others c here]
      rfl
  · have rest : (h.alive.erase connection).map h'.sessionOf =
        (h.alive.erase connection).map h.sessionOf := by
      refine List.map_congr_left fun c inside => ?_
      have other : c ≠ connection := fun same =>
        absurd (same ▸ inside) (List.Nodup.not_mem_erase accounted.distinct)
      rw [sessionOf, answered.others c other]
      rfl
    have unset : h.sessionOf connection = 0 := unbound
    have set : h'.sessionOf connection ≠ 0 := bound
    have before := live_split member
    rw [List.filter_cons_of_neg (by simpa using unset)] at before
    have now := live_split (alive ▸ member)
    rw [alive, rest, List.filter_cons_of_pos (by simpa using set)] at now
    refine ⟨?_, ?_, ?_, ?_⟩
    · rw [sessions, List.map_append, List.map_singleton]
      have grown := accounted.sessions.append_right [h'.sessionOf connection]
      refine grown.trans (List.Perm.trans ?_ (now.symm.append_right lost))
      refine List.Perm.trans ?_ ((before.cons _).append_right lost)
      exact List.perm_append_singleton _ _
    · rw [sessions, List.length_append]
      exact room
    · rw [alive]
      exact accounted.distinct
    · rw [alive, connections]
      exact accounted.below

theorem Accounted.serve (accounted : h.Accounted lost) (connection : Nat) (written : Bool) :
    (h.serve connection written).Accounted lost := by
  simp only [WitnessHub.serve]
  split
  · rename_i running
    split
    · exact accounted
    · have answered := h.server.answer_answered connection ‹Frame›
      split
      · exact accounted.answered running.1 answered rfl rfl rfl
      · exact accounted.answered running.1 answered rfl rfl rfl
  · exact accounted

theorem Accounted.leave (accounted : h.Accounted lost) (connection : Nat) :
    (h.leave connection).Accounted (h.abandoned (.leave connection) ++ lost) := by
  by_cases leaving : h.Leaving connection
  · have left : h.leave connection = { h with alive := h.alive.erase connection } :=
      if_pos leaving
    have split := live_split leaving.1
    rw [left]
    refine ⟨?_, accounted.bounded, accounted.distinct.erase connection,
      fun c member => accounted.below c (List.mem_of_mem_erase member)⟩
    refine accounted.sessions.trans ((split.append_right lost).trans ?_)
    by_cases bound : h.sessionOf connection = 0
    · rw [List.filter_cons_of_neg (by simpa using bound), abandoned,
        if_neg fun both => both.2 bound]
      exact List.Perm.refl _
    · rw [List.filter_cons_of_pos (by simpa using bound), abandoned, if_pos ⟨leaving, bound⟩]
      exact List.perm_middle.symm
  · rw [WitnessHub.leave, if_neg leaving]
    simpa [abandoned, leaving] using accounted

theorem Accounted.after (accounted : h.Accounted lost) (e : HubEvent) :
    (h.after e).Accounted (h.abandoned e ++ lost) := by
  cases e with
  | connect => exact accounted.connect
  | read connection arrival => exact accounted.read connection arrival
  | serve connection written => exact accounted.serve connection written
  | leave connection => exact accounted.leave connection
  | stop => exact accounted.congr rfl rfl rfl fun _ _ => rfl

theorem Accounted.settles_iff (accounted : h.Accounted lost) : h.Released ↔ lost = [] := by
  have total := accounted.sessions.length_eq
  rw [List.length_map, List.length_append] at total
  constructor
  · intro released
    have length := released.sessions.length_eq
    rw [List.length_map] at length
    exact List.length_eq_zero_iff.mp (by omega)
  · intro none
    subst none
    have sessions := accounted.sessions
    rw [List.append_nil] at sessions
    refine ⟨sessions, fun connection payload request read refused => ?_⟩
    have full := WitnessServer.hello_full read refused
    have bounded := accounted.bounded
    rw [List.length_nil] at total
    omega

theorem stays_iff (e : HubEvent) : h.Stays e ↔ h.abandoned e = [] := by
  cases e with
  | leave connection =>
    simp only [Stays, abandoned]
    split
    · rename_i both
      exact iff_of_false (fun stays => both.2 (stays both.1)) (List.cons_ne_nil _ _)
    · rename_i neither
      refine iff_of_true (fun leaving => ?_) rfl
      by_contra bound
      exact neither ⟨leaving, bound⟩
  | connect | read _ _ | serve _ _ | stop => exact iff_of_true trivial rfl

/-- At the end of a run the table holds just the live sessions exactly when no connection
that got one has ended in it. -/
theorem released_iff (service : WitnessService) (events : List HubEvent) :
    (run after (started service) events).Released ↔ Each after Stays (started service) events := by
  have start : (started service).Accounted [] :=
    ⟨.nil, Nat.zero_le _, List.nodup_nil, fun _ member => absurd member List.not_mem_nil⟩
  have keeps : ∀ h e, (∃ lost, Accounted h lost) → ∃ lost, Accounted (after h e) lost :=
    fun h e ⟨lost, accounted⟩ => ⟨_, accounted.after e⟩
  have each : ∀ h e, (∃ lost, Accounted h lost) →
      ((after h e).Released ↔ h.Released ∧ h.Stays e) := by
    rintro h e ⟨lost, accounted⟩
    rw [(accounted.after e).settles_iff, accounted.settles_iff, stays_iff, List.append_eq_nil_iff]
    exact and_comm
  have fresh : (started service).Released := start.settles_iff.mpr rfl
  exact (run_iff_each keeps each ⟨[], start⟩ events).trans (and_iff_right fresh)

section Abandoned

def abandonedHello : Frame where
  header := { type := .helloRequest }
  payload := HelloRequest.encode { node := Id.make [110] }

/-- A witness that was configured and started. -/
def abandonedService : WitnessService where
  config := { witness := Id.make [119], faultDomain := Id.make [102] }
  clock := 1

/-- A client greets the witness and goes away. -/
def abandonedEvents : List HubEvent :=
  [.connect, .read 0 (.chunk (encodeFrame abandonedHello)), .serve 0 true, .read 0 .ended, .leave 0]

theorem session_leaks : ¬ ∀ service events, (run after (started service) events).Released := by
  intro released
  have sessions := (released abandonedService abandonedEvents).sessions
  have held :
      (run after (started abandonedService) abandonedEvents).server.sessions.length = 1 := by
    decide +kernel
  have nobody : (run after (started abandonedService) abandonedEvents).alive = [] := by
    decide +kernel
  have length := sessions.length_eq
  rw [List.length_map, held, live, nobody] at length
  cases length

end Abandoned

end WitnessHub
end SplitBrainFabric
