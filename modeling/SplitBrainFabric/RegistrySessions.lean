import SplitBrainFabric.ServiceMoves

/-! The connections of a registry, with the workers that serve them taking turns. A worker
keeps the binding of its session to itself, and gives the session back on its one way out. -/

namespace SplitBrainFabric
open Words Runs

/-- A binding without the marks of its use, as the session table keeps it. -/
def SessionBinding.identity (b : SessionBinding) : SessionBinding :=
  { b with lastRequest := 0, acceptedRequests := 0 }

theorem SessionBinding.identity_blank {b : SessionBinding} (last : b.lastRequest = 0)
    (accepted : b.acceptedRequests = 0) : b.identity = b := by
  cases b
  cases last
  cases accepted
  rfl

/-- A worker in its loop: the frames of the read it is at, and whether the connection ends
behind them. One that is leaving has only its exit before it. -/
structure RegistryWorker where
  decoder : FrameDecoder := {}
  binding : SessionBinding := {}
  pending : List Frame := []
  stop : Bool := false
  leaving : Bool := false

/-- The service with the connections whose worker has not ended. -/
structure RegistryHub where
  service : RegistryService
  alive : List Nat := []
  connections : Nat := 0
  workers : Nat → RegistryWorker := fun _ => {}
  draining : Bool := false

/-- What may happen next: a client connects, a worker looks at its socket, it answers one
frame and writes the reply or fails to, it takes its exit, the process defines a domain, the
service is stopped, or its accept loop is over and the connections are told. -/
inductive RegistryEvent where
  | connect
  | read (connection : Nat) (arrival : Arrival)
  | serve (connection : Nat) (io : RequestIo) (written : Bool)
  | leave (connection : Nat)
  | define (io : RequestIo) (definition : DomainDefinition)
  | stop
  | drain

namespace RegistryHub

def setWorker (h : RegistryHub) (connection : Nat) (worker : RegistryWorker) : RegistryHub :=
  { h with workers := Function.update h.workers connection worker }

def connect (h : RegistryHub) : RegistryHub :=
  if h.service.stopping = true then h
  else
    { (h.setWorker h.connections {}) with
      alive := h.alive ++ [h.connections]
      connections := h.connections + 1 }

/-- Behind the frames of a read. -/
def settle (h : RegistryHub) (worker : RegistryWorker) : RegistryWorker :=
  { worker with leaving := worker.pending.isEmpty && (worker.stop || h.service.stopping) }

/-- A stream that cannot be framed any more is counted and given up. -/
def readChunk (h : RegistryHub) (connection : Nat) (bytes : Bytes) : RegistryHub :=
  let worker := h.workers connection
  if h.draining = true ∨ bytes = [] then h.setWorker connection { worker with leaving := true }
  else
    let pushed := worker.decoder.push bytes
    if pushed.status.isOk = false then
      { (h.setWorker connection { worker with decoder := pushed.decoder, leaving := true }) with
        service := { h.service with poisonEvents := h.service.poisonEvents + 1 } }
    else h.setWorker connection (h.settle { worker with
      decoder := pushed.decoder, pending := pushed.frames, stop := false })

def read (h : RegistryHub) (connection : Nat) (arrival : Arrival) : RegistryHub :=
  let worker := h.workers connection
  if connection ∈ h.alive ∧ worker.leaving = false ∧ worker.pending = [] then
    match arrival with
    | .ended => h.setWorker connection { worker with leaving := true }
    | .chunk bytes => h.readChunk connection bytes
  else h

/-- A reply that is not written ends the connection at once, and so does the one to a
shutdown, which stops the service. -/
def serve (h : RegistryHub) (connection : Nat) (io : RequestIo) (written : Bool) : RegistryHub :=
  let worker := h.workers connection
  if connection ∈ h.alive ∧ worker.leaving = false then
    match worker.pending with
    | [] => h
    | frame :: rest =>
      let (answer, binding, service) := h.service.answer io frame worker.binding
      let worker := { worker with binding := binding, pending := rest }
      let h := { h with service := service }
      if written = false then h.setWorker connection { worker with leaving := true }
      else if answer.type = .shutdownResponse then
        { (h.setWorker connection { worker with leaving := true }) with
          service := { service with stopping := true } }
      else h.setWorker connection
        (h.settle { worker with stop := answer.stop.getD worker.stop })
  else h

def Leaving (h : RegistryHub) (connection : Nat) : Prop :=
  connection ∈ h.alive ∧ (h.workers connection).leaving = true

instance (h : RegistryHub) (connection : Nat) : Decidable (h.Leaving connection) :=
  inferInstanceAs (Decidable (_ ∧ _))

/-- The worker releases its session, shuts its socket and takes it out of the hub. -/
def leave (h : RegistryHub) (connection : Nat) : RegistryHub :=
  let binding := (h.workers connection).binding
  if h.Leaving connection then
    { h with
      service := if binding.session = 0 then h.service
        else h.service.releaseSession binding.session
      alive := h.alive.erase connection }
  else h

def after (h : RegistryHub) : RegistryEvent → RegistryHub
  | .connect => h.connect
  | .read connection arrival => h.read connection arrival
  | .serve connection io written => h.serve connection io written
  | .leave connection => h.leave connection
  | .define io d => { h with service := ((RegistryService.defineDomain io d).exec h.service).2 }
  | .stop => { h with service := { h.service with stopping := true } }
  | .drain => { h with draining := h.draining || h.service.stopping }

def bindingOf (h : RegistryHub) (connection : Nat) : SessionBinding := (h.workers connection).binding

/-- The sessions of the connections that are alive. -/
def live (h : RegistryHub) : List SessionBinding :=
  (h.alive.map fun c => (h.bindingOf c).identity).filter (·.session ≠ 0)

def opened (service : RegistryService) : RegistryHub := { service := service }

end RegistryHub

namespace RegistryService

/-- The binding once a request is taken. -/
def noted (frame : Frame) (b : SessionBinding) : SessionBinding :=
  { b with
    lastRequest := frame.header.requestId
    acceptedRequests := tryIncrement b.acceptedRequests }

/-- The operation that the next frame of a connection with a session asks for. -/
def asksFor (io : RequestIo) (frame : Frame) (b : SessionBinding) : Option Op :=
  if b.session = 0 ∨ frame.header.requestId ≤ b.lastRequest then none
  else asked io frame (noted frame b)

/-- What an answer does to the service and to the binding of the connection that it is for:
the session stays the one it was, or there was none and now there is. -/
inductive Answered (asks : Option Op) (s : RegistryService) (b : SessionBinding) :
    RegistryService → SessionBinding → Prop
  | kept {s' : RegistryService} {b' : SessionBinding}
    (moved : Moved (fun op => op = .allocateIncarnation ∨ asks = some op) s s')
    (same : b'.identity = b.identity) : Answered asks s b s' b'
  | bound {s₁ s' : RegistryService} {b' : SessionBinding}
    (moved : Moved (· = .allocateIncarnation) s s₁)
    (unbound : b.session = 0) (room : s.sessions.size < s.config.maxSessions.toNat)
    (session : b'.session = tryIncrement s.nextSession) (blank : b'.identity = b')
    (fresh : s.state.incarnationCounter < b'.incarnation)
    (counted : b'.incarnation ≤ s₁.state.incarnationCounter) (state : s'.state = s₁.state)
    (store : s'.store = s₁.store) (sessions : s'.sessions = s₁.sessions.emplace b')
    (next : s'.nextSession = b'.session) (config : s'.config = s₁.config) : Answered asks s b s' b'

variable {io : RequestIo} {frame : Frame} {b : SessionBinding} {s : RegistryService}

theorem hello_greeted {r : Except Status SessionBinding} {s' : RegistryService}
    (ran : (hello io frame.payload).exec s = (r, s')) : Greeted s r s' := by
  rw [hello, Prog.exec_ofExcept_bind] at ran
  cases decoded : Reader.decode HelloRequest.decode frame.payload with
  | error st =>
    rw [decoded] at ran
    cases ran
    exact .refused (.refl s)
  | ok request =>
    rw [decoded] at ran
    exact handleHello_greeted ran

theorem answer_answered : Answered (asksFor io frame b) s b (s.answer io frame b).2.2
    (s.answer io frame b).2.1 := by
  unfold answer
  split
  · rename_i unbound
    unfold greet
    split
    · exact .kept (.refl s) rfl
    · rcases ran : (hello io frame.payload).exec s with ⟨r, s'⟩
      cases hello_greeted ran with
      | refused moved =>
        have moved := moved.mono fun op => Or.inl (b := asksFor io frame b = some op)
        exact .kept { moved with } rfl
      | bound moved room session blank fresh counted =>
        exact .bound moved unbound room session
          (SessionBinding.identity_blank blank.1 blank.2) fresh counted rfl rfl rfl rfl rfl
  · rename_i bound
    unfold answerBound
    split
    · exact .kept { Moved.refl s with } rfl
    · rename_i later
      simp only
      rcases ran : (handleFrame io frame { b with
        lastRequest := frame.header.requestId
        acceptedRequests := tryIncrement b.acceptedRequests }).exec s with ⟨r, s'⟩
      have asks : asksFor io frame b = asked io frame (noted frame b) :=
        if_neg (not_or.mpr ⟨bound, later⟩)
      have moved : Moved (fun op => op = .allocateIncarnation ∨ asksFor io frame b = some op) s s' :=
        (handleFrame_moved ran).mono fun op asked => .inr (asks.trans asked)
      cases r with
      | ok reply => exact .kept { moved with } rfl
      | error refusal => exact .kept { moved with } rfl

end RegistryService

namespace RegistryHub

variable {h h' : RegistryHub} {n : Nat}

/-- The session table holds the sessions of the live connections, each under a number of its
own and for an incarnation of its own, and no more of them than it may. -/
structure Accounted (h : RegistryHub) (n : Nat) : Prop where
  sessions : h.service.sessions.rows.Perm h.live
  numbered : ∀ b ∈ h.service.sessions.rows, b.session ≤ h.service.nextSession
  few : h.service.nextSession.toNat ≤ n
  issued : ∀ b ∈ h.service.sessions.rows, b.incarnation ≤ h.service.state.incarnationCounter
  unique : (h.service.sessions.rows.map (·.incarnation)).Nodup
  bounded : h.service.sessions.size ≤ h.service.config.maxSessions.toNat
  distinct : h.alive.Nodup
  below : ∀ c ∈ h.alive, c < h.connections
  backed : h.service.Backed

/-- Events that neither bind nor end a connection. -/
theorem Accounted.kept (accounted : h.Accounted n)
    (moved : h.service.Moved (fun _ => True) h'.service)
    (alive : h'.alive = h.alive) (connections : h'.connections = h.connections)
    (same : ∀ c ∈ h.alive, (h'.bindingOf c).identity = (h.bindingOf c).identity) :
    h'.Accounted (n + 1) := by
  have live : h'.live = h.live := by
    rw [RegistryHub.live, RegistryHub.live, alive, List.map_congr_left same]
  have sessions := moved.sessions
  refine ⟨?_, ?_, ?_, ?_, ?_, ?_, ?_, ?_, ?_⟩
  · rw [sessions, live]
    exact accounted.sessions
  · rw [sessions, moved.nextSession]
    exact accounted.numbered
  · rw [moved.nextSession]
    exact accounted.few.trans n.le_succ
  · rw [sessions]
    exact fun b member => (accounted.issued b member).trans
      (moved.counters accounted.backed.footing.sound).1
  · rw [sessions]
    exact accounted.unique
  · rw [sessions, moved.config]
    exact accounted.bounded
  · rw [alive]
    exact accounted.distinct
  · rw [alive, connections]
    exact accounted.below
  · exact accounted.backed.moved moved

/-- One connection that is alive, and the rest. -/
theorem live_split {connection : Nat} (member : connection ∈ h.alive) :
    h.live.Perm (((h.bindingOf connection).identity ::
      (h.alive.erase connection).map fun c => (h.bindingOf c).identity).filter (·.session ≠ 0)) :=
  ((List.perm_cons_erase member).map fun c => (h.bindingOf c).identity).filter _

/-- An answer on a connection that is alive. -/
theorem Accounted.answered {connection : Nat} {s : RegistryService} {b : SessionBinding}
    (accounted : h.Accounted n) (short : n < maxWord.toNat) (member : connection ∈ h.alive)
    {asks : Option Op} (answered : h.service.Answered asks (h.bindingOf connection) s b)
    (service : h'.service = { s with stopping := h'.service.stopping }) (alive : h'.alive = h.alive)
    (connections : h'.connections = h.connections)
    (bindings : ∀ c, h'.bindingOf c = if c = connection then b else h.bindingOf c) :
    h'.Accounted (n + 1) := by
  cases answered with
  | kept moved same =>
    have moved' : h.service.Moved (fun _ => True) h'.service := by
      rw [service]
      exact { moved.mono fun _ _ => trivial with }
    refine accounted.kept moved' alive connections fun c _ => ?_
    rw [bindings]
    split
    · rename_i here
      rw [here, same]
    · rfl
  | @bound s₁ _ _ moved unbound room session blank fresh counted state _ sessions next config =>
    have sound := accounted.backed.footing.sound
    have last : h.service.nextSession ≠ maxWord := by
      intro full
      have few := accounted.few
      rw [full] at few
      omega
    have number : b.session = h.service.nextSession + 1 := session.trans (if_neg last)
    have set : b.identity.session ≠ 0 := by
      rw [blank, number]
      exact succ_ne_zero last
    have above : ∀ x ∈ h.service.sessions.rows, x.session < b.session := fun x inside => by
      rw [number]
      exact lt_of_le_of_lt (accounted.numbered x inside) (lt_succ last)
    have rows : h'.service.sessions.rows.Perm (b :: h.service.sessions.rows) := by
      have absent : h.service.sessions.find b.session = none := by
        rw [Option.eq_none_iff_forall_ne_some]
        intro x found
        obtain ⟨inside, key⟩ := SortedTable.find_eq_some.mp found
        exact absurd key (above x inside).ne
      rw [service]
      show s.sessions.rows.Perm _
      rw [sessions, moved.sessions, SortedTable.emplace, absent]
      exact SortedTable.rows_put_fresh fun x inside => (above x inside).ne
    have rest : (h.alive.erase connection).map (fun c => (h'.bindingOf c).identity) =
        (h.alive.erase connection).map fun c => (h.bindingOf c).identity := by
      refine List.map_congr_left fun c inside => ?_
      have other : c ≠ connection := fun same =>
        absurd (same ▸ inside) (List.Nodup.not_mem_erase accounted.distinct)
      rw [bindings, if_neg other]
    have live : h'.live.Perm (b :: h.live) := by
      have before := live_split member
      have idle : (h.bindingOf connection).identity.session = 0 := unbound
      rw [List.filter_cons_of_neg (by simpa using idle)] at before
      have now := live_split (alive ▸ member)
      rw [alive, rest, bindings, if_pos rfl, List.filter_cons_of_pos (by simpa using set),
        blank] at now
      exact now.trans (before.symm.cons b)
    have state : h'.service.state = s₁.state := by
      rw [service]
      exact state
    have next : h'.service.nextSession = b.session := by
      rw [service]
      exact next
    have config : h'.service.config = h.service.config := by
      rw [service]
      exact config.trans moved.config
    have counters := (moved.counters sound).1
    rw [← state] at counters counted
    refine ⟨rows.trans ((accounted.sessions.cons b).trans live.symm), ?_, ?_, ?_, ?_, ?_, ?_, ?_,
      (accounted.backed.moved moved).congr state⟩
    · intro x inside
      rw [next]
      rcases List.mem_cons.mp (rows.subset inside) with rfl | old
      · exact le_rfl
      · exact le_of_lt (above x old)
    · rw [next, number, toNat_succ last]
      exact Nat.succ_le_succ accounted.few
    · intro x inside
      rcases List.mem_cons.mp (rows.subset inside) with rfl | old
      · exact counted
      · exact (accounted.issued x old).trans counters
    · refine (rows.map _).nodup_iff.mpr (List.nodup_cons.mpr ⟨?_, accounted.unique⟩)
      intro shared
      obtain ⟨x, old, same⟩ := List.mem_map.mp shared
      exact absurd (lt_of_le_of_lt (accounted.issued x old) fresh) (same ▸ lt_irrefl _)
    · rw [SortedTable.size, rows.length_eq, config]
      exact room
    · rw [alive]
      exact accounted.distinct
    · rw [alive, connections]
      exact accounted.below

/-- A worker that is put back with the binding it had. -/
theorem setWorker_bindingOf {connection : Nat} {worker : RegistryWorker}
    (same : worker.binding = h.bindingOf connection) (c : Nat) :
    (h.setWorker connection worker).bindingOf c = h.bindingOf c := by
  show (Function.update h.workers connection worker c).binding = _
  rw [Function.update_apply]
  split
  · rename_i here
    rw [here, same]
  · rfl

theorem Accounted.connect (accounted : h.Accounted n) : h.connect.Accounted (n + 1) := by
  have idle : h.Accounted (n + 1) := accounted.kept (.refl _) rfl rfl fun _ _ => rfl
  unfold RegistryHub.connect
  split
  · exact idle
  · have live : RegistryHub.live { (h.setWorker h.connections {}) with
        alive := h.alive ++ [h.connections], connections := h.connections + 1 } = h.live := by
      have old : ∀ c ∈ h.alive, Function.update h.workers h.connections {} c = h.workers c :=
        fun c member => Function.update_of_ne (accounted.below c member).ne _ _
      simp only [RegistryHub.live, bindingOf, setWorker, List.map_append, List.filter_append,
        List.map_cons, List.map_nil, Function.update_self]
      rw [List.map_congr_left fun c member => congrArg (fun w : RegistryWorker =>
        w.binding.identity) (old c member), List.filter_cons_of_neg (by decide)]
      exact List.append_nil _
    refine ⟨?_, idle.numbered, idle.few, idle.issued, idle.unique, idle.bounded, ?_, ?_,
      idle.backed⟩
    · rw [live]
      exact idle.sessions
    · rw [List.nodup_append]
      refine ⟨accounted.distinct, List.nodup_singleton _, fun c member d single => ?_⟩
      rw [List.mem_singleton.mp single]
      exact (accounted.below c member).ne
    · intro c member
      rcases List.mem_append.mp member with old | single
      · exact Nat.lt_succ_of_lt (accounted.below c old)
      · rw [List.mem_singleton.mp single]
        exact Nat.lt_succ_self _

theorem Accounted.read (accounted : h.Accounted n) (connection : Nat) (arrival : Arrival) :
    (h.read connection arrival).Accounted (n + 1) := by
  have same : ∀ {worker : RegistryWorker}, worker.binding = h.bindingOf connection →
      ∀ c ∈ h.alive, ((h.setWorker connection worker).bindingOf c).identity =
        (h.bindingOf c).identity :=
    fun same c _ => congrArg SessionBinding.identity (setWorker_bindingOf same c)
  simp only [RegistryHub.read]
  split
  · cases arrival with
    | ended => exact accounted.kept (.refl _) rfl rfl (same rfl)
    | chunk bytes =>
      simp only [readChunk]
      split
      · exact accounted.kept (.refl _) rfl rfl (same rfl)
      split
      · exact accounted.kept ⟨rfl, rfl, rfl, .idle rfl rfl⟩ rfl rfl (same rfl)
      · exact accounted.kept (.refl _) rfl rfl (same rfl)
  · exact accounted.kept (.refl _) rfl rfl fun _ _ => rfl

/-- The exit of a worker takes its own session out of the table and nobody else's. -/
theorem Accounted.leave (accounted : h.Accounted n) (connection : Nat) :
    (h.leave connection).Accounted (n + 1) := by
  have idle : h.Accounted (n + 1) := accounted.kept (.refl _) rfl rfl fun _ _ => rfl
  unfold RegistryHub.leave
  split
  · rename_i leaving
    have split := live_split leaving.1
    have left : RegistryHub.live { h with alive := h.alive.erase connection } =
        ((h.alive.erase connection).map fun c => (h.bindingOf c).identity).filter
          (·.session ≠ 0) := rfl
    have distinct := accounted.distinct.erase connection
    have below : ∀ c ∈ h.alive.erase connection, c < h.connections := fun c member =>
      accounted.below c (List.mem_of_mem_erase member)
    by_cases unbound : (h.bindingOf connection).identity.session = 0
    · rw [List.filter_cons_of_neg (by simpa using unbound), ← left] at split
      simp only [if_pos (show (h.workers connection).binding.session = 0 from unbound)]
      exact ⟨accounted.sessions.trans split, idle.numbered, idle.few, idle.issued, idle.unique,
        idle.bounded, distinct, below, idle.backed⟩
    · rw [List.filter_cons_of_pos (by simpa using unbound), ← left] at split
      simp only [if_neg (show ¬ (h.workers connection).binding.session = 0 from unbound)]
      have rows := accounted.sessions.trans split
      have others : ∀ b ∈ RegistryHub.live { h with alive := h.alive.erase connection },
          b.session ≠ (h.bindingOf connection).session := by
        have keys := (rows.map (·.session)).nodup_iff.mp h.service.sessions.keys_nodup
        rw [List.map_cons, List.nodup_cons] at keys
        intro b member same
        exact keys.1 (List.mem_map.mpr ⟨b, member, same⟩)
      have sub := List.filter_sublist (l := h.service.sessions.rows)
        (p := fun b => decide (b.session ≠ (h.bindingOf connection).session))
      refine ⟨?_, fun b member => accounted.numbered b (sub.subset member), idle.few,
        fun b member => accounted.issued b (sub.subset member),
        accounted.unique.sublist (sub.map _), sub.length_le.trans accounted.bounded, distinct,
        below, idle.backed.congr rfl⟩
      have kept := rows.filter fun b => decide (b.session ≠ (h.bindingOf connection).session)
      rw [List.filter_cons_of_neg (by simp [SessionBinding.identity]),
        List.filter_eq_self.mpr fun b member => decide_eq_true (others b member)] at kept
      exact kept
  · exact idle

theorem Accounted.serve (accounted : h.Accounted n) (short : n < maxWord.toNat) (connection : Nat)
    (io : RequestIo) (written : Bool) : (h.serve connection io written).Accounted (n + 1) := by
  have idle : h.Accounted (n + 1) := accounted.kept (.refl _) rfl rfl fun _ _ => rfl
  simp only [RegistryHub.serve]
  split
  · rename_i running
    split
    · exact idle
    · rename_i frame rest pending
      have answered : h.service.Answered (RegistryService.asksFor io frame (h.bindingOf connection))
          (h.bindingOf connection)
          (h.service.answer io frame (h.workers connection).binding).2.2
          (h.service.answer io frame (h.workers connection).binding).2.1 :=
        RegistryService.answer_answered
      have bindings : ∀ worker : RegistryWorker, ∀ c,
          (Function.update h.workers connection worker c).binding =
            if c = connection then worker.binding else h.bindingOf c := by
        intro worker c
        rw [Function.update_apply]
        split
        · rfl
        · rfl
      split
      · exact accounted.answered short running.1 answered rfl rfl rfl (bindings _)
      split
      · exact accounted.answered short running.1 answered rfl rfl rfl (bindings _)
      · exact accounted.answered short running.1 answered rfl rfl rfl (bindings _)
  · exact idle

theorem Accounted.after (accounted : h.Accounted n) (short : n < maxWord.toNat)
    (e : RegistryEvent) : (h.after e).Accounted (n + 1) := by
  cases e with
  | connect => exact accounted.connect
  | read connection arrival => exact accounted.read connection arrival
  | serve connection io written => exact accounted.serve short connection io written
  | leave connection => exact accounted.leave connection
  | define io d =>
    have moved : h.service.Moved (· = .defineDomain d) (h.after (.define io d)).service :=
      RegistryService.defineDomain_moved (Prod.eta _).symm
    exact accounted.kept (moved.mono fun _ _ => trivial) rfl rfl fun _ _ => rfl
  | stop => exact accounted.kept ⟨rfl, rfl, rfl, .idle rfl rfl⟩ rfl rfl fun _ _ => rfl
  | drain => exact accounted.kept (.refl _) rfl rfl fun _ _ => rfl

/-- A run that is shorter than the session numbers are many. -/
theorem accounted_run (events : List RegistryEvent) (accounted : h.Accounted n)
    (short : n + events.length ≤ maxWord.toNat) :
    (run after h events).Accounted (n + events.length) := by
  induction events generalizing h n with
  | nil => exact accounted
  | cons e rest ih =>
    rw [List.length_cons] at short ⊢
    rw [show n + (rest.length + 1) = n + 1 + rest.length by omega] at short ⊢
    exact ih (accounted.after (by omega) e) short

/-- Whatever connects, greets, asks, fails and goes away: the session table of a registry that
was just opened holds the sessions of the live connections and no others, no two of them share
a number or an incarnation, and a hello finds the table full exactly when as many sessions are
alive as there may be. -/
theorem sessions_released (service : RegistryService) (backed : service.Backed)
    (nobody : service.sessions = SortedTable.empty) (first : service.nextSession = 0)
    (events : List RegistryEvent) (short : events.length ≤ maxWord.toNat) :
    let h := run after (opened service) events
    h.service.sessions.rows.Perm h.live ∧ (h.live.map (·.session)).Nodup ∧
      (h.live.map (·.incarnation)).Nodup ∧
      (h.service.config.maxSessions.toNat ≤ h.service.sessions.size ↔
        h.live.length = h.service.config.maxSessions.toNat) := by
  have start : (opened service).Accounted 0 := by
    have empty : (opened service).service.sessions = SortedTable.empty := nobody
    refine ⟨?_, ?_, ?_, ?_, ?_, ?_, List.nodup_nil, by simp [opened], backed⟩
    · rw [empty]
      exact .nil
    · simp [empty]
    · exact (congrArg UInt64.toNat first).le
    · simp [empty]
    · simp [empty]
    · simp [empty, SortedTable.size]
  have accounted := accounted_run events start (by omega)
  have sessions := accounted.sessions
  refine ⟨sessions, ?_, ?_, ?_⟩
  · exact (sessions.map _).nodup_iff.mp (SortedTable.keys_nodup _)
  · exact (sessions.map _).nodup_iff.mp accounted.unique
  · rw [← sessions.length_eq]
    exact ⟨fun full => le_antisymm accounted.bounded full, ge_of_eq⟩

section Samples

open History (sampleStart)
open RegistryService (emptyService emptyService_ready)

def greeting : Frame where
  header := { type := .helloRequest, requestId := 1 }
  payload := HelloRequest.encode { node := Id.make [110] }

/-- Two clients greet the registry, and the first one goes away. -/
def greetingEvents : List RegistryEvent := [
  .connect, .connect, .read 0 (.chunk (encodeFrame greeting)), .serve 0 {} true,
  .read 1 (.chunk (encodeFrame greeting)), .serve 1 {} true, .read 0 .ended, .leave 0]

theorem sessions_released_greeted : ∃ service : RegistryService,
    ((run after (opened service) greetingEvents).live.map (·.session)) = [2] ∧
    (run after (opened service) greetingEvents).service.sessions.rows.Perm
      (run after (opened service) greetingEvents).live := by
  have evaluated : sampleStart.map (fun h =>
      (run after (opened (emptyService h)) greetingEvents).live.map (·.session)) = some [2] := by
    decide +kernel
  obtain ⟨h, begun, sessions⟩ := Option.map_eq_some_iff.mp evaluated
  exact ⟨emptyService h, sessions,
    (sessions_released (emptyService h) (emptyService_ready begun).1 rfl rfl greetingEvents
      (by decide)).1⟩

end Samples

end RegistryHub
end SplitBrainFabric
