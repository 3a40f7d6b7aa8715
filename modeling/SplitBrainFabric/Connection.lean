import SplitBrainFabric.Service

/-! One connection of the registry: the worker takes frames off the stream and answers
them. Frames of one read are handled in an inner loop that goes on behind a frame after
which the connection has to end. -/

namespace SplitBrainFabric
open Words

namespace RegistryService

def hello (io : RequestIo) (payload : Bytes) : Prog Status RegistryService SessionBinding := do
  let request ← Prog.ofExcept (Reader.decode HelloRequest.decode payload)
  handleHello io request

/-- A frame of a connection without a session. -/
def greet (io : RequestIo) (frame : Frame) (binding : SessionBinding) (s : RegistryService) :
    Answer × SessionBinding × RegistryService :=
  if frame.header.type ≠ .helloRequest then
    ({ reply := some ⟨.errorResponse, {
         status := .make .invalid .sessionMismatch
         detail := ascii "first frame must be a hello" }⟩
       stop := some true }, binding, s)
  else
    match (hello io frame.payload).exec s with
    | (.ok established, s') =>
      ({ type := .helloResponse
         reply := some ⟨.helloResponse, greeting s.config established⟩ }, established,
        { s' with handledRequests := s'.handledRequests + 1 })
    | (.error refusal, s') =>
      ({ type := .helloResponse
         reply := some ⟨.helloResponse, {
           status := refusal
           serverIdentity := s.config.node.value }⟩
         stop := some true }, binding, { s' with rejectedRequests := s'.rejectedRequests + 1 })

/-- A frame of a connection with a session. -/
def answerBound (io : RequestIo) (frame : Frame) (binding : SessionBinding) (s : RegistryService) :
    Answer × SessionBinding × RegistryService :=
  if frame.header.requestId ≤ binding.lastRequest then
    ({ reply := some ⟨.errorResponse, {
         status := .make .invalid .requestIdRegression frame.header.requestId
         detail := ascii "request id must strictly increase within a session" }⟩
       stop := some true }, binding, { s with rejectedRequests := s.rejectedRequests + 1 })
  else
    let binding := { binding with
      lastRequest := frame.header.requestId
      acceptedRequests := tryIncrement binding.acceptedRequests }
    match (handleFrame io frame binding).exec s with
    | (.ok (type, reply), s') =>
      ({ type := type, reply := reply }, binding,
        { s' with handledRequests := s'.handledRequests + 1 })
    | (.error refusal, s') =>
      ({ reply := some ⟨.errorResponse, { status := refusal, detail := refusal.text }⟩
         stop := some (closesConnection refusal.reason) }, binding,
        { s' with rejectedRequests := s'.rejectedRequests + 1 })

def answer (io : RequestIo) (frame : Frame) (binding : SessionBinding) (s : RegistryService) :
    Answer × SessionBinding × RegistryService :=
  if binding.session = 0 then s.greet io frame binding else s.answerBound io frame binding

/-- A frame after which the connection has to end: no hello where one is due, a hello that
fails, a request id that does not rise, or a request refused for a terminal reason. -/
def Violates (io : RequestIo) (frame : Frame) (binding : SessionBinding) (s : RegistryService) :
    Prop :=
  if binding.session = 0 then
    frame.header.type = .helloRequest →
      ∃ refusal, ((hello io frame.payload).exec s).1 = .error refusal
  else
    binding.lastRequest < frame.header.requestId →
      ∃ refusal, ((handleFrame io frame { binding with
          lastRequest := frame.header.requestId
          acceptedRequests := tryIncrement binding.acceptedRequests }).exec s).1 =
        .error refusal ∧ closesConnection refusal.reason = true

theorem violates_iff {io : RequestIo} {frame : Frame} {binding : SessionBinding}
    {s : RegistryService} : Violates io frame binding s ↔
      (s.answer io frame binding).1.stop = some true := by
  unfold Violates answer
  by_cases fresh : binding.session = 0
  · simp only [if_pos fresh, greet]
    by_cases type : frame.header.type = .helloRequest
    · rcases (hello io frame.payload).exec s with ⟨result, s'⟩
      cases result with
      | ok established => simp [type]
      | error refusal => simp [type]
    · simp [type]
  · simp only [if_neg fresh, answerBound]
    by_cases old : frame.header.requestId ≤ binding.lastRequest
    · simp [old]
    · simp only [if_neg old]
      generalize (handleFrame io frame _).exec s = ran
      rcases ran with ⟨result, s'⟩
      cases result with
      | ok reply => simp [not_le.mp old]
      | error refusal => simp [not_le.mp old]

/-- No violation is answered like a shutdown. -/
theorem violates_type {io : RequestIo} {frame : Frame} {binding : SessionBinding}
    {s : RegistryService} (violates : Violates io frame binding s) :
    (s.answer io frame binding).1.type ≠ .shutdownResponse := by
  rw [violates_iff] at violates
  unfold answer at violates ⊢
  by_cases fresh : binding.session = 0
  · simp only [if_pos fresh, greet] at violates ⊢
    by_cases type : frame.header.type = .helloRequest
    · rcases ran : (hello io frame.payload).exec s with ⟨result, s'⟩
      cases result with
      | ok established => simp [type, ran] at violates
      | error refusal => simp [type]
    · simp [type]
  · simp only [if_neg fresh, answerBound] at violates ⊢
    by_cases old : frame.header.requestId ≤ binding.lastRequest
    · simp [old]
    · simp only [if_neg old] at violates ⊢
      revert violates
      generalize (handleFrame io frame _).exec s = ran
      rcases ran with ⟨result, s'⟩
      cases result with
      | ok reply => simp
      | error refusal => simp

end RegistryService

/-- What surrounds one frame: what the other connections did to the service before it, the
disk under it, and whether its reply could be written. -/
structure Surroundings where
  others : RegistryService → RegistryService := id
  io : RequestIo := {}
  written : Bool := true

/-- A frame that was handled, with what it was handled under. -/
structure Served where
  frame : Frame
  io : RequestIo
  binding : SessionBinding
  service : RegistryService

namespace Served

def Terminal (e : Served) : Prop := RegistryService.Violates e.io e.frame e.binding e.service

end Served

structure Connection where
  decoder : FrameDecoder := {}
  binding : SessionBinding := {}
  service : RegistryService := {}
  /-- The frames handled so far, oldest first. -/
  served : List Served := []
  sent : Bytes := []
  closed : Bool := false

/-- What a turn of the worker meets: the end of the connection, or bytes. -/
inductive Arrival where
  | ended
  | chunk (bytes : Bytes)

namespace Connection

def close (c : Connection) : Connection :=
  if c.closed = true then c
  else
    { c with
      closed := true
      service := if c.binding.session = 0 then c.service
        else c.service.releaseSession c.binding.session }

/-- What the worker finds when it comes to a frame. -/
def situation (around : Nat → Surroundings) (frame : Frame) (c : Connection) : Served where
  frame := frame
  io := (around c.served.length).io
  binding := c.binding
  service := (around c.served.length).others c.service

def handle (around : Nat → Surroundings) (frame : Frame) (c : Connection) : Answer × Connection :=
  let here := c.situation around frame
  let (answer, binding, service) := here.service.answer here.io frame c.binding
  let reply : Frame := {
    header := { type := answer.type, requestId := frame.header.requestId }
    payload := (answer.reply.map WireValue.payload).getD [] }
  (answer, { c with
    binding := binding
    service := service
    served := c.served ++ [here]
    sent := if (around c.served.length).written then c.sent ++ encodeFrame reply else c.sent })

/-- The frames of one read; the flag is the one that closes the connection behind them. -/
def serveAll (around : Nat → Surroundings) : List Frame → Bool → Connection → Bool × Connection
  | [], stop, c => (stop, c)
  | frame :: rest, stop, c =>
    let (answer, c') := c.handle around frame
    if (around c.served.length).written = false then (true, c')
    else if answer.type = .shutdownResponse then
      (true, { c' with service := { c'.service with stopping := true } })
    else serveAll around rest (answer.stop.getD stop) c'

def turn (around : Nat → Surroundings) (c : Connection) : Arrival → Connection
  | .ended => c.close
  | .chunk bytes =>
    if c.closed = true then c
    else if bytes = [] then c.close
    else
      let pushed := c.decoder.push bytes
      if pushed.status.isOk = false then
        { c with
          decoder := pushed.decoder
          service := { c.service with poisonEvents := c.service.poisonEvents + 1 } }.close
      else
        let (stop, c') := c.serveAll around pushed.frames false
        let c' := { c' with decoder := pushed.decoder }
        if (stop || c'.service.stopping) = true then c'.close else c'

def run (around : Nat → Surroundings) (arrivals : List Arrival) (c : Connection) : Connection :=
  arrivals.foldl (turn around) c

/-- The frames a turn hands to the inner loop. -/
def frames (c : Connection) : Arrival → List Frame
  | .ended => []
  | .chunk bytes =>
    if c.closed = true ∨ bytes = [] ∨ (c.decoder.push bytes).status.isOk = false then []
    else (c.decoder.push bytes).frames

/-- No frame stands behind a violation whose reply was written. -/
def Unfollowed (around : Nat → Surroundings) : List Frame → Connection → Prop
  | [], _ => True
  | frame :: rest, c =>
    (around c.served.length).written = true →
      ((c.situation around frame).Terminal → rest = []) ∧
      ((c.handle around frame).1.type ≠ .shutdownResponse →
        Unfollowed around rest (c.handle around frame).2)

/-- In no read does a frame stand behind a violation whose reply was written. -/
def Unbatched (around : Nat → Surroundings) : List Arrival → Connection → Prop
  | [], _ => True
  | a :: rest, c => Unfollowed around (c.frames a) c ∧ Unbatched around rest (c.turn around a)

/-- A violation is the last frame that is handled, and the connection is closed. -/
def EndsOnViolation (c : Connection) : Prop := ∀ before e after, c.served = before ++ e :: after →
  e.Terminal → after = [] ∧ c.closed = true

variable {around : Nat → Surroundings} {c : Connection}

theorem close_served (c : Connection) : c.close.served = c.served := by
  unfold close
  split
  · rfl
  · rfl

theorem close_closed (c : Connection) : c.close.closed = true := by
  unfold close
  by_cases closed : c.closed = true
  · rw [if_pos closed]
    exact closed
  · rw [if_neg closed]

theorem handle_served (frame : Frame) :
    (c.handle around frame).2.served = c.served ++ [c.situation around frame] := rfl

theorem handle_stop (frame : Frame) : (c.handle around frame).1.stop = some true ↔
    (c.situation around frame).Terminal := RegistryService.violates_iff.symm

theorem handle_type {frame : Frame} (terminal : (c.situation around frame).Terminal) :
    (c.handle around frame).1.type ≠ .shutdownResponse := RegistryService.violates_type terminal

/-- What the inner loop adds: all of the frames it handles but the last are harmless exactly
when nothing stands behind a violation, and a violation at the end raises the flag. -/
structure Batch (around : Nat → Surroundings) (frames : List Frame) (stop : Bool)
    (c : Connection) (more : List Served) : Prop where
  served : (serveAll around frames stop c).2.served = c.served ++ more
  none : more = [] ↔ frames = []
  harmless : (∀ e ∈ more.dropLast, ¬ e.Terminal) ↔ Unfollowed around frames c
  last : ∀ e, more.getLast? = some e → e.Terminal → (serveAll around frames stop c).1 = true

theorem serveAll_cut {frame : Frame} {rest : List Frame} {stop : Bool}
    (cut : (around c.served.length).written = false) :
    serveAll around (frame :: rest) stop c = (true, (c.handle around frame).2) := if_pos cut

theorem serveAll_shutdown {frame : Frame} {rest : List Frame} {stop : Bool}
    (written : (around c.served.length).written = true)
    (shutdown : (c.handle around frame).1.type = .shutdownResponse) :
    serveAll around (frame :: rest) stop c = (true, { (c.handle around frame).2 with
      service := { (c.handle around frame).2.service with stopping := true } }) :=
  (if_neg (by simp [written])).trans (if_pos shutdown)

theorem serveAll_next {frame : Frame} (rest : List Frame) (stop : Bool)
    (written : (around c.served.length).written = true)
    (next : (c.handle around frame).1.type ≠ .shutdownResponse) :
    serveAll around (frame :: rest) stop c =
      serveAll around rest ((c.handle around frame).1.stop.getD stop)
        (c.handle around frame).2 := (if_neg (by simp [written])).trans (if_neg next)

theorem batch_one {frame : Frame} {rest : List Frame} {stop : Bool} {c' : Connection}
    (ran : serveAll around (frame :: rest) stop c = (true, c'))
    (served : c'.served = c.served ++ [c.situation around frame])
    (free : Unfollowed around (frame :: rest) c) :
    Batch around (frame :: rest) stop c [c.situation around frame] where
  served := by rw [ran, served]
  none := by simp
  harmless := by simp [free]
  last := by simp [ran]

/-- Induction on the frames of the read. -/
theorem serveAll_batch (around : Nat → Surroundings) (frames : List Frame) (stop : Bool)
    (c : Connection) : ∃ more, Batch around frames stop c more := by
  induction frames generalizing stop c with
  | nil => exact ⟨[], by simp [serveAll], by simp, by simp [Unfollowed], by simp⟩
  | cons frame rest ih =>
    by_cases cut : (around c.served.length).written = false
    · exact ⟨_, batch_one (serveAll_cut cut) (handle_served frame) (by simp [Unfollowed, cut])⟩
    have written : (around c.served.length).written = true := by simpa using cut
    by_cases shutdown : (c.handle around frame).1.type = .shutdownResponse
    · have harmless : ¬ (c.situation around frame).Terminal := fun terminal =>
        handle_type terminal shutdown
      exact ⟨_, batch_one (serveAll_shutdown written shutdown) (handle_served frame)
        (by simp [Unfollowed, shutdown, harmless])⟩
    obtain ⟨more, tail⟩ := ih ((c.handle around frame).1.stop.getD stop) (c.handle around frame).2
    have next := serveAll_next rest stop written shutdown
    refine ⟨c.situation around frame :: more, ?_, by simp, ?_, ?_⟩
    · rw [next, tail.served, handle_served, List.append_assoc]
      rfl
    · by_cases last : rest = []
      · simp [Unfollowed, tail.none.mpr last, last]
      · have some : more ≠ [] := fun empty => last (tail.none.mp empty)
        rw [List.dropLast_cons_of_ne_nil some, List.forall_mem_cons, tail.harmless, Unfollowed]
        simp [written, shutdown, last]
    · intro e final terminal
      rw [next]
      by_cases last : more = []
      · rw [last] at final
        cases final
        have raised := (handle_stop frame).mpr terminal
        rw [tail.none.mp last, raised]
        rfl
      · rw [List.getLast?_cons_of_ne_nil last] at final
        exact tail.last e final terminal

/-- What one turn adds. -/
structure Turned (around : Nat → Surroundings) (a : Arrival) (c : Connection)
    (more : List Served) : Prop where
  served : (c.turn around a).served = c.served ++ more
  harmless : (∀ e ∈ more.dropLast, ¬ e.Terminal) ↔ Unfollowed around (c.frames a) c
  last : ∀ e, more.getLast? = some e → e.Terminal → (c.turn around a).closed = true
  silent : c.closed = true → more = [] ∧ (c.turn around a).closed = true

theorem turned_none {a : Arrival} (frames : c.frames a = [])
    (served : (c.turn around a).served = c.served)
    (silent : c.closed = true → (c.turn around a).closed = true) : Turned around a c [] where
  served := by rw [served, List.append_nil]
  harmless := by simp [frames, Unfollowed]
  last := by simp
  silent closed := ⟨rfl, silent closed⟩

theorem turn_turned (around : Nat → Surroundings) (a : Arrival) (c : Connection) :
    ∃ more, Turned around a c more := by
  cases a with
  | ended => exact ⟨[], turned_none rfl (close_served c) fun _ => close_closed c⟩
  | chunk bytes =>
    by_cases closed : c.closed = true
    · have same : c.turn around (.chunk bytes) = c := if_pos closed
      exact ⟨[], turned_none (if_pos (.inl closed)) (by rw [same]) fun _ => by rw [same, closed]⟩
    by_cases empty : bytes = []
    · have same : c.turn around (.chunk bytes) = c.close :=
        (if_neg closed).trans (if_pos empty)
      exact ⟨[], turned_none (if_pos (.inr (.inl empty))) (by rw [same, close_served])
        fun shut => absurd shut closed⟩
    by_cases poisoned : (c.decoder.push bytes).status.isOk = false
    · have same : c.turn around (.chunk bytes) = { c with
          decoder := (c.decoder.push bytes).decoder
          service := { c.service with poisonEvents := c.service.poisonEvents + 1 } }.close :=
        (if_neg closed).trans ((if_neg empty).trans (if_pos poisoned))
      exact ⟨[], turned_none (if_pos (.inr (.inr poisoned))) (by rw [same, close_served])
        fun shut => absurd shut closed⟩
    have same : c.turn around (.chunk bytes) = _ :=
      (if_neg closed).trans ((if_neg empty).trans (if_neg poisoned))
    have frames : c.frames (.chunk bytes) = (c.decoder.push bytes).frames :=
      if_neg (by simp [closed, empty, poisoned])
    obtain ⟨more, batch⟩ := serveAll_batch around (c.decoder.push bytes).frames false c
    have served := batch.served
    have last := batch.last
    rcases ran : serveAll around (c.decoder.push bytes).frames false c with ⟨stop, c'⟩
    rw [ran] at same served last
    refine ⟨more, ?_, frames ▸ batch.harmless, ?_, fun shut => absurd shut closed⟩
    · rw [same, ← served]
      by_cases shut : (stop || c'.service.stopping) = true
      · exact (congrArg Connection.served (if_pos shut)).trans (close_served _)
      · exact (congrArg Connection.served (if_neg shut)).trans rfl
    · intro e final terminal
      have raised : stop = true := last e final terminal
      rw [same]
      simp only [raised, Bool.true_or, if_true]
      exact close_closed _

/-- A violation that is the last frame so far has closed the connection. -/
def Settled (c : Connection) : Prop :=
  ∀ e, c.served.getLast? = some e → e.Terminal → c.closed = true

theorem Settled.turn (settled : Settled c) (a : Arrival) : Settled (c.turn around a) := by
  obtain ⟨more, turned⟩ := turn_turned around a c
  intro e final terminal
  rw [turned.served] at final
  by_cases none : more = []
  · rw [none, List.append_nil] at final
    exact (turned.silent (settled e final terminal)).2
  · rw [List.getLast?_append_of_ne_nil _ none] at final
    exact turned.last e final terminal

theorem endsOnViolation_iff (settled : Settled c) :
    EndsOnViolation c ↔ ∀ e ∈ c.served.dropLast, ¬ e.Terminal := by
  constructor
  · intro ends e member terminal
    obtain ⟨before, after, parts⟩ := List.append_of_mem member
    have some : c.served ≠ [] := fun none => by simp [none] at member
    have whole : c.served = before ++ e :: (after ++ [c.served.getLast some]) := by
      rw [← List.cons_append, ← List.append_assoc, ← parts, List.dropLast_append_getLast]
    have none := (ends before e _ whole terminal).1
    simp at none
  · intro harmless before e after parts terminal
    have none : after = [] := by
      by_contra some
      apply harmless e _ terminal
      rw [parts, List.dropLast_append_of_ne_nil (List.cons_ne_nil e after),
        List.dropLast_cons_of_ne_nil some]
      simp
    exact ⟨none, settled e (by simp [parts, none]) terminal⟩

/-- The step of the induction over the reads. -/
theorem endsOnViolation_turn (settled : Settled c) (a : Arrival) :
    EndsOnViolation (c.turn around a) ↔ EndsOnViolation c ∧ Unfollowed around (c.frames a) c := by
  obtain ⟨more, turned⟩ := turn_turned around a c
  rw [endsOnViolation_iff (settled.turn a), endsOnViolation_iff settled, turned.served,
    ← turned.harmless]
  by_cases none : more = []
  · simp [none]
  have opened : ¬ c.closed = true := fun closed => none (turned.silent closed).1
  rw [List.dropLast_append_of_ne_nil none, List.forall_mem_append]
  apply and_congr_left'
  constructor
  · exact fun harmless e member => harmless e (List.mem_of_mem_dropLast member)
  · intro harmless e member terminal
    have some : c.served ≠ [] := List.ne_nil_of_mem member
    rw [← List.dropLast_append_getLast some, List.mem_append, List.mem_singleton] at member
    rcases member with early | rfl
    · exact harmless e early terminal
    · exact opened (settled _ (List.getLast?_eq_getLast_of_ne_nil some) terminal)

theorem endsOnViolation_run (settled : Settled c) (arrivals : List Arrival) :
    EndsOnViolation (run around arrivals c) ↔ EndsOnViolation c ∧ Unbatched around arrivals c := by
  induction arrivals generalizing c with
  | nil => simp [run, Unbatched]
  | cons a rest ih =>
    have next : Settled (c.turn around a) := settled.turn a
    have step := ih next
    rw [endsOnViolation_turn settled, and_assoc] at step
    exact step

/-- Whatever arrives in whatever reads, a connection ends on its first violation exactly
when no read holds a frame behind a violation. -/
theorem ends_on_violation_iff (around : Nat → Surroundings) (arrivals : List Arrival)
    (service : RegistryService) :
    EndsOnViolation (run around arrivals { service := service }) ↔
      Unbatched around arrivals { service := service } := by
  have settled : Settled { service := service } := by
    intro e final
    cases final
  have start : EndsOnViolation { service := service } := by
    intro before e after split
    exact absurd split (by simp)
  rw [endsOnViolation_run settled]
  exact and_iff_right start

/-- A ping, and behind it in the same read a hello of a node `n`. -/
def pingThenHello : List Frame := [
  { header := { type := .pingRequest, requestId := 1 } },
  { header := { type := .helloRequest, requestId := 2 }
    payload := HelloRequest.encode { node := Id.make [110] } }]

def freshService : RegistryService where
  config := { storeId := Id.make [115], node := Id.make [114] }
  store := { opened := true, storeId := Id.make [115] }
  state := { storeId := Id.make [115], boot := { boot := 1, incarnation := 1 }
             incarnationCounter := 1 }

theorem push_pingThenHello : FrameDecoder.push (pingThenHello.flatMap encodeFrame) {} =
    ⟨.ok, pingThenHello.map Frame.completed, {}⟩ := by
  have drained : (FrameDecoder.nextFrame .default).drain ([] ++ pingThenHello.flatMap encodeFrame) =
      (pingThenHello.map Frame.completed, .ok []) := by
    apply FrameDecoder.drain_encoded
    · decide
    · decide
  have pushed := FrameDecoder.push_ofLeft .default (pingThenHello.flatMap encodeFrame) (.ok [])
  rw [Cutter.feed, drained] at pushed
  exact pushed

/-- The hello is handled although the ping before it had to be the last frame. -/
theorem violation_followed :
    (run (fun _ => {}) [.chunk (pingThenHello.flatMap encodeFrame)]
      { service := freshService }).binding.session = 1 ∧
    ¬ EndsOnViolation (run (fun _ => {}) [.chunk (pingThenHello.flatMap encodeFrame)]
      { service := freshService }) := by
  have filled : pingThenHello.flatMap encodeFrame ≠ [] := by
    intro empty
    have none := congrArg List.length empty
    simp [pingThenHello, encodeFrame] at none
  constructor
  · simp only [run, List.foldl_cons, List.foldl_nil, turn, if_neg filled, push_pingThenHello]
    decide +kernel
  · intro ends
    have settled : Settled { service := freshService } := by
      intro e final
      cases final
    have frames : frames { service := freshService }
        (.chunk (pingThenHello.flatMap encodeFrame)) = pingThenHello.map Frame.completed := by
      simp [Connection.frames, filled, push_pingThenHello]
    have unfollowed := ((endsOnViolation_run settled _).mp ends).2.1
    rw [frames] at unfollowed
    have alone := (unfollowed rfl).1 fun type => by cases type
    cases alone

end Connection
end SplitBrainFabric
