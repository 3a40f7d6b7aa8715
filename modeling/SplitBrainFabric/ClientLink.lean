import SplitBrainFabric.Clients
import SplitBrainFabric.Library.Conduit
import SplitBrainFabric.Provenance
import SplitBrainFabric.ReplyLengths

/-! A client and the worker that serves it, with the bytes between them. The client writes one
request and takes the next frame that comes for its answer: it does not look at the request
id of the frame. The other connections do what they like. -/

namespace SplitBrainFabric
open Words Runs

/-- How one `transact` ends for its caller, with the frame that came back. -/
inductive Reply where
  | unwritten (why : Failure)
  | unread (why : Failure)
  | heard (frame : Frame)

namespace Reply

def exchange : Reply → Exchange
  | .unwritten why => .unwritten why
  | .unread why => .unread why
  | .heard frame => .answered frame.header.type frame.payload

def frame : Reply → Option Frame
  | .heard frame => some frame
  | .unwritten _ | .unread _ => none

end Reply

/-- The client's end. Whatever is decoded beyond the frame that is waited for is kept; the log
is of the requests with how they ended. -/
structure ClientEnd where
  decoder : FrameDecoder := {}
  pending : List Frame := []
  awaiting : Option Frame := none
  disconnected : Bool := false
  log : List (Frame × Reply) := []

namespace ClientEnd

/-- The frames that were taken for answers, with the requests that they were taken for. -/
def answers (c : ClientEnd) : List (Frame × Frame) :=
  c.log.filterMap fun (request, reply) => reply.frame.map (request, ·)

def ended (reply : Reply) (c : ClientEnd) : ClientEnd :=
  { c with awaiting := none, log := c.log ++ (c.awaiting.map (·, reply)).toList }

/-- The head of the loop of `read_frame`: a frame that is there is returned. -/
def readFrame (c : ClientEnd) : ClientEnd :=
  match c.pending with
  | [] => c
  | reply :: rest => { c.ended (.heard reply) with pending := rest }

def disconnect (reply : Reply) (c : ClientEnd) : ClientEnd :=
  { c.ended reply with disconnected := true }

/-- A chunk that came while the client was waiting. -/
def receive (chunk : Bytes) (c : ClientEnd) : ClientEnd :=
  let pushed := c.decoder.push chunk
  let c := { c with decoder := pushed.decoder, pending := c.pending ++ pushed.frames }
  if ok : pushed.status.isOk = true then c.readFrame
  else c.disconnect (.unread ⟨pushed.status, Bool.eq_false_of_not_eq_true ok⟩)

end ClientEnd

/-- The two directions of a connection. What was written, what was read so far, and the frames
that were served with their replies, are kept for the record. -/
structure Link where
  client : ClientEnd := {}
  asked : List Frame := []
  up : Bytes := []
  taken : Bytes := []
  served : List (Frame × Frame) := []
  down : Bytes := []
  heard : Bytes := []

structure Linked where
  hub : RegistryHub
  link : Link := {}

/-- What may happen next: something on another connection, some of the client's bytes reach the
worker or no more will, the worker answers a frame and writes the reply or a part of it, the
client sends a request or a part of it, some of the worker's bytes reach the client, or the
client loses or closes the connection. -/
inductive LinkEvent where
  | hub (event : RegistryEvent)
  | deliver (bytes : Nat)
  | hangUp
  | serve (io : RequestIo) (part : Option Nat)
  | ask (type : MessageType) (request : RequestId) (payload : Bytes)
  | askPart (type : MessageType) (request : RequestId) (payload : Bytes) (bytes : Nat)
    (why : Failure)
  | receive (bytes : Nat)
  | lose (why : Failure)

/-- A request of less than four gigabytes, which is what the length field of a frame counts. -/
def LinkEvent.Brief : LinkEvent → Prop
  | .ask _ _ payload | .askPart _ _ payload _ _ => payload.length < 2 ^ 32
  | .hub _ | .deliver _ | .hangUp | .serve _ _ | .receive _ | .lose _ => True

instance : DecidablePred LinkEvent.Brief
  | .ask _ _ payload | .askPart _ _ payload _ _ =>
    inferInstanceAs (Decidable (payload.length < 2 ^ 32))
  | .hub _ | .deliver _ | .hangUp | .serve _ _ | .receive _ | .lose _ =>
    inferInstanceAs (Decidable True)

/-- The events that are about the socket of a connection. -/
def RegistryEvent.uses (connection : Nat) : RegistryEvent → Bool
  | .read c _ | .serve c _ _ => c = connection
  | _ => false

namespace RegistryHub

/-- The worker of a connection is in its loop. -/
def Serving (h : RegistryHub) (connection : Nat) : Prop :=
  connection ∈ h.alive ∧ (h.workers connection).leaving = false

instance (h : RegistryHub) (connection : Nat) : Decidable (h.Serving connection) :=
  inferInstanceAs (Decidable (_ ∧ _))

/-- The frame that a worker comes to next, and its reply. -/
def replies (h : RegistryHub) (connection : Nat) (io : RequestIo) : Option (Frame × Frame) :=
  let worker := h.workers connection
  if h.Serving connection then
    worker.pending.head?.map fun frame =>
      let answer := (h.service.answer io frame worker.binding).1
      (frame, {
        header := { type := answer.type, requestId := frame.header.requestId }
        payload := (answer.reply.map WireValue.payload).getD [] })
  else none

end RegistryHub

/-- The frame that a client makes of a request. -/
def requestFrame (type : MessageType) (request : RequestId) (payload : Bytes) : Frame where
  header := { type := type, requestId := request }
  payload := payload

namespace Linked

def setClient (client : ClientEnd) (s : Linked) : Linked :=
  { s with link := { s.link with client := client } }

/-- The client is between two requests. -/
def Idle (c : ClientEnd) : Prop := c.disconnected = false ∧ c.awaiting = none

instance (c : ClientEnd) : Decidable (Idle c) := inferInstanceAs (Decidable (_ ∧ _))

def after (connection : Nat) (s : Linked) : LinkEvent → Linked
  | .hub event => if event.uses connection then s else { s with hub := s.hub.after event }
  | .deliver n =>
    if s.hub.Serving connection ∧ (s.hub.workers connection).pending = [] ∧
        0 < n ∧ n ≤ s.link.up.length then
      { hub := s.hub.after (.read connection (.chunk (s.link.up.take n)))
        link := { s.link with
          up := s.link.up.drop n
          taken := s.link.taken ++ s.link.up.take n } }
    else s
  | .hangUp => { s with hub := s.hub.after (.read connection .ended) }
  | .serve io part =>
    match s.hub.replies connection io with
    | none => s
    | some (frame, reply) =>
      let image := encodeFrame reply
      let served := s.link.served ++ [(frame, reply)]
      match part with
      | none => {
          hub := s.hub.after (.serve connection io true)
          link := { s.link with served := served, down := s.link.down ++ image } }
      | some n =>
        if n < image.length then {
          hub := s.hub.after (.serve connection io false)
          link := { s.link with served := served, down := s.link.down ++ image.take n } }
        else s
  | .ask type request payload =>
    let frame := requestFrame type request payload
    if Idle s.link.client then
      { s with link := { s.link with
          client := { s.link.client with awaiting := some frame }.readFrame
          asked := s.link.asked ++ [frame]
          up := s.link.up ++ encodeFrame frame } }
    else s
  | .askPart type request payload n why =>
    let frame := requestFrame type request payload
    if Idle s.link.client ∧ n < (encodeFrame frame).length then
      { s with link := { s.link with
          client := { s.link.client with awaiting := some frame }.disconnect (.unwritten why)
          asked := s.link.asked ++ [frame]
          up := s.link.up ++ (encodeFrame frame).take n } }
    else s
  | .receive n =>
    if s.link.client.disconnected = false ∧ s.link.client.awaiting ≠ none ∧
        0 < n ∧ n ≤ s.link.down.length then
      { s with link := { s.link with
          client := s.link.client.receive (s.link.down.take n)
          down := s.link.down.drop n
          heard := s.link.heard ++ s.link.down.take n } }
    else s
  | .lose why => s.setClient (s.link.client.disconnect (.unread why))

end Linked

/-- A frame as a client or a service makes it, of less than four gigabytes. -/
def Frame.Sound (f : Frame) : Prop :=
  f.header.magic = frameMagic ∧ f.header.version = frameVersion ∧ f.payload.length < 2 ^ 32

namespace FrameDecoder

/-- A frame that is too long for a decoder gives the stream up. -/
theorem takes_sound {bound : PayloadBound} {f : Frame} (sound : f.Sound) :
    (nextFrame bound).Takes encodeFrame Frame.completed f := by
  obtain ⟨magic, version, short⟩ := sound
  intro rest
  by_cases fits : f.payload.length ≤ bound.maxPayload.toNat
  · exact .inl (nextFrame_encode magic version fits rest)
  · have exact' : (UInt32.ofNat f.payload.length).toNat = f.payload.length :=
      UInt32.toNat_ofNat_of_lt' short
    have header := readFrameHeader_encode f rest
    have type : readU16 (encodeFrame f ++ rest) 6 = f.header.type.code := by
      simp [readU16, encodeFrame, encodeFrameHead, readAt_behind, readAt_front, Writer.u32,
        Writer.u16]
    have long : bound.maxPayload < f.completed.header.payloadLength := by
      rw [UInt32.lt_iff_toNat_lt]
      show _ < (UInt32.ofNat f.payload.length).toNat
      omega
    have magic : f.completed.header.magic = frameMagic := magic
    have version : f.completed.header.version = frameVersion := version
    have full : ¬ (encodeFrame f ++ rest).length < 32 := by
      simp only [encodeFrame, List.length_append, encodeFrameHead_length, Writer.u32_length]
      omega
    have refused : checkHeader bound (encodeFrame f ++ rest) =
        .error (.make .exhausted .oversizedPayload f.completed.header.payloadLength.toUInt64) := by
      simp only [checkHeader, header, type, MessageType.fromCode_code, magic, version, ne_eq,
        not_true_eq_false, if_false, dif_pos long]
    exact .inr ⟨_, nextFrame_refused full refused⟩

/-- What a decoder makes of a stream does not depend on how far it was read before. -/
theorem push_read {d : FrameDecoder} {read : Bytes}
    (behind : d = ofLeft .default ((nextFrame .default).drain read).2) (chunk : Bytes) :
    (d.push chunk).decoder = ofLeft .default ((nextFrame .default).drain (read ++ chunk)).2 ∧
      ((nextFrame .default).drain (read ++ chunk)).1 =
        ((nextFrame .default).drain read).1 ++ (d.push chunk).frames := by
  rw [behind, push_ofLeft, Cutter.drain_append (nextFrame_stable .default)]
  exact ⟨rfl, rfl⟩

end FrameDecoder

namespace ClientEnd

variable {c : ClientEnd}

/-- What a client logs is an answer exactly if a frame came. -/
theorem ended_answers (reply : Reply) : (c.ended reply).answers =
    c.answers ++ (c.awaiting.bind fun request => reply.frame.map (request, ·)).toList := by
  rw [ended, answers, List.filterMap_append]
  cases c.awaiting with
  | none => rfl
  | some request =>
    cases reply with
    | unwritten why => rfl
    | unread why => rfl
    | heard frame => rfl

end ClientEnd

namespace RegistryHub

variable {h : RegistryHub} {connection : Nat}

/-- What an event that is not about the socket of a connection leaves of it, or makes of it. -/
structure Spared (connection : Nat) (h h' : RegistryHub) : Prop where
  worker : h'.workers connection = h.workers connection
  alive : connection ∈ h'.alive → connection ∈ h.alive
  connections : h.connections ≤ h'.connections
  born : (∀ c ∈ h.alive, c < h.connections) → ∀ c ∈ h'.alive, c < h'.connections

theorem Spared.of_same {h' : RegistryHub} (worker : h'.workers connection = h.workers connection)
    (alive : h'.alive = h.alive) (connections : h'.connections = h.connections) :
    Spared connection h h' where
  worker := worker
  alive := fun member => alive ▸ member
  connections := connections.ge
  born := by
    rw [alive, connections]
    exact id

theorem Spared.refl (connection : Nat) (h : RegistryHub) : Spared connection h h :=
  .of_same rfl rfl rfl

theorem spared_setWorker {other : Nat} {worker : RegistryWorker} (apart : connection ≠ other)
    (service : RegistryService) :
    Spared connection h { h.setWorker other worker with service := service } :=
  .of_same (Function.update_of_ne apart _ _) rfl rfl

theorem read_spared {other : Nat} (apart : connection ≠ other) (arrival : Arrival) :
    Spared connection h (h.read other arrival) := by
  simp only [RegistryHub.read]
  split
  · cases arrival with
    | ended => exact spared_setWorker apart _
    | chunk bytes =>
      simp only [readChunk]
      split
      · exact spared_setWorker apart _
      split
      · exact spared_setWorker apart _
      · exact spared_setWorker apart _
  · exact .refl connection h

theorem serve_spared {other : Nat} (apart : connection ≠ other) (io : RequestIo) (written : Bool) :
    Spared connection h (h.serve other io written) := by
  simp only [RegistryHub.serve]
  split
  · split
    · exact .refl connection h
    · split
      · exact spared_setWorker apart _
      split
      · exact spared_setWorker apart _
      · exact spared_setWorker apart _
  · exact .refl connection h

theorem leave_spared (other : Nat) : Spared connection h (h.leave other) := by
  simp only [RegistryHub.leave]
  split
  · exact ⟨rfl, fun member => List.mem_of_mem_erase member, le_rfl,
      fun born c member => born c (List.mem_of_mem_erase member)⟩
  · exact .refl connection h

/-- An event of the others either spares a connection or is the one that makes it. -/
theorem after_spared {event : RegistryEvent} (elsewhere : event.uses connection = false) :
    Spared connection h (h.after event) ∨
      h.connections = connection ∧ (h.after event).workers connection = {} ∧
        (h.after event).connections = connection + 1 ∧
        (h.after event).alive = h.alive ++ [connection] := by
  cases event with
  | connect =>
    simp only [RegistryHub.after, RegistryHub.connect]
    split
    · exact .inl (.refl connection h)
    · by_cases here : connection = h.connections
      · subst here
        exact .inr ⟨rfl, Function.update_self _ _ _, rfl, rfl⟩
      · refine .inl ⟨Function.update_of_ne here _ _, fun member => ?_, Nat.le_succ _,
          fun born c member => ?_⟩
        · exact (List.mem_append.mp member).resolve_right fun last =>
            here (List.mem_singleton.mp last)
        · rcases List.mem_append.mp member with old | last
          · exact Nat.lt_succ_of_lt (born c old)
          · rw [List.mem_singleton.mp last]
            exact Nat.lt_succ_self _
  | read other arrival =>
    exact .inl (read_spared (fun same => by simp [RegistryEvent.uses, same] at elsewhere) arrival)
  | serve other io written =>
    exact .inl (serve_spared (fun same => by simp [RegistryEvent.uses, same] at elsewhere) io
      written)
  | leave other => exact .inl (leave_spared other)
  | define io d => exact .inl (.of_same rfl rfl rfl)
  | stop => exact .inl (.of_same rfl rfl rfl)
  | drain => exact .inl (.of_same rfl rfl rfl)

theorem setWorker_self (worker : RegistryWorker) (service : RegistryService) :
    ({ h.setWorker connection worker with service := service } : RegistryHub).workers connection =
      worker := Function.update_self _ _ _

/-- A worker that took a chunk and goes on has fed it to its decoder. -/
theorem read_fed {bytes : Bytes} (serving : h.Serving connection)
    (idle : (h.workers connection).pending = [])
    (goes : (h.read connection (.chunk bytes)).Serving connection) :
    ((h.read connection (.chunk bytes)).workers connection).decoder =
        ((h.workers connection).decoder.push bytes).decoder ∧
      ((h.read connection (.chunk bytes)).workers connection).pending =
        ((h.workers connection).decoder.push bytes).frames := by
  have shape : ∃ worker service,
      h.read connection (.chunk bytes) = { h.setWorker connection worker with service := service } ∧
      (worker.leaving = false →
        worker.decoder = ((h.workers connection).decoder.push bytes).decoder ∧
        worker.pending = ((h.workers connection).decoder.push bytes).frames) := by
    simp only [RegistryHub.read, if_pos (And.intro serving.1 (And.intro serving.2 idle)), readChunk]
    split
    · exact ⟨{ h.workers connection with leaving := true }, h.service, rfl,
        fun goes => by cases goes⟩
    split
    · exact ⟨_, _, rfl, fun goes => by cases goes⟩
    · exact ⟨_, h.service, rfl, fun _ => ⟨rfl, rfl⟩⟩
  obtain ⟨worker, service, same, fed⟩ := shape
  have here : (h.read connection (.chunk bytes)).workers connection = worker := by
    rw [same, setWorker_self]
  have goes := goes.2
  rw [here] at goes ⊢
  exact fed goes

end RegistryHub

namespace RegistryHub

variable {h : RegistryHub} {connection : Nat}

theorem read_alive (arrival : Arrival) : (h.read connection arrival).alive = h.alive ∧
    (h.read connection arrival).connections = h.connections := by
  simp only [RegistryHub.read]
  split
  · cases arrival with
    | ended => exact ⟨rfl, rfl⟩
    | chunk bytes =>
      simp only [readChunk]
      split
      · exact ⟨rfl, rfl⟩
      split <;> exact ⟨rfl, rfl⟩
  · exact ⟨rfl, rfl⟩

/-- What a worker does with a frame: it is the next no more, and without a whole reply the
worker leaves. -/
structure ServeSpec (h : RegistryHub) (connection : Nat) (io : RequestIo) (written : Bool)
    (p : Frame × Frame) : Prop where
  pending : (h.workers connection).pending =
    p.1 :: ((h.serve connection io written).workers connection).pending
  decoder : ((h.serve connection io written).workers connection).decoder =
    (h.workers connection).decoder
  alive : (h.serve connection io written).alive = h.alive
  connections : (h.serve connection io written).connections = h.connections
  leaves : written = false → ((h.serve connection io written).workers connection).leaving = true

theorem serve_spec {io : RequestIo} {p : Frame × Frame}
    (next : h.replies connection io = some p) (written : Bool) :
    h.ServeSpec connection io written p := by
  unfold replies at next
  simp only at next
  split at next
  · rename_i serving
    obtain ⟨frame, head, rfl⟩ := Option.map_eq_some_iff.mp next
    obtain ⟨rest, pending⟩ := List.head?_eq_some_iff.mp head
    have shape : ∃ worker service,
        h.serve connection io written = { h.setWorker connection worker with service := service } ∧
        worker.pending = rest ∧ worker.decoder = (h.workers connection).decoder ∧
        (written = false → worker.leaving = true) := by
      have there : connection ∈ h.alive ∧ (h.workers connection).leaving = false := serving
      cases written with
      | false =>
        simp only [RegistryHub.serve, pending, if_pos there, if_true]
        exact ⟨_, _, rfl, rfl, rfl, fun _ => rfl⟩
      | true =>
        simp only [RegistryHub.serve, pending, if_pos there, Bool.true_eq_false, if_false]
        split
        · exact ⟨_, _, rfl, rfl, rfl, fun failed => failed.elim⟩
        · exact ⟨_, _, rfl, rfl, rfl, fun failed => failed.elim⟩
    obtain ⟨worker, service, same, left, decoder, leaves⟩ := shape
    have here : (h.serve connection io written).workers connection = worker := by
      rw [same, setWorker_self]
    refine ⟨by rw [here, left, pending], by rw [here, decoder], by rw [same]; rfl,
      by rw [same]; rfl, fun failed => by rw [here]; exact leaves failed⟩
  · cases next

end RegistryHub

namespace Linked

variable {k : Nat} {s : Linked}

open FrameDecoder (ofLeft nextFrame push_read takes_sound nextFrame_stable)

/-- What either end has made of the stream it reads, and what it was written. -/
structure Tied (k : Nat) (s : Linked) : Prop where
  up : Carries encodeFrame s.link.asked (s.link.client.disconnected = true)
    (s.link.taken ++ s.link.up)
  down : Carries encodeFrame (s.link.served.map (·.2)) ((s.hub.workers k).leaving = true)
    (s.link.heard ++ s.link.down)
  born : ∀ c ∈ s.hub.alive, c < s.hub.connections
  unborn : s.hub.connections ≤ k → s.link.taken = [] ∧ s.link.served = [] ∧
    s.link.heard ++ s.link.down = []
  worker : s.hub.Serving k →
    (s.hub.workers k).decoder = ofLeft .default ((nextFrame .default).drain s.link.taken).2 ∧
    ((nextFrame .default).drain s.link.taken).1 =
      s.link.served.map (·.1) ++ (s.hub.workers k).pending
  served : s.link.served.map (·.1) <+: ((nextFrame .default).drain s.link.taken).1
  client : s.link.client.disconnected = false →
    s.link.client.decoder = ofLeft .default ((nextFrame .default).drain s.link.heard).2 ∧
    ((nextFrame .default).drain s.link.heard).1 =
      s.link.client.answers.map (·.2) ++ s.link.client.pending
  answers : s.link.client.answers.map (·.2) <+: ((nextFrame .default).drain s.link.heard).1
  waiting : s.link.client.disconnected = false →
    s.link.asked = s.link.client.answers.map (·.1) ++ s.link.client.awaiting.toList
  pairs : s.link.client.answers.map (·.1) <+: s.link.asked
  sound : (∀ f ∈ s.link.asked, f.Sound) ∧ ∀ p ∈ s.link.served, p.2.Sound

/-- Frames of less than four gigabytes. -/
def Small (k : Nat) (s : Linked) : LinkEvent → Prop
  | .ask _ _ payload | .askPart _ _ payload _ _ => payload.length < 2 ^ 32
  | .serve io _ => ∀ p ∈ s.hub.replies k io, p.2.payload.length < 2 ^ 32
  | .hub _ | .deliver _ | .hangUp | .receive _ | .lose _ => True

/-- A registry that some run comes to replies with small frames by itself. -/
theorem small_of_brief (backed : s.hub.service.Backed) {event : LinkEvent} (brief : event.Brief) :
    s.Small k event := by
  cases event with
  | serve io part =>
    intro p next
    rw [RegistryHub.replies] at next
    split at next
    · obtain ⟨frame, -, rfl⟩ := Option.map_eq_some_iff.mp next
      exact backed.answer_short
    · cases next
  | ask type request payload => exact brief
  | askPart type request payload n why => exact brief
  | hub event => trivial
  | deliver n => trivial
  | hangUp => trivial
  | receive n => trivial
  | lose why => trivial

theorem backed_after (backed : s.hub.service.Backed) (event : LinkEvent) :
    (s.after k event).hub.service.Backed := by
  have moved := RegistryHub.backed_after backed
  cases event with
  | hub event =>
    rw [after]
    split
    · exact backed
    · exact moved event
  | deliver n =>
    rw [after]
    split
    · exact moved _
    · exact backed
  | hangUp => exact moved _
  | serve io part =>
    rw [after]
    split
    · exact backed
    · cases part with
      | none => exact moved _
      | some n =>
        simp only
        split
        · exact moved _
        · exact backed
  | ask type request payload =>
    rw [after]
    simp only
    split
    · exact backed
    · exact backed
  | askPart type request payload n why =>
    rw [after]
    simp only
    split
    · exact backed
    · exact backed
  | receive n =>
    rw [after]
    split
    · exact backed
    · exact backed
  | lose why => exact backed

theorem each_small {events : List LinkEvent} (backed : s.hub.service.Backed)
    (brief : ∀ event ∈ events, event.Brief) : Each (after k) (Small k) s events := by
  induction events generalizing s with
  | nil => trivial
  | cons event rest ih =>
    exact ⟨small_of_brief backed (brief event List.mem_cons_self),
      ih (backed_after backed event) fun e member => brief e (List.mem_cons_of_mem event member)⟩

/-- What either end has taken is the beginning of what the other has written. -/
theorem Tied.streams (tied : s.Tied k) :
    ((nextFrame .default).drain s.link.taken).1 <+: s.link.asked.map Frame.completed ∧
      ((nextFrame .default).drain s.link.heard).1 <+:
        (s.link.served.map (·.2)).map Frame.completed := by
  have stable := nextFrame_stable .default
  refine ⟨tied.up.taken stable fun f member => takes_sound (tied.sound.1 f member),
    tied.down.taken stable fun f member => ?_⟩
  obtain ⟨p, served, rfl⟩ := List.mem_map.mp member
  exact takes_sound (tied.sound.2 p served)

/-- An answer is in the place of the reply to the frame that it was taken for. -/
theorem Tied.matched (tied : s.Tied k) :
    s.link.client.answers.map (fun p => (p.1.completed, p.2)) <+:
      s.link.served.map fun p => (p.1, p.2.completed) := by
  obtain ⟨up, down⟩ := tied.streams
  refine @List.prefix_of_fst _ _ _ _ (s.link.asked.map Frame.completed) ?_ ?_ ?_
  · have front := tied.pairs.map Frame.completed
    rw [List.map_map] at front ⊢
    exact front
  · rw [List.map_map]
    exact tied.served.trans up
  · have back := tied.answers.trans down
    rw [List.map_map] at back ⊢
    rw [List.map_map]
    exact back

/-- While the client is between two requests nothing is left over at either end. -/
theorem Tied.idle (tied : s.Tied k) (idle : Idle s.link.client) :
    s.link.client.pending = [] := by
  obtain ⟨up, down⟩ := tied.streams
  have asked := tied.waiting idle.1
  have heard := (tied.client idle.1).2
  rw [idle.2, Option.toList_none, List.append_nil] at asked
  have few := down.length_le
  have fewer := (tied.served.trans up).length_le
  rw [heard] at few
  simp only [List.length_append, List.length_map, asked] at few fewer
  exact List.length_eq_zero_iff.mp (by omega)

/-- Something happens on another connection, or to the service. -/
theorem Tied.elsewhere (tied : s.Tied k) {event : RegistryEvent}
    (elsewhere : event.uses k = false) : Tied k { s with hub := s.hub.after event } := by
  rcases RegistryHub.after_spared (h := s.hub) elsewhere with
    spared | ⟨here, worker, connections, alive⟩
  · refine { tied with
      down := ?_, born := spared.born tied.born
      unborn := fun late => tied.unborn (spared.connections.trans late)
      worker := fun serving => ?_ }
    · rw [spared.worker]
      exact tied.down
    · rw [spared.worker]
      exact tied.worker ⟨spared.alive serving.1, spared.worker ▸ serving.2⟩
  · obtain ⟨taken, served, bytes⟩ := tied.unborn here.le
    refine { tied with
      down := ?_, born := fun c member => ?_, unborn := fun late => ?_, worker := fun _ => ?_ }
    · rw [served, bytes]
      exact .empty
    · rw [alive] at member
      rw [connections]
      rcases List.mem_append.mp member with old | last
      · exact Nat.lt_succ_of_lt (here ▸ tied.born c old)
      · rw [List.mem_singleton.mp last]
        exact Nat.lt_succ_self k
    · have late : (s.hub.after event).connections ≤ k := late
      rw [connections] at late
      exact absurd late (Nat.not_succ_le_self k)
    · rw [worker, taken, served, Cutter.drain_more (nextFrame_stable .default).waits]
      exact ⟨rfl, rfl⟩

theorem Tied.delivered (tied : s.Tied k) {n : Nat} (serving : s.hub.Serving k)
    (idle : (s.hub.workers k).pending = []) : Tied k {
      hub := s.hub.after (.read k (.chunk (s.link.up.take n)))
      link := { s.link with
        up := s.link.up.drop n
        taken := s.link.taken ++ s.link.up.take n } } := by
  have within : ∀ {p : Prop}, (s.hub.workers k).leaving = true → p := fun gone => by
    rw [serving.2] at gone
    cases gone
  obtain ⟨alive, connections⟩ :=
    @RegistryHub.read_alive s.hub k (.chunk (s.link.up.take n))
  obtain ⟨decoder, frames⟩ := tied.worker serving
  have pushed := push_read decoder (s.link.up.take n)
  refine { tied with
    up := ?_, down := tied.down.mono within, born := ?_, unborn := fun late => ?_
    worker := fun goes => ?_, served := ?_ }
  · rw [List.append_assoc, List.take_append_drop]
    exact tied.up
  · show ∀ c ∈ (s.hub.read k _).alive, c < (s.hub.read k _).connections
    rw [alive, connections]
    exact tied.born
  · have late : (s.hub.read k _).connections ≤ k := late
    rw [connections] at late
    exact absurd (tied.born k serving.1) (Nat.not_lt.mpr late)
  · obtain ⟨fed, pending⟩ := RegistryHub.read_fed serving idle goes
    refine ⟨fed.trans pushed.1, ?_⟩
    rw [pushed.2, frames, idle, List.append_nil]
    exact congrArg _ pending.symm
  · exact tied.served.trans (Cutter.drain_mono (nextFrame_stable .default)
      (List.prefix_append _ _))

theorem Tied.hungUp (tied : s.Tied k) :
    Tied k { s with hub := s.hub.after (.read k .ended) } := by
  show Tied k { s with hub := s.hub.read k .ended }
  rw [RegistryHub.read]
  split
  · have left := @RegistryHub.setWorker_self s.hub k
      { s.hub.workers k with leaving := true } s.hub.service
    have gone := congrArg RegistryWorker.leaving left
    refine { tied with down := tied.down.mono fun _ => gone, worker := fun serving => ?_ }
    exact absurd (gone.symm.trans serving.2) Bool.noConfusion
  · exact tied

theorem Tied.replied (tied : s.Tied k) {io : RequestIo} {p : Frame × Frame}
    (next : s.hub.replies k io = some p) (small : p.2.payload.length < 2 ^ 32) {written : Bool}
    {down : Bytes} (carries : Carries encodeFrame ((s.link.served ++ [p]).map (·.2))
      (((s.hub.after (.serve k io written)).workers k).leaving = true) (s.link.heard ++ down)) :
    Tied k {
      hub := s.hub.after (.serve k io written)
      link := { s.link with served := s.link.served ++ [p], down := down } } := by
  have serving : s.hub.Serving k := by
    by_contra not
    rw [RegistryHub.replies, if_neg not] at next
    cases next
  have spec := RegistryHub.serve_spec next written
  obtain ⟨decoder, frames⟩ := tied.worker serving
  rw [spec.pending] at frames
  have taken : ((nextFrame .default).drain s.link.taken).1 = (s.link.served ++ [p]).map (·.1) ++
      ((s.hub.serve k io written).workers k).pending := by
    rw [frames, List.map_append, List.append_assoc]
    rfl
  refine { tied with
    down := carries, born := ?_, unborn := fun late => ?_, worker := fun _ => ?_, served := ?_
    sound := ⟨tied.sound.1, fun q member => ?_⟩ }
  · show ∀ c ∈ (s.hub.serve k io written).alive, c < (s.hub.serve k io written).connections
    rw [spec.alive, spec.connections]
    exact tied.born
  · have late : (s.hub.serve k io written).connections ≤ k := late
    rw [spec.connections] at late
    exact absurd (tied.born k serving.1) (Nat.not_lt.mpr late)
  · exact ⟨spec.decoder.trans decoder, taken⟩
  · rw [taken]
    exact List.prefix_append _ _
  · rcases List.mem_append.mp member with old | last
    · exact tied.sound.2 q old
    · rw [List.mem_singleton.mp last]
      rw [RegistryHub.replies, if_pos serving] at next
      obtain ⟨frame, -, rfl⟩ := Option.map_eq_some_iff.mp next
      exact ⟨rfl, rfl, small⟩

/-- The end of a request without a frame. -/
theorem Tied.disconnected (tied : s.Tied k) {reply : Reply} (none : reply.frame = none) :
    Tied k (s.setClient (s.link.client.disconnect reply)) := by
  have answers : (s.link.client.disconnect reply).answers = s.link.client.answers := by
    show (s.link.client.ended reply).answers = _
    rw [ClientEnd.ended_answers, none]
    cases s.link.client.awaiting with
    | none => exact List.append_nil _
    | some request => exact List.append_nil _
  refine { tied with
    up := tied.up.mono fun _ => rfl, client := fun on => ?_, answers := ?_, waiting := fun on => ?_
    pairs := ?_ }
  · cases on
  · show (s.link.client.disconnect reply).answers.map (·.2) <+: _
    rw [answers]
    exact tied.answers
  · cases on
  · show (s.link.client.disconnect reply).answers.map (·.1) <+: _
    rw [answers]
    exact tied.pairs

theorem Tied.asks (tied : s.Tied k) (idle : Idle s.link.client) {frame : Frame}
    (sound : frame.Sound) : Tied k { s with link := { s.link with
      client := { s.link.client with awaiting := some frame }.readFrame
      asked := s.link.asked ++ [frame]
      up := s.link.up ++ encodeFrame frame } } := by
  have on : ¬ s.link.client.disconnected = true := by simp [idle.1]
  have none := tied.idle idle
  have waits : { s.link.client with awaiting := some frame }.readFrame =
      { s.link.client with awaiting := some frame } := by
    rw [ClientEnd.readFrame, none]
  have asked := tied.waiting idle.1
  rw [idle.2, Option.toList_none, List.append_nil] at asked
  rw [waits]
  refine { tied with
    up := ?_, waiting := fun _ => ?_, pairs := tied.pairs.trans (List.prefix_append _ _)
    sound := ⟨fun f member => ?_, tied.sound.2⟩ }
  · rw [← List.append_assoc]
    exact tied.up.write on frame
  · exact congrArg (· ++ [frame]) asked
  · rcases List.mem_append.mp member with old | last
    · exact tied.sound.1 f old
    · rw [List.mem_singleton.mp last]
      exact sound

theorem Tied.asksPart (tied : s.Tied k) (idle : Idle s.link.client) {frame : Frame}
    (sound : frame.Sound) (n : Nat) (why : Failure) : Tied k { s with link := { s.link with
      client := { s.link.client with awaiting := some frame }.disconnect (.unwritten why)
      asked := s.link.asked ++ [frame]
      up := s.link.up ++ (encodeFrame frame).take n } } := by
  have asks := tied.asks idle sound
  have empty := tied.idle idle
  have on : ¬ s.link.client.disconnected = true := by simp [idle.1]
  rw [ClientEnd.readFrame, empty] at asks
  have lost := asks.disconnected (show (Reply.unwritten why).frame = none from rfl)
  refine { lost with up := ?_ }
  rw [← List.append_assoc]
  exact tied.up.writePart on frame n rfl

/-- A frame that is there ends the wait for it. -/
theorem Tied.reads (tied : s.Tied k) (on : s.link.client.disconnected = false)
    {request : Frame} (waits : s.link.client.awaiting = some request) :
    Tied k (s.setClient s.link.client.readFrame) := by
  cases pending : s.link.client.pending with
  | nil =>
    rw [ClientEnd.readFrame, pending]
    exact tied
  | cons reply rest =>
    have answers : (s.link.client.ended (.heard reply)).answers =
        s.link.client.answers ++ [(request, reply)] := by
      rw [ClientEnd.ended_answers, waits]
      rfl
    have frames := (tied.client on).2
    have asked := tied.waiting on
    rw [pending, List.append_cons] at frames
    rw [waits, Option.toList_some] at asked
    have replies : (s.link.client.ended (.heard reply)).answers.map (·.2) =
        s.link.client.answers.map (·.2) ++ [reply] := by
      rw [answers, List.map_append]
      rfl
    have requests : (s.link.client.ended (.heard reply)).answers.map (·.1) = s.link.asked := by
      rw [answers, List.map_append, asked]
      rfl
    rw [ClientEnd.readFrame, pending]
    refine { tied with
      client := fun _ => ⟨(tied.client on).1, ?_⟩, answers := ?_, waiting := fun _ => ?_
      pairs := ?_ }
    · show _ = (s.link.client.ended (.heard reply)).answers.map (·.2) ++ rest
      rw [replies]
      exact frames
    · show (s.link.client.ended (.heard reply)).answers.map (·.2) <+:
        ((nextFrame .default).drain s.link.heard).1
      rw [replies, frames]
      exact List.prefix_append _ _
    · show _ = (s.link.client.ended (.heard reply)).answers.map (·.1) ++ []
      rw [requests, List.append_nil]
      rfl
    · show (s.link.client.ended (.heard reply)).answers.map (·.1) <+: _
      rw [requests]
      exact List.prefix_rfl

theorem Tied.receives (tied : s.Tied k) (on : s.link.client.disconnected = false)
    {request : Frame} (waits : s.link.client.awaiting = some request) (n : Nat) :
    Tied k { s with link := { s.link with
      client := s.link.client.receive (s.link.down.take n)
      down := s.link.down.drop n
      heard := s.link.heard ++ s.link.down.take n } } := by
  obtain ⟨decoder, frames⟩ := tied.client on
  obtain ⟨after, more⟩ := push_read decoder (s.link.down.take n)
  rw [frames, List.append_assoc] at more
  have pushed : Tied k { s with link := { s.link with
      client := { s.link.client with
        decoder := (s.link.client.decoder.push (s.link.down.take n)).decoder
        pending := s.link.client.pending ++
          (s.link.client.decoder.push (s.link.down.take n)).frames }
      down := s.link.down.drop n
      heard := s.link.heard ++ s.link.down.take n } } := by
    refine { tied with
      down := ?_, unborn := fun late => ?_, client := fun _ => ⟨after, more⟩
      answers := tied.answers.trans (Cutter.drain_mono (nextFrame_stable .default)
        (List.prefix_append _ _)) }
    · rw [List.append_assoc, List.take_append_drop]
      exact tied.down
    · rw [List.append_assoc, List.take_append_drop]
      exact tied.unborn late
  simp only [ClientEnd.receive]
  split
  · exact pushed.reads on waits
  · exact pushed.disconnected rfl

theorem Tied.after (tied : s.Tied k) (event : LinkEvent) (small : s.Small k event) :
    Tied k (s.after k event) := by
  cases event with
  | hub event =>
    rw [Linked.after]
    split
    · exact tied
    · exact tied.elsewhere (by simpa using ‹¬ event.uses k = true›)
  | deliver n =>
    rw [Linked.after]
    split
    · rename_i enabled
      exact tied.delivered enabled.1 enabled.2.1
    · exact tied
  | hangUp => exact tied.hungUp
  | serve io part =>
    rw [Linked.after]
    split
    · exact tied
    · rename_i frame reply next
      have on : ¬ (s.hub.workers k).leaving = true := by
        intro gone
        rw [RegistryHub.replies, if_neg fun serving => by simp [serving.2] at gone] at next
        cases next
      have spec := RegistryHub.serve_spec next
      cases part with
      | none =>
        refine tied.replied next (small _ next) ?_
        rw [← List.append_assoc, List.map_append]
        exact tied.down.write on reply
      | some n =>
        simp only
        split
        · refine tied.replied next (small _ next) ?_
          rw [← List.append_assoc, List.map_append]
          exact tied.down.writePart on reply n ((spec false).leaves rfl)
        · exact tied
  | ask type request payload =>
    rw [Linked.after]
    simp only
    split
    · rename_i idle
      exact tied.asks idle ⟨rfl, rfl, small⟩
    · exact tied
  | askPart type request payload n why =>
    rw [Linked.after]
    simp only
    split
    · rename_i enabled
      have sound : (requestFrame type request payload).Sound := ⟨rfl, rfl, small⟩
      exact tied.asksPart enabled.1 sound n why
    · exact tied
  | receive n =>
    rw [Linked.after]
    split
    · rename_i enabled
      obtain ⟨request, waits⟩ := Option.ne_none_iff_exists'.mp enabled.2.1
      exact tied.receives enabled.1 waits n
    · exact tied
  | lose why => exact tied.disconnected rfl

theorem Tied.start (k : Nat) (service : RegistryService) :
    Tied k { hub := RegistryHub.opened service } := by
  have silent : ((nextFrame .default).drain []) = ([], .ok []) :=
    Cutter.drain_more (nextFrame_stable .default).waits
  refine ⟨.empty, .empty, fun c member => ?_, fun _ => ⟨rfl, rfl, rfl⟩, fun serving => ?_,
    List.nil_prefix, fun _ => ?_, List.nil_prefix, fun _ => rfl, List.prefix_rfl,
    fun f member => ?_, fun p member => ?_⟩
  · cases member
  · cases serving.1
  · rw [silent]
    exact ⟨rfl, rfl⟩
  · cases member
  · cases member

/-- Small frames are all that is asked for, of any registry. -/
theorem tied_run (k : Nat) (service : RegistryService) {events : List LinkEvent}
    (small : Each (after k) (Small k) { hub := RegistryHub.opened service } events) :
    (run (after k) { hub := RegistryHub.opened service } events).Tied k :=
  each_invariant (fun _ e tied small => tied.after e small) (.start k service) small

/-- A client that never looks at a request id takes no answer for another. However the bytes are
cut up in both directions, whatever the other connections do, and wherever a connection breaks,
the frames that it takes for answers are the replies to just these requests, from the
first one on; and no request is served twice or out of its turn. Of the sizes, only that
of what the client asks is left to the client. -/
theorem answers_matched (k : Nat) (service : RegistryService) (backed : service.Backed)
    (events : List LinkEvent) (brief : ∀ event ∈ events, event.Brief) :
    let link := (run (after k) { hub := RegistryHub.opened service } events).link
    link.client.answers.map (fun p => (p.1.completed, p.2)) <+:
        link.served.map (fun p => (p.1, p.2.completed)) ∧
      link.served.map (·.1) <+: link.asked.map Frame.completed := by
  have start : (RegistryHub.opened service).service.Backed := backed
  have tied := tied_run k service (each_small start brief)
  exact ⟨tied.matched, tied.served.trans tied.streams.1⟩

section Samples

open Connection (freshService)
open History (servedStart)

/-- A service with a registry that has just begun. -/
def begunService : Option RegistryService :=
  servedStart.map fun h => { freshService with state := h.live }

theorem begunService_backed {service : RegistryService} (begun : begunService = some service) :
    service.Backed := by
  obtain ⟨h, start, rfl⟩ := Option.map_eq_some_iff.mp begun
  exact ⟨h, ⟨_, _, _, _, h, start, .refl⟩, rfl⟩

/-- A client greets the registry and pings it, in small pieces, beside another connection. -/
def pinged : List LinkEvent :=
  let hello := HelloRequest.encode { node := Id.make [110] }
  [.hub .connect, .ask .helloRequest 0 hello, .deliver 7, .hub .connect, .deliver 32,
    .serve {} none, .receive 30, .receive 55, .ask .pingRequest 1 [], .deliver 32,
    .hub (.serve 1 {} true), .serve {} none, .receive 31, .receive 1]

theorem answers_matched_pinged : ∃ service : RegistryService, service.Backed ∧
    let link := (run (after 0) { hub := RegistryHub.opened service } pinged).link
    link.client.answers.map (·.2.header.type) = [.helloResponse, .pingResponse] ∧
      link.client.answers.map (fun p => (p.1.completed, p.2)) <+:
        link.served.map (fun p => (p.1, p.2.completed)) ∧
      link.served.map (·.1) <+: link.asked.map Frame.completed := by
  have evaluated : (begunService.map fun service =>
      (run (after 0) { hub := RegistryHub.opened service } pinged).link.client.answers.map
        (·.2.header.type)) = some [.helloResponse, .pingResponse] := by
    decide +kernel
  obtain ⟨service, begun, heard⟩ := Option.map_eq_some_iff.mp evaluated
  have backed := begunService_backed begun
  exact ⟨service, backed, heard, answers_matched 0 service backed pinged (by decide +kernel)⟩

end Samples

end Linked
end SplitBrainFabric
