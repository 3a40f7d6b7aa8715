import SplitBrainFabric.Connection
import SplitBrainFabric.Issuance
import SplitBrainFabric.Lockstep

/-! What one frame, one hello and one definition do to a service: at most one operation of its
registry, and at most one session that is new. -/

namespace SplitBrainFabric
open Words Decoder

/-- The counter is at an incarnation that was allocated. -/
theorem Work.allocateIncarnation_counted {w w' : Work} {now : Step} {i : IncarnationId}
    (ran : (allocateIncarnation now).exec w = (.ok i, w')) : i ≤ w'.state.incarnationCounter := by
  rw [allocateIncarnation, Prog.exec_get_bind, Prog.exec_refuseIf] at ran
  split at ran
  · cases ran
  rw [Prog.exec_bind] at ran
  rcases emitted : (emit .incarnationAllocate (Writer.u64 (w.state.incarnationCounter + 1)) .ok
    now).exec w with ⟨result, w₁⟩
  rw [emitted] at ran
  cases result with
  | error st => cases ran
  | ok u =>
    cases ran
    rcases emit_cases emitted with ⟨s, -, rfl, applied⟩ | ⟨_, _, failed, -⟩
    · obtain ⟨-, -, entry, read, enacted⟩ := RegistryState.apply_ok applied
      have same : entry = .incarnationAllocate (w.state.incarnationCounter + 1) :=
        read_back (reads_u64 _).agrees read
      have counted := (RegistryState.enact_counters enacted).2.2.2.2.2
      rw [same] at counted
      exact counted
    · cases failed

namespace RegistryService

variable {io : RequestIo} {s s₁ s' : RegistryService}

/-- The registry and the store behind an operation, whatever became of its records. -/
inductive Performed (s : RegistryService) (op : Op) (state : RegistryState) (store : Store) : Prop
  | silent (none : s.produced op = []) (same : state = (s.performed op).state)
    (kept : store = s.store)
  | written {io : RequestIo} {r : Except Status PUnit} {t : RegistryService}
    (appended : (appendRecords io (s.produced op)).exec (s.performed op) = (r, t))
    (same : state = (s.performed op).state) (kept : store = t.store)

/-- The registry and the store behind at most one operation, of those there may be. -/
inductive Worked (may : Op → Prop) (s : RegistryService) (state : RegistryState) (store : Store) :
    Prop
  | idle (same : state = s.state) (kept : store = s.store)
  | performed {op : Op} (allowed : may op) (room : s.state.clock ≠ maxWord)
    (done : s.Performed op state store)

variable {may may' : Op → Prop} {state : RegistryState} {store : Store}

theorem Performed.reached {op : Op} (done : s.Performed op state store) :
    state = (s.performed op).state := by
  cases done with
  | silent none same kept => exact same
  | written appended same kept => exact same

theorem Worked.outcome (worked : Worked may s state store) : state = s.state ∨
    ∃ op, may op ∧ s.state.clock ≠ maxWord ∧ state = (s.performed op).state := by
  cases worked with
  | idle same kept => exact .inl same
  | performed allowed room done => exact .inr ⟨_, allowed, room, done.reached⟩

theorem Worked.mono (worked : Worked may s state store) (more : ∀ op, may op → may' op) :
    Worked may' s state store := by
  cases worked with
  | idle same kept => exact .idle same kept
  | performed allowed room done => exact .performed (more _ allowed) room done

/-- The same sessions under the same configuration, with at most one operation more. -/
structure Moved (may : Op → Prop) (s s' : RegistryService) : Prop where
  config : s'.config = s.config
  sessions : s'.sessions = s.sessions
  nextSession : s'.nextSession = s.nextSession
  worked : Worked may s s'.state s'.store

theorem Moved.refl (s : RegistryService) : Moved may s s := ⟨rfl, rfl, rfl, .idle rfl rfl⟩

theorem Moved.silent {op : Op} (allowed : may op) (room : s.state.clock ≠ maxWord)
    (none : s.produced op = []) : Moved may s (s.performed op) :=
  ⟨rfl, rfl, rfl, .performed allowed room (.silent none rfl rfl)⟩

theorem Moved.mono (moved : Moved may s s') (more : ∀ op, may op → may' op) : Moved may' s s' :=
  { moved with worked := moved.worked.mono more }

/-- The records are written from the registry as it is, and nobody's session is touched. -/
theorem appendRecords_stored {records : List JournalRecord} {r : Except Status PUnit}
    (ran : (appendRecords io records).exec s = (r, s')) :
    s' = { s with store := s'.store, recordsSinceCheckpoint := s'.recordsSinceCheckpoint } := by
  let stored (t : RegistryService) : Prop :=
    t = { s with store := t.store, recordsSinceCheckpoint := t.recordsSinceCheckpoint }
  have written : ∀ {α : Type} (m : Prog Status Store α), (onStore m).Keeps stored :=
    fun m => .of_run fun t r t' before ran => by
      rw [onStore, Prog.exec_zoom] at ran
      cases ran
      rw [before]
  have counted : ∀ f : UInt64 → UInt64, Prog.Keeps stored (modify fun t =>
      { t with recordsSinceCheckpoint := f t.recordsSinceCheckpoint } :
        Prog Status RegistryService PUnit) := fun f => .modify fun t before => by rw [before]
  have keeps : (appendRecords io records).Keeps stored := by
    rw [appendRecords_eq]
    have turns : ∀ turn, (appendOne io turn).Keeps stored := fun _ =>
      .bind (written _) fun _ => counted (· + 1)
    refine .bind (.forM turns _) fun _ => .get fun t _ => .ite ?_ (.pure _)
    exact .bind (written _) fun _ => counted fun _ => 0
  exact keeps.run rfl ran

theorem Performed.appended {op : Op} {r : Except Status PUnit}
    (ran : (appendRecords io (s.produced op)).exec (s.performed op) = (r, s')) :
    s.Performed op s'.state s'.store :=
  .written ran (congrArg (·.state) (appendRecords_stored ran)) rfl

theorem Moved.written {op : Op} {r : Except Status PUnit} (allowed : may op)
    (room : s.state.clock ≠ maxWord)
    (ran : (appendRecords io (s.produced op)).exec (s.performed op) = (r, s')) : Moved may s s' := by
  have stored := appendRecords_stored ran
  exact ⟨congrArg (·.config) stored, congrArg (·.sessions) stored, congrArg (·.nextSession) stored,
    .performed allowed room (.appended ran)⟩

theorem decide_silent (request : DecideRequest) (sorting : Sorting) :
    s.produced (.decide request sorting) = [] := by
  have same : (Op.decide request sorting).after (s.state.clock + 1) s.work = s.work :=
    Work.decide_spec (Prod.eta _).symm
  rw [produced, same]
  rfl

theorem handleFrame_moved {frame : Frame} {binding : SessionBinding}
    {r : Except Status (MessageType × Option WireValue)}
    (ran : (handleFrame io frame binding).exec s = (r, s')) :
    Moved (fun op => asked io frame binding = some op) s s' := by
  cases handleFrame_handled ran with
  | idle silent => exact .refl s
  | timeless asks full => exact .refl s
  | @unrecorded op asks room aside =>
    cases op with
    | decide request sorting => exact .silent asks room (decide_silent request sorting)
    | _ => cases aside
  | written asks room records appended => exact .written asks room appended
  | unwritten asks room records appended => exact .written asks room appended

/-- An operation that is asked for is performed, unless the clock is at its end. -/
theorem handleFrame_performs {frame : Frame} {binding : SessionBinding} {op : Op}
    {r : Except Status (MessageType × Option WireValue)}
    (asks : asked io frame binding = some op) (room : s.state.clock ≠ maxWord)
    (ran : (handleFrame io frame binding).exec s = (r, s')) : s.Performed op s'.state s'.store := by
  cases handleFrame_handled ran with
  | idle silent =>
    rw [silent] at asks
    cases asks
  | timeless _ full => exact absurd full room
  | @unrecorded other same _ aside =>
    cases asks.symm.trans same
    cases op with
    | decide request sorting => exact .silent (decide_silent request sorting) rfl rfl
    | _ => cases aside
  | written same _ records appended =>
    cases asks.symm.trans same
    exact .appended appended
  | unwritten same _ records appended =>
    cases asks.symm.trans same
    exact .appended appended

/-- An operation at the next step of the clock, and what is made of it. -/
theorem exec_performed {ε α β : Type} {m : Step → Prog ε Work α} (op : Op)
    (after : ∀ now w, ((m now).exec w).2 = op.after now w)
    (f : Except ε α × List JournalRecord → Prog Status RegistryService β) :
    (onRegistry advance >>= fun now => perform (m now) >>= f).exec s =
      if s.state.clock = maxWord then (.error (.make .exhausted .counterOverflow), s)
      else (f (((m (s.state.clock + 1)).exec s.work).1, s.produced op)).exec (s.performed op) := by
  by_cases full : s.state.clock = maxWord
  · rw [if_pos full, Prog.exec_bind_error (advance_exec.trans (if_pos full))]
  · rw [if_neg full, Prog.exec_bind_ok (advance_exec.trans (if_neg full)), exec_perform]
    rw [produced, RegistryService.performed, ← after]
    rfl

theorem defineDomain_moved {d : DomainDefinition} {r : Except Status PUnit}
    (ran : (defineDomain io d).exec s = (r, s')) : Moved (· = .defineDomain d) s s' := by
  have opened : (defineDomain io d).exec s = _ :=
    exec_performed (.defineDomain d) (fun _ _ => rfl) _
  rw [opened] at ran
  by_cases full : s.state.clock = maxWord
  · rw [if_pos full] at ran
    cases ran
    exact .refl s
  rw [if_neg full, Prog.exec_ofExcept_bind] at ran
  cases defined : ((Work.defineDomain d (s.state.clock + 1)).exec s.work).1 with
  | error st =>
    simp only [defined] at ran
    cases ran
    refine .silent rfl full ?_
    have ended : (Work.defineDomain d (s.state.clock + 1)).exec s.work = (.error st, _) :=
      Prod.ext defined rfl
    exact Work.defineDomain_unwritten ended
  | ok u =>
    simp only [defined] at ran
    exact .written rfl full ran

/-- How a hello ends. A session that is new has an incarnation that is new, and the session
table had room for it. -/
inductive Greeted (s : RegistryService) : Except Status SessionBinding → RegistryService → Prop
  | refused {st : Status} {s' : RegistryService} (moved : Moved (· = .allocateIncarnation) s s') :
    Greeted s (.error st) s'
  | bound {binding : SessionBinding} {s₁ : RegistryService}
    (moved : Moved (· = .allocateIncarnation) s s₁)
    (room : s.sessions.size < s.config.maxSessions.toNat)
    (session : binding.session = tryIncrement s.nextSession)
    (blank : binding.lastRequest = 0 ∧ binding.acceptedRequests = 0)
    (fresh : s.state.incarnationCounter < binding.incarnation)
    (counted : binding.incarnation ≤ s₁.state.incarnationCounter) :
    Greeted s (.ok binding)
      { s₁ with nextSession := binding.session, sessions := s₁.sessions.emplace binding }

theorem Moved.counters (moved : Moved may s s') (sound : s.state.lineage.Sound) :
    s.state.incarnationCounter ≤ s'.state.incarnationCounter ∧
      s.state.grantCounter ≤ s'.state.grantCounter := by
  rcases moved.worked.outcome with same | ⟨op, -, room, same⟩
  · rw [same]
    exact ⟨le_rfl, le_rfl⟩
  · have counters := Work.Reach.counters (Op.reach (w := s.work) sound (s.state.clock + 1) op)
    rw [same]
    exact ⟨counters.2.2, counters.2.1⟩

theorem Backed.moved (backed : Backed s) (moved : Moved may s s') : Backed s' := by
  rcases moved.worked.outcome with same | ⟨op, -, room, same⟩
  · exact backed.congr same
  · exact (backed.performed room op).congr same

theorem handleHello_greeted {request : HelloRequest} {r : Except Status SessionBinding}
    (ran : (handleHello io request).exec s = (r, s')) :
    Greeted s r s' := by
  rw [handleHello, Prog.exec_refuseIf] at ran
  split at ran
  · cases ran; exact .refused (.refl s)
  rw [Prog.exec_refuseIf] at ran
  split at ran
  · cases ran; exact .refused (.refl s)
  rw [Prog.exec_get_bind, Prog.exec_refuseIf] at ran
  split at ran
  · cases ran; exact .refused (.refl s)
  rename_i room
  rw [exec_performed .allocateIncarnation (fun _ _ => rfl)] at ran
  by_cases full : s.state.clock = maxWord
  · rw [if_pos full] at ran
    cases ran
    exact .refused (.refl s)
  rw [if_neg full, Prog.exec_ofExcept_bind] at ran
  rcases allocated : (Work.allocateIncarnation (s.state.clock + 1)).exec s.work with ⟨result, w⟩
  rw [allocated] at ran
  cases result with
  | error st =>
    cases ran
    refine .refused (.silent rfl full ?_)
    have none : w.emitted = [] := Work.allocateIncarnation_unwritten allocated
    have found : Op.allocateIncarnation.after (s.state.clock + 1) s.work = w :=
      congrArg Prod.snd allocated
    rw [produced, found, none]
  | ok incarnation =>
    simp only [Prog.exec_bind] at ran
    rcases appended : (appendRecords io (s.produced .allocateIncarnation)).exec
      (s.performed .allocateIncarnation) with ⟨result, t⟩
    rw [appended] at ran
    have moved : Moved (· = .allocateIncarnation) s t := .written rfl full appended
    cases result with
    | error st =>
      cases ran
      exact .refused moved
    | ok u =>
      cases ran
      have state : t.state = w.state := by
        rw [appendRecords_stored appended]
        exact congrArg (·.2.state) allocated
      obtain ⟨below, rfl, -⟩ := (Work.allocateIncarnation_spec allocated).2 incarnation rfl
      have counted := Work.allocateIncarnation_counted allocated
      rw [← state] at counted
      exact .bound moved (not_le.mp room) (congrArg tryIncrement moved.nextSession) ⟨rfl, rfl⟩
        (lt_succ below) counted

end RegistryService
end SplitBrainFabric
