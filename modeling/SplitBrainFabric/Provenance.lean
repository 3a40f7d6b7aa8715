import SplitBrainFabric.Attempts
import SplitBrainFabric.LateWriters
import SplitBrainFabric.RegistrySessions

/-! Where authority comes from. Only an allocation opens a grant, so every commit that takes
effect goes back to an allocation that was answered to the session of its incarnation. -/

namespace SplitBrainFabric
open Words Runs

namespace RegistryState

variable {s s' : RegistryState} {r : Except Status PUnit}

/-- Every open grant is one of these. -/
def OpenAmong (grants : List EpochGrant) (s : RegistryState) : Prop :=
  ∀ g ∈ s.lineage.grants, g.isOpen = true → g ∈ grants

theorem enact_openAmong {grants : List EpochGrant} {entry : Entry}
    (other : ∀ g, entry ≠ .grantOpen g) (among : OpenAmong grants s)
    (ran : (enact entry).exec s = (r, s')) : OpenAmong grants s' := by
  cases entry with
  | grantOpen g => exact absurd rfl (other g)
  | bootBegin boot =>
    rw [enact_bootBegin ran]
    intro g member
    exact among g (LineageTable.beginBoot_grants _ _ ▸ member)
  | bootEnd boot =>
    rw [enact_bootEnd ran]
    intro g member
    exact among g (LineageTable.endBoot_grants _ _ _ _ ▸ member)
  | grantClose g =>
    rcases enact_grantClose ran with ⟨-, ends, -, rfl⟩ | ⟨rfl, -⟩
    · intro o member active
      rw [LineageTable.closed_grants] at member
      rcases mem_updateFirst member with old | ⟨_, _, _, rfl⟩
      · exact among o old active
      · exact absurd (EpochGrant.isOpen_iff.mp active) ends
    · exact among
  | silent | policyDefine _ | domainDefine _ | fence _ _ | extentAdopt _ _ | commitRecord
  | incarnationAllocate _ | interruptMark _ =>
    intro g member
    rw [enact_lineage rfl ran] at member
    exact among g member

end RegistryState

namespace Work

open RegistryState (OpenAmong Footing)

variable {w w' : Work} {now : Step} {request : AllocateEpochRequest}

theorem entry_other {record : JournalRecord} {entry : Entry} (other : record.kind ≠ .grantOpen)
    (read : record.entry = .ok entry) (g : EpochGrant) : entry ≠ .grantOpen g := by
  rintro rfl
  have made : ∀ {α : Type} {x : Except Status α} {f : α → Entry}, x.map f = .ok (.grantOpen g) →
      ∃ a, f a = .grantOpen g := by
    intro α x f mapped
    cases x with
    | error st => cases mapped
    | ok a => exact ⟨a, Except.ok.inj mapped⟩
  unfold JournalRecord.entry at read
  split at read
  case h_8 opens => exact other opens
  all_goals first
    | cases read
    | (obtain ⟨_, same⟩ := made read; cases same)

theorem wording_openAmong {kinds : List RecordKind} (grants : List EpochGrant)
    (plain : .grantOpen ∉ kinds) : Wording now kinds fun w => OpenAmong grants w.state where
  emit kind emits payload status _ := .of_run fun w r w' among ran => by
    have other : (w.nextRecord kind payload status now).kind ≠ .grantOpen := by
      rintro rfl
      exact plain emits
    have applied : ∀ {s r}, (RegistryState.apply (w.nextRecord kind payload status now)).exec
        w.state = (r, s) → OpenAmong grants s := by
      intro s r applied
      rcases RegistryState.apply_cases applied with ⟨rfl, -⟩ | ⟨-, -, ⟨_, -, -, rfl⟩ |
        ⟨entry, read, enacted⟩⟩
      · exact among
      · exact among
      · have before : OpenAmong grants
            (RegistryState.observe (w.nextRecord kind payload status now) w.state) := among
        exact RegistryState.enact_openAmong (entry_other other read) before enacted
    rcases emit_cases ran with ⟨s, -, rfl, accepted⟩ | ⟨st, s, -, rfl, refused⟩
    · have after : OpenAmong grants s := applied accepted
      exact after
    · have after : OpenAmong grants s := applied refused
      exact after
  counters _ _ _ _ among := among

/-- What an allocation leaves open was open, or is the grant that it answers. -/
theorem allocateEpoch_opens {r : Except AllocateEpochResponse AllocateEpochResponse}
    (footing : Footing w.state) (ran : (allocateEpoch request now).exec w = (r, w'))
    {g : EpochGrant} (member : g ∈ w'.state.lineage.grants) (active : g.isOpen = true) :
    g ∈ w.state.lineage.grants ∨
      ∃ response, r = .ok response ∧ Granted request response g ∧ g.extents = request.scope := by
  have cleared : ∀ {r w₁}, (w.state.lineage.openGrants.forM (supersede request now)).exec w =
      (r, w₁) → OpenAmong w.state.lineage.grants w₁.state := by
    intro r w₁ looped
    have wording : Wording now [.fence, .grantClose] fun v =>
        OpenAmong w.state.lineage.grants v.state := wording_openAmong _ (by decide)
    have turns : ∀ o, (supersede request now o).Keeps fun v =>
        OpenAmong w.state.lineage.grants v.state := fun o =>
      .ite (.bind (wording.fenceScope (by simp) _ _ _ _ _ _ _) fun _ =>
        wording.closeGrant (by simp) _ _ _) (.pure _)
    exact (Prog.Keeps.forM turns _).run (fun o old _ => old) looped
  cases allocateEpoch_allocates ran with
  | refused refusal fails => exact .inl member
  | repeated admissible boot found => exact .inl member
  | stuck admissible boot fresh looped => exact .inl (cleared looped g member active)
  | @cleared opening w₁ _ admissible boot fresh looped opened =>
    obtain ⟨reached, free⟩ := supersede_clears footing.sound looped
    rcases openFresh_cases (preserved_footing.reach footing reached)
      (admissible.names reached) admissible.incarnation free opened with
      ⟨-, -, -, rfl, rfl⟩ | ⟨⟨st, rfl⟩, -⟩
    · rcases opening_grants member with old | rfl
      · exact .inl (cleared looped g old active)
      · exact .inr ⟨_, rfl, ⟨rfl, rfl, rfl, rfl, rfl, rfl⟩, rfl⟩
    · have adopts := openFresh_adopts (preserved_footing.reach footing reached).sound opened
      rw [adopts.grants] at member
      exact .inl (cleared looped g member active)

end Work

namespace Op

open RegistryState (Footing OpenAmong)

/-- Of all operations only an allocation opens a grant. -/
theorem opens {op : Op} {w : Work} {now : Step} (footing : Footing w.state) {g : EpochGrant}
    (member : g ∈ (op.after now w).state.lineage.grants) (active : g.isOpen = true) :
    g ∈ w.state.lineage.grants ∨ ∃ request response, op = .allocateEpoch request ∧
      ((Work.allocateEpoch request now).exec w).1 = .ok response ∧ Granted request response g ∧
      g.extents = request.scope := by
  have others : .grantOpen ∉ op.kinds → g ∈ w.state.lineage.grants := by
    intro plain
    have among : OpenAmong w.state.lineage.grants (op.after now w).state :=
      keeps_worded (P := fun v => OpenAmong w.state.lineage.grants v.state)
        (Work.wording_openAmong w.state.lineage.grants plain)
        (fun _ _ _ => Work.onFabric_keeps fun _ _ among => among) fun o old _ => old
    exact among g member active
  cases op with
  | allocateEpoch request =>
    rcases ran : (Work.allocateEpoch request now).exec w with ⟨r, w'⟩
    have moved : after now w (.allocateEpoch request) = w' := congrArg Prod.snd ran
    rw [moved] at member
    rcases Work.allocateEpoch_opens footing ran member active with old | ⟨response, rfl, rest⟩
    · exact .inl old
    · exact .inr ⟨request, response, rfl, congrArg Prod.fst ran, rest⟩
  | defineDomain _ | definePolicy _ | allocateIncarnation | decide _ _ | commit _ _ | fence _
  | release _ | recoverAfterRestart => exact .inl (others (by simp [kinds]))

end Op

namespace RegistryService

variable {io : RequestIo} {frame : Frame} {binding : SessionBinding} {s s' : RegistryService}

theorem asRequest_some {ρ : Type} {read : Reader.Read ρ} {envelope : ρ → RequestEnvelope}
    {payload : Bytes} {request : ρ} (asks : asRequest read envelope payload binding = some request) :
    (envelope request).incarnation = binding.incarnation := by
  unfold asRequest at asks
  split at asks
  · split at asks
    · rename_i bound
      cases asks
      by_contra other
      rw [checkEnvelope] at bound
      split at bound
      · rename_i failed
        rw [failed] at bound
        cases bound
      · cases bound
    · cases asks
  · cases asks

/-- An allocation is for the session that asks for it. -/
theorem asked_allocateEpoch {request : AllocateEpochRequest}
    (asks : asked io frame binding = some (.allocateEpoch request)) :
    binding.kind = .coordinator ∧ binding.incarnation = request.incarnation := by
  unfold asked at asks
  split at asks
  · cases asks
  split at asks
  case h_2 =>
    obtain ⟨received, taken, asks⟩ := Option.bind_eq_some_iff.mp asks
    split at asks
    · cases asks
    · rename_i passed
      push Not at passed
      cases asks
      exact ⟨passed.2.2, (asRequest_some taken).symm.trans passed.1.symm⟩
  case h_4 =>
    obtain ⟨received, -, asks⟩ := Option.bind_eq_some_iff.mp asks
    split at asks
    · cases asks
    · cases asks
  all_goals first
    | cases asks
    | (obtain ⟨_, -, same⟩ := Option.map_eq_some_iff.mp asks; cases same)

/-- What a session asks for is performed, unless the clock is at its end. -/
theorem answer_performs {b : SessionBinding} {op : Op} (asks : asksFor io frame b = some op)
    (room : s.state.clock ≠ maxWord) :
    s.Performed op (s.answer io frame b).2.2.state (s.answer io frame b).2.2.store := by
  unfold asksFor at asks
  split at asks
  · cases asks
  rename_i open'
  obtain ⟨bound, later⟩ := not_or.mp open'
  rw [answer, if_neg bound, answerBound, if_neg later]
  rcases ran : (handleFrame io frame (noted frame b)).exec s with ⟨r, t⟩
  have done := handleFrame_performs asks room ran
  rw [noted] at ran
  simp only [ran]
  cases r with
  | ok reply => exact done
  | error refusal => exact done

end RegistryService

namespace RegistryHub

variable {h : RegistryHub}

/-- The session that an event serves, and the operation that its frame asks for. -/
def requested (h : RegistryHub) : RegistryEvent → Option (SessionBinding × Op)
  | .serve connection io _ =>
    let worker := h.workers connection
    if connection ∈ h.alive ∧ worker.leaving = false then
      worker.pending.head?.bind fun frame =>
        (RegistryService.asksFor io frame worker.binding).map (worker.binding, ·)
    else none
  | _ => none

/-- The step that an operation of the next event is at. -/
def now (h : RegistryHub) : Step := h.service.state.clock + 1

/-- The allocation that an event grants, with the session that asks for it. -/
def allocated (h : RegistryHub) (event : RegistryEvent) :
    Option (SessionBinding × AllocateEpochRequest × AllocateEpochResponse) :=
  match h.requested event with
  | some (b, .allocateEpoch request) =>
    match ((Work.allocateEpoch request h.now).exec h.service.work).1 with
    | .ok response => some (b, request, response)
    | .error _ => none
  | _ => none

/-- The commit that takes effect at an event, with the session that asks for it. -/
def committed (h : RegistryHub) (event : RegistryEvent) : Option (SessionBinding × CommitRequest) :=
  match h.requested event with
  | some (b, .commit request io) =>
    match ((Work.commit request h.now io).exec h.service.work).1 with
    | .ok _ => some (b, request)
    | .error _ => none
  | _ => none

theorem allocated_of_committed {h : RegistryHub} {event : RegistryEvent}
    {x : SessionBinding × CommitRequest} (taken : h.committed event = some x) :
    h.allocated event = none := by
  unfold committed at taken
  unfold allocated
  split at taken
  · rename_i b request io asks
    rw [asks]
  · cases taken

/-- An event at which a coordinator asks for this grant for its own incarnation and gets it. -/
def Given (h : RegistryHub) (event : RegistryEvent) (g : EpochGrant) : Prop :=
  ∃ b request response, h.allocated event = some (b, request, response) ∧
    b.kind = .coordinator ∧ b.incarnation = g.incarnation ∧ Granted request response g ∧
    g.extents = request.scope

theorem committed_held {event : RegistryEvent} {b : SessionBinding} {request : CommitRequest}
    (taken : h.committed event = some (b, request)) :
    ∃ g ∈ h.service.state.lineage.grants, g.isOpen = true ∧ g.id = request.grant ∧
      Work.Holds h.service.state request g := by
  unfold committed at taken
  split at taken
  · rename_i b' request' io asked
    rcases ran : (Work.commit request' h.now io).exec h.service.work with ⟨r, w⟩
    simp only [ran] at taken
    cases r with
    | error refusal => cases taken
    | ok response =>
      cases taken
      obtain ⟨-, g, holds⟩ := Work.commit_held ran
      obtain ⟨member, id⟩ := LineageTable.find_some holds.found
      exact ⟨g, member, holds.active, id, { holds with }⟩
  · cases taken

/-- A frame that is answered: an incarnation is allocated for a hello, or the operation is
the one asked for. -/
theorem answer_worked {s : RegistryService} {io : RequestIo} {frame : Frame} {b : SessionBinding} :
    s.Worked (fun op => op = .allocateIncarnation ∨ RegistryService.asksFor io frame b = some op)
      (s.answer io frame b).2.2.state (s.answer io frame b).2.2.store := by
  have answered : RegistryService.Answered (RegistryService.asksFor io frame b) s b
      (s.answer io frame b).2.2 (s.answer io frame b).2.1 := RegistryService.answer_answered
  generalize s.answer io frame b = replied at answered ⊢
  rcases replied with ⟨answer, b', s'⟩
  cases answered with
  | kept moved same => exact moved.worked
  | bound moved _ _ _ _ _ _ state store =>
    show s.Worked _ s'.state s'.store
    rw [state, store]
    exact moved.worked.mono fun op same => .inl same

theorem serve_answered {connection : Nat} {frame : Frame} {rest : List Frame} (io : RequestIo)
    (written : Bool) (running : connection ∈ h.alive ∧ (h.workers connection).leaving = false)
    (pending : (h.workers connection).pending = frame :: rest) :
    (h.serve connection io written).service.state =
        (h.service.answer io frame (h.workers connection).binding).2.2.state ∧
      (h.serve connection io written).service.store =
        (h.service.answer io frame (h.workers connection).binding).2.2.store := by
  rw [serve, if_pos running]
  simp only [pending]
  split
  · exact ⟨rfl, rfl⟩
  split
  · exact ⟨rfl, rfl⟩
  · exact ⟨rfl, rfl⟩

/-- What an event may ask of the registry. -/
def MayAsk (h : RegistryHub) (event : RegistryEvent) (op : Op) : Prop :=
  op = .allocateIncarnation ∨ (∃ d, op = .defineDomain d) ∨ ∃ b, h.requested event = some (b, op)

/-- What an event makes of the registry and the store. -/
theorem after_worked (event : RegistryEvent) : h.service.Worked (h.MayAsk event)
    (h.after event).service.state (h.after event).service.store := by
  cases event with
  | connect =>
    simp only [after, connect]
    split
    · exact .idle rfl rfl
    · exact .idle rfl rfl
  | read connection arrival =>
    simp only [after, read, readChunk]
    split
    · split
      · exact .idle rfl rfl
      · split
        · exact .idle rfl rfl
        · split
          · exact .idle rfl rfl
          · exact .idle rfl rfl
    · exact .idle rfl rfl
  | leave connection =>
    simp only [after, leave]
    split
    · split
      · exact .idle rfl rfl
      · exact .idle rfl rfl
    · exact .idle rfl rfl
  | define io d =>
    have moved : h.service.Moved (· = .defineDomain d) (h.after (.define io d)).service :=
      RegistryService.defineDomain_moved (Prod.eta _).symm
    exact moved.worked.mono fun op same => .inr (.inl ⟨d, same⟩)
  | stop | drain => exact .idle rfl rfl
  | serve connection io written =>
    by_cases running : connection ∈ h.alive ∧ (h.workers connection).leaving = false
    · rcases pending : (h.workers connection).pending with _ | ⟨frame, rest⟩
      · simp only [after, serve, if_pos running, pending]
        exact .idle rfl rfl
      · obtain ⟨state, store⟩ := serve_answered io written running pending
        rw [after, state, store]
        refine answer_worked.mono fun op asked => asked.imp_right fun asks => .inr ?_
        refine ⟨(h.workers connection).binding, ?_⟩
        simp only [requested, if_pos running, pending, List.head?_cons, Option.bind_some, asks,
          Option.map_some]
    · simp only [after, serve, if_neg running]
      exact .idle rfl rfl

/-- An event that serves a request performs it, unless the clock is at its end. -/
theorem requested_performed {event : RegistryEvent} {b : SessionBinding} {op : Op}
    (asks : h.requested event = some (b, op)) (room : h.service.state.clock ≠ maxWord) :
    h.service.Performed op (h.after event).service.state (h.after event).service.store := by
  cases event with
  | serve connection io written =>
    rw [requested] at asks
    split at asks
    · rename_i running
      obtain ⟨frame, head, asks⟩ := Option.bind_eq_some_iff.mp asks
      obtain ⟨op', asks, same⟩ := Option.map_eq_some_iff.mp asks
      cases same
      obtain ⟨rest, pending⟩ := List.head?_eq_some_iff.mp head
      obtain ⟨state, store⟩ := serve_answered io written running pending
      rw [after, state, store]
      exact RegistryService.answer_performs asks room
    · cases asks
  | connect | read _ _ | leave _ | define _ _ | stop | drain => cases asks

theorem requested_allocateEpoch {event : RegistryEvent} {b : SessionBinding}
    {request : AllocateEpochRequest} (asks : h.requested event = some (b, .allocateEpoch request)) :
    b.kind = .coordinator ∧ b.incarnation = request.incarnation := by
  cases event with
  | serve connection io written =>
    rw [requested] at asks
    split at asks
    · obtain ⟨frame, -, asks⟩ := Option.bind_eq_some_iff.mp asks
      obtain ⟨op, asks, same⟩ := Option.map_eq_some_iff.mp asks
      cases same
      rw [RegistryService.asksFor] at asks
      split at asks
      · cases asks
      · exact RegistryService.asked_allocateEpoch asks
    · cases asks
  | connect | read _ _ | leave _ | define _ _ | stop | drain => cases asks

/-- An open grant was open before the event, or the event gives it. -/
theorem after_opens (backed : h.service.Backed) {event : RegistryEvent} {g : EpochGrant}
    (member : g ∈ (h.after event).service.state.lineage.grants) (active : g.isOpen = true) :
    g ∈ h.service.state.lineage.grants ∨ h.Given event g := by
  rcases (after_worked (h := h) event).outcome with still | ⟨op, asked, room, done⟩
  · rw [still] at member
    exact .inl member
  rw [done] at member
  rcases op.opens (backed.ticked room).footing member active with
    old | ⟨request, response, rfl, answered, granted, extents⟩
  · exact .inl old
  rcases asked with same | ⟨d, same⟩ | ⟨b, asks⟩
  · cases same
  · cases same
  · obtain ⟨kind, incarnation⟩ := requested_allocateEpoch asks
    have allocated : h.allocated event = some (b, request, response) := by
      simp only [allocated, asks, now, answered]
    exact .inr ⟨b, request, response, allocated, kind, incarnation.trans
      granted.incarnation.symm, granted, extents⟩

theorem backed_after (backed : h.service.Backed) (event : RegistryEvent) :
    (h.after event).service.Backed := by
  rcases (after_worked (h := h) event).outcome with still | ⟨op, -, room, done⟩
  · exact RegistryService.Backed.congr backed still
  · exact (RegistryService.Backed.performed backed room op).congr done

/-- A commit that takes effect, in any interleaving of connections and whatever the disk does,
is under a grant that the same run gave to a coordinator session of the commit's incarnation. -/
theorem commit_traced {service : RegistryService} (backed : service.Backed)
    (idle : service.state.lineage.openGrants = []) (events : List RegistryEvent)
    {event : RegistryEvent} {b : SessionBinding} {request : CommitRequest}
    (taken : (run after (opened service) events).committed event = some (b, request)) :
    ∃ before cause rest, events = before ++ cause :: rest ∧ ∃ b' allocation answer,
      (run after (opened service) before).allocated cause = some (b', allocation, answer) ∧
      b'.kind = .coordinator ∧ b'.incarnation = request.incarnation ∧
      allocation.domain = request.domain ∧ allocation.scope = request.scope ∧
      answer.grant = request.grant ∧ answer.epoch = request.epoch ∧
      answer.fenceToken = request.fenceToken := by
  obtain ⟨g, member, active, id, holds⟩ := committed_held taken
  have origin := run_origin (I := fun h => h.service.Backed)
    (H := fun h g => g ∈ h.service.state.lineage.grants ∧ g.isOpen = true) (C := Given)
    (fun h e backed => backed_after backed e)
    (fun h e g backed held => (after_opens backed held.1 held.2).imp_left (⟨·, held.2⟩))
    (s := opened service) backed events ⟨member, active⟩
  rcases origin with held | ⟨before, cause, rest, split, given⟩
  · have listed := LineageTable.mem_openGrants.mpr held
    rw [opened, idle] at listed
    cases listed
  · obtain ⟨b', allocation, answer, allocated, kind, incarnation, granted, extents⟩ := given
    exact ⟨before, cause, rest, split, b', allocation, answer, allocated, kind,
      incarnation.trans holds.incarnation, granted.domain.symm.trans holds.domain,
      extents.symm.trans holds.extents, granted.id.symm.trans id,
      granted.epoch.symm.trans holds.epoch, granted.token.symm.trans holds.token⟩

end RegistryHub
end SplitBrainFabric
