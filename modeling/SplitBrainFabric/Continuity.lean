import SplitBrainFabric.Opening
import SplitBrainFabric.Serialised

/-! A service on its files and the history that it is at. What the service does is what happens
to the history, whether it goes on, ends within an operation, or is opened again. -/

namespace SplitBrainFabric
open Words

namespace Chronicle

variable {c c' : Chronicle}

theorem Reachable.next {event : Event} (reached : c.Reachable) (stepped : c.step event = some c') :
    c'.Reachable := by
  obtain ⟨config, clock, boot, fabric, h, begun, run⟩ := reached
  exact ⟨config, clock, boot, fabric, h, begun, run.tail ⟨event, trivial, stepped⟩⟩

def ticked (c : Chronicle) : Chronicle :=
  { c with history := { c.history with
    live := { c.history.live with clock := c.history.live.clock + 1 } } }

/-- Behind an operation of the next step. -/
def performed (c : Chronicle) (op : Op) : Chronicle where
  history := c.ticked.history.called op (c.history.live.clock + 1)
  effects := c.effects ++ c.ticked.history.acknowledged (.call op (c.history.live.clock + 1))

def saved (c : Chronicle) : Chronicle :=
  { c with history := { c.history with checkpoints :=
    c.history.checkpoints ++ [⟨c.history.live.serialize, History.lastSequence c.history.log⟩] } }

/-- Events that acknowledge no commit. -/
theorem step_quiet (event : Event) {h : History} (stepped : c.history.step event = some h)
    (quiet : c.history.acknowledged event = []) : c.step event = some { c with history := h } := by
  rw [step, stepped, quiet, List.append_nil]
  rfl

theorem Reachable.ticked (reached : c.Reachable) (room : c.history.live.clock ≠ maxWord) :
    c.ticked.Reachable := reached.next (step_quiet .tick (if_neg room) rfl)

theorem Reachable.performed (reached : c.Reachable) (room : c.history.live.clock ≠ maxWord)
    (op : Op) : (c.performed op).Reachable := by
  have stepped : c.ticked.step (.call op (c.history.live.clock + 1)) = some (c.performed op) := rfl
  exact (reached.ticked room).next stepped

theorem Reachable.saved (reached : c.Reachable) : c.saved.Reachable :=
  reached.next (step_quiet .checkpoint rfl rfl)

/-- The state and the store of a service, as a history leaves them. -/
structure Backs (c : Chronicle) (state : RegistryState) (store : Store) : Prop where
  reached : c.Reachable
  live : c.history.live = state
  stocked : store.Stocked c.history.checkpoints c.history.log

/-- What a crash is to find when this much of an operation in flight was written. -/
def cut (flight : Option (Op × Step × Nat)) : Restart := { inFlight := flight, config := {} }

/-- The files of a service that has ended, as a history leaves them. -/
structure Leaves (c : Chronicle) (snapshot : Option Bytes) (journal : Bytes) : Prop where
  reached : c.Reachable
  left : ∃ flight, History.lastSequence (c.history.survived (cut flight)) ≠ maxWord ∧
    Store.Left snapshot journal c.history.checkpoints (c.history.survived (cut flight))

/-- One history that goes on from another. -/
structure Extends (c c' : Chronicle) : Prop where
  effects : c.effects <+: c'.effects
  log : c.history.log <+: c'.history.log

theorem Extends.refl (c : Chronicle) : Extends c c := ⟨List.prefix_rfl, List.prefix_rfl⟩

theorem Extends.trans {c'' : Chronicle} (first : Extends c c') (second : Extends c' c'') :
    Extends c c'' := ⟨first.effects.trans second.effects, first.log.trans second.log⟩

theorem Extends.performed {op : Op} (effects : c'.effects = (c.performed op).effects)
    (log : c'.history.log = (c.performed op).history.log) : Extends c c' := by
  constructor
  · rw [effects]
    exact List.prefix_append _ _
  · rw [log]
    exact List.prefix_append _ _

section Operations

variable {s : RegistryService} {op : Op} {state : RegistryState} {store : Store}

theorem Backs.work (backs : c.Backs s.state s.store) : c.ticked.history.work = s.work :=
  congrArg (fun t : RegistryState => ({ state := { t with clock := t.clock + 1 } } : Work))
    backs.live

theorem Backs.room (backs : c.Backs s.state s.store) (room : s.state.clock ≠ maxWord) :
    c.history.live.clock ≠ maxWord := by
  rwa [backs.live]

theorem Backs.performs (backs : c.Backs s.state s.store) (op : Op) :
    (c.performed op).history.live = (s.performed op).state ∧
      (c.performed op).history.log = c.history.log ++ s.produced op := by
  simp only [Chronicle.performed, History.called, backs.work, backs.live]
  exact ⟨rfl, rfl⟩

/-- The records of an operation are numbered on from the history. -/
theorem Backs.tracks (backs : c.Backs s.state s.store) (room : s.state.clock ≠ maxWord)
    (op : Op) : Tracks (s.performed op).state (c.history.log ++ s.produced op) := by
  obtain ⟨live, log⟩ := backs.performs op
  rw [← live, ← log]
  exact (backs.reached.performed (backs.room room) op).kept.tracks

theorem Backs.wrote (backs : c.Backs s.state s.store) (room : s.state.clock ≠ maxWord)
    {io : RequestIo} {r : Except Status PUnit} {t : RegistryService}
    (appended : (RegistryService.appendRecords io (s.produced op)).exec (s.performed op) = (r, t)) :
    RegistryService.Wrote (s.performed op).state c.history.checkpoints c.history.log
      (s.produced op) t.store :=
  RegistryService.appendRecords_wrote (s := s.performed op) backs.stocked
    (fun x member => (backs.tracks room op).numbered x (List.mem_append_right _ member)) appended

/-- An operation that leaves the journal at the record of the registry. -/
theorem Backs.performed (backs : c.Backs s.state s.store) (room : s.state.clock ≠ maxWord)
    (done : s.Performed op state store) (level : state.registrySequence = store.lastSequence) :
    ∃ c' : Chronicle, c'.Backs state store ∧ c'.effects = (c.performed op).effects ∧
      c'.history.log = (c.performed op).history.log := by
  have reached := backs.reached.performed (backs.room room) op
  obtain ⟨live, log⟩ := backs.performs op
  cases done with
  | silent none same kept =>
    refine ⟨c.performed op, ⟨reached, live.trans same.symm, ?_⟩, rfl, rfl⟩
    rw [log, none, List.append_nil, kept]
    exact backs.stocked
  | written appended same kept =>
    subst same kept
    have tracks := backs.tracks room op
    obtain ⟨points, saved, stocked⟩ := (backs.wrote room appended).settled tracks.ordered
      (fun x member => tracks.numbered x (List.mem_append_right _ member))
      (fun x member => tracks.latest x (List.mem_append_right _ member)) level
    rcases saved with rfl | rfl
    · refine ⟨c.performed op, ⟨reached, live, ?_⟩, rfl, rfl⟩
      rw [log]
      exact stocked
    · refine ⟨(c.performed op).saved, ⟨reached.saved, live, ?_⟩, rfl, rfl⟩
      simp only [Chronicle.saved, live, log]
      exact stocked

theorem lastSequence_room {log : List JournalRecord} {last : Sequence}
    (latest : ∀ r ∈ log, r.sequence ≤ last) (room : last ≠ maxWord) :
    History.lastSequence log ≠ maxWord := by
  rcases List.eq_nil_or_concat log with rfl | ⟨before, r, rfl⟩
  · show (0 : Sequence) ≠ maxWord
    decide
  · rw [List.concat_eq_append] at latest ⊢
    rw [Store.lastSequence_concat]
    intro full
    have top := latest r (List.mem_append_right before List.mem_cons_self)
    rw [full, UInt64.le_iff_toNat_le] at top
    have below := Store.lt_maxWord room
    simp only [maxWord, UInt64.reduceToNat] at top
    omega

/-- A service that ends with no operation in flight. -/
theorem Backs.leaves (backs : c.Backs state store) (room : state.registrySequence ≠ maxWord) :
    c.Leaves store.snapshot store.journal := by
  refine ⟨backs.reached, none, ?_, backs.stocked.left⟩
  rw [← backs.live] at room
  exact lastSequence_room backs.reached.kept.tracks.latest room

/-- A service that ends within an operation, or behind one that it could not write. -/
theorem Backs.cut (backs : c.Backs s.state s.store) (room : s.state.clock ≠ maxWord)
    (done : s.Performed op state store) (below : state.registrySequence ≠ maxWord) :
    ∃ c' : Chronicle, c'.Leaves store.snapshot store.journal ∧ Extends c c' := by
  have reached := backs.reached.performed (backs.room room) op
  obtain ⟨live, log⟩ := backs.performs op
  have tracks := backs.tracks room op
  cases done with
  | silent none same kept =>
    subst same kept
    have backs : (c.performed op).Backs (s.performed op).state s.store := by
      refine ⟨reached, live, ?_⟩
      rw [log, none, List.append_nil]
      exact backs.stocked
    exact ⟨c.performed op, backs.leaves below, .performed rfl rfl⟩
  | written appended same kept =>
    subst same kept
    obtain ⟨passed, points, front, saved, left⟩ := (backs.wrote room appended).left
    rcases saved with rfl | ⟨rfl, rfl⟩
    · have survived : c.ticked.history.survived (Chronicle.cut (some (op,
          s.state.clock + 1, passed.length))) = c.history.log ++ passed := by
        simp only [History.survived, Chronicle.cut, backs.work]
        exact congrArg (c.history.log ++ ·) (List.prefix_iff_eq_take.mp front).symm
      refine ⟨c.ticked, ⟨backs.reached.ticked (backs.room room), _, ?_, survived ▸ left⟩,
        ⟨List.prefix_rfl, List.prefix_rfl⟩⟩
      rw [survived]
      refine lastSequence_room (fun r member => tracks.latest r ?_) below
      exact (List.mem_append.mp member).elim (List.mem_append_left _)
        fun inside => List.mem_append_right _ (front.subset inside)
    · refine ⟨(c.performed op).saved, ⟨reached.saved, none, ?_, ?_⟩,
        .performed rfl rfl⟩
      · refine lastSequence_room (fun r member => tracks.latest r ?_) below
        rw [← log]
        exact member
      · simp only [History.survived, Chronicle.cut, Chronicle.saved, live, log]
        exact left

end Operations

section Openings

open RegistryService (openStores recover restoreFrom Recovered)

variable {s s' : RegistryService} {config : RegistryConfig} {files : DirectoryFiles}
  {report : StoreRecoveryReport} {io : RequestIo} {r : Except Status PUnit}

/-- Both stores open on what was left, and nothing is restored yet. -/
theorem openStores_ok (stores : openStores config files = .ok (s, report)) :
    (∃ fabric, s.state = { fabric := fabric }) ∧ ∃ header first,
      Store.openStore files.store config.storeId {} = .ok (s.store, header, first) := by
  unfold openStores at stores
  cases store : Store.openStore files.store config.storeId {} with
  | error st => rw [store] at stores; cases stores
  | ok found =>
    rw [store] at stores
    cases fabric : FabricStore.openStore files.effectHeader files.effectLog config.storeId {} with
    | error st => rw [fabric] at stores; cases stores
    | ok effects =>
      rw [fabric] at stores
      cases stores
      exact ⟨⟨_, rfl⟩, _, _, rfl⟩

/-- A restart on the files is a restart of the history. -/
theorem Reachable.restored {flight : Option (Op × Step × Nat)} {u : RegistryState}
    (reached : c.Reachable)
    (stocked : s.store.Stocked c.history.checkpoints (c.history.survived (cut flight)))
    (fresh : ∃ fabric, s.state = { fabric := fabric })
    (ran : (restoreFrom s.config s.store).exec s.state = (.ok ⟨⟩, u)) :
    ∃ c' : Chronicle, c'.Backs u s.store ∧ Extends c c' := by
  obtain ⟨v, loaded, built⟩ := RegistryService.restoreFrom_ok stocked ran
  obtain ⟨fabric, fresh⟩ := fresh
  have base : ∃ point : Option Nat, point.bind (c.history.checkpoints[·]?) =
      Store.savedPoint s.store.snapshot := by
    cases found : Store.savedPoint s.store.snapshot with
    | none => exact ⟨none, rfl⟩
    | some saved =>
      obtain ⟨i, here⟩ := List.mem_iff_getElem?.mp (stocked.shelved.point saved found)
      exact ⟨some i, here⟩
  obtain ⟨point, base⟩ := base
  let files : Restart := { cut flight with
    base := point
    config := s.config
    boot := { node := s.config.node }
    fabric := fabric }
  let c₁ : Chronicle := { c with history := { c.history with
    live := v
    log := c.history.survived (cut flight)
    serving := false } }
  let c₂ : Chronicle := { c₁ with history := { c₁.history with live := u } }
  have first : c.step (.restart files) = some c₁ := by
    refine step_quiet (.restart files) ?_ rfl
    rw [← base, fresh] at loaded
    have loaded : (RegistryState.reload files.config files.clock files.boot
        (files.base.bind (c.history.checkpoints[·]?)) (c.history.survived files)).exec
        { fabric := files.fabric } = (.ok ⟨⟩, v) := loaded
    simp only [History.step, loaded]
    rfl
  have second : c₁.step .rebuild = some c₂ := by
    refine step_quiet .rebuild ?_ rfl
    simp only [History.step, c₁, built]
  have grows : c.history.log <+: c₁.history.log := History.log_grows (step_cases first).1
  exact ⟨c₂, ⟨(reached.next first).next second, rfl, stocked⟩, List.prefix_rfl, grows⟩

theorem Leaves.stocked (leaves : c.Leaves files.store.snapshot (files.store.journal.getD []))
    (stores : openStores config files = .ok (s, report)) : ∃ flight,
      History.lastSequence (c.history.survived (cut flight)) ≠ maxWord ∧
        s.store.Stocked c.history.checkpoints (c.history.survived (cut flight)) := by
  obtain ⟨flight, room, left⟩ := leaves.left
  obtain ⟨-, header, first, opened⟩ := openStores_ok stores
  exact ⟨flight, room, left.opened room opened⟩

/-- An open that is over, or at least got to fencing what was open. -/
theorem Leaves.recovered (leaves : c.Leaves files.store.snapshot (files.store.journal.getD []))
    (stores : openStores config files = .ok (s, report)) (ran : (recover io).exec s = (r, s')) :
    (s'.store = s.store ∧ ∃ st, r = .error st) ∨ ∃ (u : RegistryState) (c' : Chronicle),
      c'.Backs u s.store ∧ Extends c c' ∧ u.clock ≠ maxWord ∧
        (∃ w, (Work.recoverAfterRestart (u.clock + 1)).exec { s with state := u }.work =
          (.ok ⟨⟩, w)) ∧
        { s with state := u }.Performed .recoverAfterRestart s'.state s'.store := by
  obtain ⟨flight, -, stocked⟩ := leaves.stocked stores
  obtain ⟨fresh, -⟩ := openStores_ok stores
  cases RegistryService.recover_recovered ran with
  | refused kept => exact .inl ⟨kept, _, rfl⟩
  | @written u w r s' restored room fenced appended =>
    obtain ⟨c', backs, onward⟩ := leaves.reached.restored stocked fresh restored
    exact .inr ⟨u, c', backs, onward, room, ⟨w, fenced⟩, .appended appended⟩

/-- What an open that is broken off leaves. -/
theorem Leaves.brokenOff (leaves : c.Leaves files.store.snapshot (files.store.journal.getD []))
    (stores : openStores config files = .ok (s, report)) (ran : (recover io).exec s = (r, s'))
    (below : s'.state.registrySequence ≠ maxWord) :
    ∃ c' : Chronicle, c'.Leaves s'.store.snapshot s'.store.journal ∧ Extends c c' := by
  rcases leaves.recovered stores ran with ⟨kept, -⟩ | ⟨u, c', backs, onward, room, -, done⟩
  · obtain ⟨flight, room, stocked⟩ := leaves.stocked stores
    refine ⟨c, ⟨leaves.reached, flight, room, ?_⟩, .refl c⟩
    rw [kept]
    exact stocked.left
  · obtain ⟨c'', left, further⟩ := Backs.cut (s := { s with state := u }) backs room done below
    exact ⟨c'', left, onward.trans further⟩

/-- What an open that goes through leaves, if it wasted no number. -/
theorem Leaves.reopened (leaves : c.Leaves files.store.snapshot (files.store.journal.getD []))
    (stores : openStores config files = .ok (s, report)) (ran : (recover io).exec s = (.ok ⟨⟩, s'))
    (level : s'.state.registrySequence = s'.store.lastSequence) :
    ∃ c' : Chronicle, c'.Backs s'.state s'.store ∧ Extends c c' := by
  rcases leaves.recovered stores ran with ⟨-, _, failed⟩ | ⟨u, c', backs, onward, room, -, done⟩
  · cases failed
  · obtain ⟨c'', after, effects, log⟩ :=
      Backs.performed (s := { s with state := u }) backs room done level
    exact ⟨c'', after, onward.trans (.performed effects log)⟩

end Openings

section Events

variable {h : RegistryHub}

/-- What a hub tells its clients at an event is what the history acknowledges. -/
theorem Backs.served (backs : c.Backs h.service.state h.service.store)
    (room : h.service.state.clock ≠ maxWord) (event : RegistryEvent)
    (level : (h.after event).service.state.registrySequence =
      (h.after event).service.store.lastSequence) :
    ∃ c' : Chronicle, c'.Backs (h.after event).service.state (h.after event).service.store ∧
      Extends c c' ∧
      (∀ x, h.committed event = some x → ∃ g, c'.effects = c.effects ++ [(g, x.2)]) ∧
      ∀ x, h.allocated event = some x → ∃ g ∈ opensOf c'.history.log, Granted x.2.1 x.2.2 g := by
  cases asks : h.requested event with
  | none =>
    have untold : h.committed event = none ∧ h.allocated event = none := by
      simp only [RegistryHub.committed, RegistryHub.allocated, asks, and_self]
    rw [untold.1, untold.2]
    cases RegistryHub.after_worked (h := h) event with
    | idle same kept =>
      rw [same, kept]
      exact ⟨c, backs, .refl c, by simp, by simp⟩
    | @performed op allowed room done =>
      obtain ⟨c', after, effects, log⟩ := backs.performed room done level
      exact ⟨c', after, .performed effects log, by simp, by simp⟩
  | some asked =>
    obtain ⟨b, op⟩ := asked
    have done := RegistryHub.requested_performed asks room
    obtain ⟨c', after, effects, log⟩ := backs.performed room done level
    refine ⟨c', after, .performed effects log, fun x taken => ?_, fun x taken => ?_⟩
    · unfold RegistryHub.committed at taken
      rw [asks] at taken
      split at taken
      · rename_i b' request io same
        cases same
        rcases ran : (Work.commit request h.now io).exec h.service.work with ⟨r, w⟩
        rw [ran] at taken
        cases r with
        | error refusal => cases taken
        | ok response =>
          cases taken
          obtain ⟨-, g, holds⟩ := Work.commit_held ran
          refine ⟨g, effects.trans (congrArg (c.effects ++ ·) ?_)⟩
          have found : c.ticked.history.live.lineage.find request.grant = some g := by
            simp only [ticked, backs.live]
            exact holds.found
          have same : (Work.commit request (c.history.live.clock + 1) io).exec
              c.ticked.history.work = (.ok response, w) := by
            rw [backs.work, backs.live]
            exact ran
          simp only [History.acknowledged, same, found, Option.toList_some, List.map_cons,
            List.map_nil]
      · cases taken
    · unfold RegistryHub.allocated at taken
      rw [asks] at taken
      split at taken
      · rename_i b' request same
        cases same
        rcases ran : (Work.allocateEpoch request h.now).exec h.service.work with ⟨r, w⟩
        rw [ran] at taken
        cases r with
        | error refusal => cases taken
        | ok response =>
          cases taken
          have tracks : Tracks h.service.work.state c.history.log := by
            rw [← backs.work]
            exact (backs.reached.ticked (backs.room room)).kept.tracks
          have granted := Work.allocateEpoch_granted tracks ran
          have emitted : h.service.produced (.allocateEpoch request) = w.emitted :=
            congrArg (·.2.emitted) ran
          rw [log, (backs.performs (.allocateEpoch request)).2, emitted]
          exact granted
      · cases taken

end Events

/-- The history acknowledged the commits that the clients were told of, in this order, and
opened the grants that they were told of. -/
structure Knows (c : Chronicle) (commits : List CommitRequest) (grants : Answers) : Prop where
  commits : commits.Sublist (c.effects.map (·.2))
  grants : ∀ p ∈ grants, ∃ g ∈ opensOf c.history.log, Granted p.1 p.2 g

theorem Knows.onward {commits : List CommitRequest} {grants : Answers}
    (knows : c.Knows commits grants) (onward : Extends c c') : c'.Knows commits grants := by
  refine ⟨knows.commits.trans (onward.effects.map _).sublist, fun p member => ?_⟩
  obtain ⟨g, opened, granted⟩ := knows.grants p member
  obtain ⟨more, log⟩ := onward.log
  refine ⟨g, ?_, granted⟩
  rw [← log, opensOf_append]
  exact List.mem_append_left _ opened

end Chronicle
end SplitBrainFabric
