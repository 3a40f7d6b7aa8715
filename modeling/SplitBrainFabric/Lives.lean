import SplitBrainFabric.Continuity

/-! All the lives of a registry on one directory: it serves its connections, it dies wherever it
is, and it is opened again on what is left. Through all of them it is one history. -/

namespace SplitBrainFabric
open Words

/-- The journal is open and at the record of the registry, and neither the clock nor the numbers
of the records are at their end. -/
structure RegistryService.Settled (s : RegistryService) : Prop extends InStep s where
  clock : s.state.clock ≠ maxWord
  numbers : s.state.registrySequence ≠ maxWord

/-- What is on the disk when the process is gone. -/
def Store.files (s : Store) (header : Option Bytes) : StoreFiles where
  header := header
  snapshot := s.snapshot
  journal := some s.journal

/-- A directory with a process that serves it, or without one. -/
inductive Stage where
  | serving (hub : RegistryHub)
  | down (files : StoreFiles)

/-- What the clients were told, in all lives. -/
structure Told where
  commits : List CommitRequest := []
  grants : Answers := []

def Told.hear (told : Told) (h : RegistryHub) (event : RegistryEvent) : Told where
  commits := told.commits ++ (h.committed event).toList.map (·.2)
  grants := told.grants ++ (h.allocated event).toList.map (·.2)

open RegistryService (openStores openDirectory recover) in
/-- The lives of a registry. It goes on behind an event that leaves its journal in step, and it
may end behind any: a process that is killed leaves what a fault at that place leaves. What
has become of the effect boundary in the meantime is open. A service that goes on behind a
failed append is left out: it may answer a retry with a grant that no file has. -/
inductive Lives : Stage → Told → Prop
  | empty : Lives (.down {}) {}
  | opened {files : DirectoryFiles} {told : Told} {io : RequestIo} {config : RegistryConfig}
    {s : RegistryService} {report : StoreRecoveryReport} (before : Lives (.down files.store) told)
    (ran : openDirectory io config files = .ok (s, report)) (settled : s.Settled) :
    Lives (.serving (RegistryHub.opened s)) told
  | brokenOff {files : DirectoryFiles} {told : Told} {io : RequestIo} {config : RegistryConfig}
    {s s' : RegistryService} {report : StoreRecoveryReport} {r : Except Status PUnit}
    (before : Lives (.down files.store) told) (stores : openStores config files = .ok (s, report))
    (ran : (recover io).exec s = (r, s')) (numbers : s'.state.registrySequence ≠ maxWord)
    (header : Option Bytes) : Lives (.down (s'.store.files header)) told
  | served {h : RegistryHub} {told : Told} (before : Lives (.serving h) told)
    (event : RegistryEvent) (settled : (h.after event).service.Settled) :
    Lives (.serving (h.after event)) (told.hear h event)
  | died {h : RegistryHub} {told : Told} (before : Lives (.serving h) told)
    (event : RegistryEvent) (numbers : (h.after event).service.state.registrySequence ≠ maxWord)
    (header : Option Bytes) : Lives (.down ((h.after event).service.store.files header)) told

namespace Lives

open Chronicle (Backs Leaves Knows Extends)
open History (servedStart)

/-- What a directory is of one history. -/
def Backed (told : Told) : Stage → Prop
  | .serving h => h.service.Settled ∧ ∃ c : Chronicle,
      c.Backs h.service.state h.service.store ∧ c.Knows told.commits told.grants
  | .down files => ∃ c : Chronicle,
      c.Leaves files.snapshot (files.journal.getD []) ∧ c.Knows told.commits told.grants

theorem openDirectory_ok {io : RequestIo} {config : RegistryConfig} {files : DirectoryFiles}
    {s' : RegistryService} {report : StoreRecoveryReport}
    (ran : RegistryService.openDirectory io config files = .ok (s', report)) :
    ∃ s report, RegistryService.openStores config files = .ok (s, report) ∧
      (RegistryService.recover io).exec s = (.ok ⟨⟩, s') := by
  unfold RegistryService.openDirectory at ran
  cases stores : RegistryService.openStores config files with
  | error st => rw [stores] at ran; cases ran
  | ok found =>
    obtain ⟨s, report⟩ := found
    rw [stores] at ran
    simp only [bind, Except.bind] at ran
    rcases ended : (RegistryService.recover io).exec s with ⟨r, t⟩
    rw [ended] at ran
    cases r with
    | error st => cases ran
    | ok u =>
      cases ran
      exact ⟨s, report, rfl, ended⟩

/-- An empty directory is what a history that has not begun leaves. -/
theorem empty_left : ∃ c : Chronicle, c.Leaves none [] ∧ c.Knows [] [] := by
  obtain ⟨h, begun⟩ : ∃ h, servedStart = some h := Option.isSome_iff_exists.mp (by decide)
  obtain ⟨s, -, rfl⟩ := History.start_ok begun
  refine ⟨{ history := { live := s } }, ⟨⟨_, _, _, _, _, begun, .refl⟩, none, ?_, ?_⟩,
    ⟨List.nil_sublist _, by simp⟩⟩
  · show (0 : Sequence) ≠ maxWord
    decide
  · exact ⟨[], [], rfl, .inl rfl, fun c found => (by cases found), [], [], [], rfl, rfl,
      by simp, by simp, rfl, rfl⟩

/-- Hearing of an event adds what the history acknowledges at it. -/
theorem hear_known {c c' : Chronicle} {told : Told} {h : RegistryHub} {event : RegistryEvent}
    (knows : c.Knows told.commits told.grants) (onward : Extends c c')
    (commits : ∀ x, h.committed event = some x → ∃ g, c'.effects = c.effects ++ [(g, x.2)])
    (grants : ∀ x, h.allocated event = some x →
      ∃ g ∈ opensOf c'.history.log, Granted x.2.1 x.2.2 g) :
    c'.Knows (told.hear h event).commits (told.hear h event).grants := by
  have known := knows.onward onward
  refine ⟨?_, fun p member => ?_⟩
  · rw [Told.hear]
    cases taken : h.committed event with
    | none =>
      rw [Option.toList_none, List.map_nil, List.append_nil]
      exact known.commits
    | some x =>
      obtain ⟨g, effects⟩ := commits x taken
      rw [effects, List.map_append]
      exact knows.commits.append (List.Sublist.refl _)
  · rcases List.mem_append.mp member with old | new
    · exact known.grants p old
    · obtain ⟨x, taken, rfl⟩ := List.mem_map.mp new
      exact grants x (Option.mem_toList.mp taken)

theorem backed {stage : Stage} {told : Told} (lives : Lives stage told) : Backed told stage := by
  induction lives with
  | empty => exact empty_left
  | opened before ran settled ih =>
    obtain ⟨c, leaves, knows⟩ := ih
    obtain ⟨s, report, stores, ended⟩ := openDirectory_ok ran
    obtain ⟨c', backs, onward⟩ := leaves.reopened stores ended settled.last
    exact ⟨settled, c', backs, knows.onward onward⟩
  | brokenOff before stores ran numbers header ih =>
    obtain ⟨c, leaves, knows⟩ := ih
    obtain ⟨c', left, onward⟩ := leaves.brokenOff stores ran numbers
    exact ⟨c', left, knows.onward onward⟩
  | served before event settled ih =>
    obtain ⟨before, c, backs, knows⟩ := ih
    obtain ⟨c', after, onward, commits, grants⟩ := backs.served before.clock event settled.last
    exact ⟨settled, c', after, hear_known knows onward commits grants⟩
  | @died h told before event numbers header ih =>
    obtain ⟨settled, c, backs, knows⟩ := ih
    cases RegistryHub.after_worked (h := h) event with
    | idle same kept =>
      refine ⟨c, ?_, knows⟩
      have left := backs.leaves settled.numbers
      rwa [← kept] at left
    | performed allowed room done =>
      obtain ⟨c', left, onward⟩ := backs.cut room done numbers
      exact ⟨c', left, knows.onward onward⟩

/-- A registry refines its history. Through all crashes, at any byte that it writes, and all
opens on what they leave, a serving registry whose journal was in step behind each event is at
a state that one history comes to, its files hold what there is to read of that history, and
what its clients were told is part of it. -/
theorem refines_history (h : RegistryHub) (told : Told) (lives : Lives (.serving h) told) :
    ∃ c : Chronicle, c.Reachable ∧ c.history.live = h.service.state ∧
      h.service.store.Stocked c.history.checkpoints c.history.log ∧
      told.commits.Sublist (c.effects.map (·.2)) ∧
      ∀ p ∈ told.grants, ∃ g ∈ opensOf c.history.log, Granted p.1 p.2 g := by
  obtain ⟨-, c, backs, knows⟩ := lives.backed
  exact ⟨c, backs.reached, backs.live, backs.stocked, knows.commits, knows.grants⟩

theorem known {stage : Stage} {told : Told} (lives : Lives stage told) :
    ∃ c : Chronicle, c.Reachable ∧ c.Knows told.commits told.grants := by
  have backed := lives.backed
  cases stage with
  | serving h =>
    obtain ⟨-, c, backs, knows⟩ := backed
    exact ⟨c, backs.reached, knows⟩
  | down files =>
    obtain ⟨c, leaves, knows⟩ := backed
    exact ⟨c, leaves.reached, knows⟩

/-- What clients were told in all lives is in the order of the tokens, as long as no registry goes
on behind an event that leaves its journal behind: of two commits that share an extent the
later one has the higher token or is under the same grant, and a token that was told twice
was told to one attempt, of one grant. -/
theorem told_serialised (stage : Stage) (told : Told) (lives : Lives stage told) :
    told.commits.Pairwise (fun x y => x.scope.overlaps y.scope = true →
      x.fenceToken < y.fenceToken ∨ x.fenceToken = y.fenceToken ∧ x.grant = y.grant) ∧
    ∀ p ∈ told.grants, ∀ q ∈ told.grants, p.2.fenceToken = q.2.fenceToken →
      SameAttempt p.1 q.1 ∧ SameGrant p.2 q.2 := by
  obtain ⟨c, reached, knows⟩ := lives.known
  refine ⟨(List.pairwise_map.mpr reached.ordered).sublist knows.commits, ?_⟩
  intro p first q second same
  obtain ⟨g, opened, granted⟩ := knows.grants p first
  obtain ⟨g', opened', granted'⟩ := knows.grants q second
  have increasing : Increasing c.history.log := reached.kept.lawful
  have distinct : ((opensOf c.history.log).map (·.fenceToken)).Nodup :=
    List.Pairwise.map _ (fun _ _ less => ne_of_lt less.2) increasing
  have unique : g = g' := List.inj_on_of_nodup_map distinct opened opened'
    (granted.token.trans (same.trans granted'.token.symm))
  subst unique
  exact ⟨⟨granted.incarnation.symm.trans granted'.incarnation,
    granted.domain.symm.trans granted'.domain, granted.attempt.symm.trans granted'.attempt⟩,
    granted.same granted'⟩

/-- A registry that was just opened is at a state of a history, and nothing is open in it. -/
theorem opened_closed {files : DirectoryFiles} {told : Told} {io : RequestIo}
    {config : RegistryConfig} {s : RegistryService} {report : StoreRecoveryReport}
    (lives : Lives (.down files.store) told)
    (ran : RegistryService.openDirectory io config files = .ok (s, report)) :
    s.Backed ∧ s.state.lineage.openGrants = [] := by
  obtain ⟨c, leaves, -⟩ := lives.backed
  obtain ⟨s₀, first, stores, ended⟩ := openDirectory_ok ran
  rcases leaves.recovered stores ended with ⟨-, _, failed⟩ | ⟨u, c', backs, -, room, fenced, done⟩
  · cases failed
  have backed : RegistryService.Backed { s₀ with state := u } :=
    ⟨c'.history, backs.reached.history, backs.live⟩
  refine ⟨(backed.performed room _).congr done.reached, ?_⟩
  obtain ⟨w, fenced⟩ := fenced
  have closes := Work.recoverAfterRestart_closes (backed.ticked room).footing fenced
  have same : s.state = w.state := done.reached.trans (congrArg (·.2.state) fenced)
  refine List.eq_nil_iff_forall_not_mem.mpr fun g listed => ?_
  obtain ⟨member, active⟩ := LineageTable.mem_openGrants.mp listed
  rw [same] at member
  rw [closes g member] at active
  cases active

/-- No authority outlives the process that gave it. Whatever lives there were, a commit that
takes effect after an open, in any interleaving of connections and whatever the disk does, is
under a grant that the registry gave a coordinator session of the commit's incarnation since
that open, for this domain and scope and with this epoch and token. Whether the answer that
names the grant was sent is open: its records may not have been written. -/
theorem commit_origin (files : DirectoryFiles) (told : Told) (io : RequestIo)
    (config : RegistryConfig) (s : RegistryService) (report : StoreRecoveryReport)
    (lives : Lives (.down files.store) told)
    (ran : RegistryService.openDirectory io config files = .ok (s, report))
    (events : List RegistryEvent) (event : RegistryEvent) (b : SessionBinding)
    (request : CommitRequest)
    (taken : (Runs.run RegistryHub.after (RegistryHub.opened s) events).committed event =
      some (b, request)) :
    ∃ before cause rest, events = before ++ cause :: rest ∧ ∃ b' allocation answer,
      (Runs.run RegistryHub.after (RegistryHub.opened s) before).allocated cause =
        some (b', allocation, answer) ∧
      b'.kind = .coordinator ∧ b'.incarnation = request.incarnation ∧
      allocation.domain = request.domain ∧ allocation.scope = request.scope ∧
      answer.grant = request.grant ∧ answer.epoch = request.epoch ∧
      answer.fenceToken = request.fenceToken := by
  obtain ⟨backed, idle⟩ := opened_closed lives ran
  exact RegistryHub.commit_traced backed idle events taken

section Samples

open History (sampleConfig sampleDomain sampleAllocation firstCommit)

instance (s : RegistryService) : Decidable s.Settled :=
  decidable_of_iff ((s.store.opened = true ∧ s.state.registrySequence = s.store.lastSequence) ∧
      s.state.clock ≠ maxWord ∧ s.state.registrySequence ≠ maxWord)
    ⟨fun ⟨⟨open', last⟩, clock, numbers⟩ => ⟨⟨open', last⟩, clock, numbers⟩,
      fun settled => ⟨⟨settled.opened, settled.last⟩, settled.clock, settled.numbers⟩⟩

/-- A life under given events, as long as its journal stays in step. -/
def live (p : RegistryHub × Told) (events : List RegistryEvent) : Option (RegistryHub × Told) :=
  Runs.guarded (fun p event => some (p.1.after event, p.2.hear p.1 event))
    (fun p event => decide (p.1.after event).service.Settled) p events

theorem live_lives {p q : RegistryHub × Told} {events : List RegistryEvent}
    (lives : Lives (.serving p.1) p.2) (ran : live p events = some q) :
    Lives (.serving q.1) q.2 := by
  refine Runs.turns_invariant (I := fun p => Lives (.serving p.1) p.2) lives
    (fun p event q lives settled same => ?_)
    (Runs.guarded_turns (fun p event checked => of_decide_eq_true checked) ran)
  cases same
  exact lives.served event settled

theorem live_run {p q : RegistryHub × Told} {events : List RegistryEvent}
    (ran : live p events = some q) : q.1 = Runs.run RegistryHub.after p.1 events := by
  induction events generalizing p with
  | nil => exact congrArg Prod.fst (Option.some.inj ran).symm
  | cons event rest ih =>
    unfold live Runs.guarded at ran
    rw [List.foldlM_cons] at ran
    obtain ⟨p₁, stepped, ran⟩ := Option.bind_eq_some_iff.mp ran
    split at stepped
    · cases stepped
      exact ih ran
    · cases stepped

def lifeConfig : RegistryConfig := { sampleConfig with checkpointEveryRecords := 4 }

/-- An open on what is left, if it wastes no number. -/
def reopen (files : DirectoryFiles) : Option RegistryService :=
  match RegistryService.openDirectory {} lifeConfig files with
  | .ok (s, _) => if s.Settled then some s else none
  | .error _ => none

theorem reopen_ok {files : DirectoryFiles} {s : RegistryService} (ran : reopen files = some s) :
    s.Settled ∧ ∃ report, RegistryService.openDirectory {} lifeConfig files = .ok (s, report) := by
  unfold reopen at ran
  split at ran
  · rename_i s report opened
    split at ran
    · rename_i settled
      cases ran
      exact ⟨settled, report, opened⟩
    · cases ran
  · cases ran

theorem reopen_lives {files : DirectoryFiles} {told : Told} {s : RegistryService}
    (lives : Lives (.down files.store) told) (ran : reopen files = some s) :
    Lives (.serving (RegistryHub.opened s)) told := by
  obtain ⟨settled, report, opened⟩ := reopen_ok ran
  exact lives.opened opened settled

def sampleFrame (type : MessageType) (request : RequestId) (payload : Bytes) : Frame where
  header := { type := type, requestId := request }
  payload := payload

/-- A client greets the registry, takes the domain and commits. -/
def visit (incarnation : IncarnationId) (boot : BootId) (epoch : Epoch) (grant : GrantId)
    (token : FenceToken) : List RegistryEvent :=
  let envelope : RequestEnvelope := {
    session := 1, node := Id.make [110], boot := boot, incarnation := incarnation }
  let allocation := { sampleAllocation 100 120 incarnation 1 with
    boot := boot, envelope := envelope }
  let commit := { firstCommit incarnation epoch grant token with envelope := envelope }
  [.connect, .read 0 (.chunk (encodeFrame RegistryHub.greeting ++
      (encodeFrame (sampleFrame .allocateEpochRequest 1 allocation.encode) ++
        encodeFrame (sampleFrame .commitRequest 2 commit.encode)))),
    .serve 0 {} true, .serve 0 {} true, .serve 0 {} true]

/-- A registry is killed while it writes a definition. -/
def killed (h : RegistryHub) : Option DirectoryFiles :=
  let last := (h.after (.define { journal := fun _ => .payloadShort 20 }
    (sampleDomain 101 121))).service
  if last.state.registrySequence = maxWord then none
  else some { store := last.store.files none, effectLog := some last.state.fabric.log }

theorem killed_lives {h : RegistryHub} {told : Told} {files : DirectoryFiles}
    (lives : Lives (.serving h) told) (ran : killed h = some files) :
    Lives (.down files.store) told := by
  unfold killed at ran
  simp only at ran
  split at ran
  · cases ran
  · rename_i numbers
    cases ran
    exact lives.died _ numbers none

/-- A client in the first life, and what a crash leaves of it. -/
def firstLife : Option (DirectoryFiles × Told) := do
  let s ← reopen {}
  let p ← live (RegistryHub.opened s, {}) (.define {} (sampleDomain 100 120) :: visit 2 1 1 1 1)
  let files ← killed p.1
  pure (files, p.2)

theorem firstLife_lives {q : DirectoryFiles × Told} (ran : firstLife = some q) :
    Lives (.down q.1.store) q.2 := by
  simp only [firstLife, Option.bind_eq_bind] at ran
  obtain ⟨s, opened, ran⟩ := Option.bind_eq_some_iff.mp ran
  obtain ⟨p, served, ran⟩ := Option.bind_eq_some_iff.mp ran
  obtain ⟨files, ended, ran⟩ := Option.bind_eq_some_iff.mp ran
  cases ran
  have lives : Lives (.serving p.1) p.2 :=
    live_lives (p := (RegistryHub.opened s, {})) (reopen_lives .empty opened) served
  exact killed_lives lives ended

/-- Another client in the second, up to its commit. -/
def secondLife : Option (RegistryService × RegistryHub × Told) := do
  let q ← firstLife
  let s ← reopen q.1
  let p ← live (RegistryHub.opened s, q.2) (visit 4 3 2 2 3).dropLast
  pure (s, p)

theorem secondLife_lives {r : RegistryService × RegistryHub × Told} (ran : secondLife = some r) :
    Lives (.serving r.2.1) r.2.2 ∧ ∃ files told report, Lives (.down files.store) told ∧
      RegistryService.openDirectory {} lifeConfig files = .ok (r.1, report) ∧
      r.2.1 = Runs.run RegistryHub.after (RegistryHub.opened r.1) (visit 4 3 2 2 3).dropLast := by
  simp only [secondLife, Option.bind_eq_bind] at ran
  obtain ⟨q, before, ran⟩ := Option.bind_eq_some_iff.mp ran
  obtain ⟨s, opened, ran⟩ := Option.bind_eq_some_iff.mp ran
  obtain ⟨p, served, ran⟩ := Option.bind_eq_some_iff.mp ran
  cases ran
  have lives := firstLife_lives before
  obtain ⟨-, report, opens⟩ := reopen_ok opened
  exact ⟨live_lives (p := (RegistryHub.opened s, q.2)) (reopen_lives lives opened) served,
    q.1, q.2, report, lives, opens, live_run served⟩

/-- What the clients of both lives were told of, and the commit that is next. -/
theorem secondLife_told : ∃ r, secondLife = some r ∧
    r.2.2.commits.map (·.fenceToken) = [1] ∧ r.2.2.grants.map (·.2.fenceToken) = [1, 3] ∧
    (r.2.1.after (.serve 0 {} true)).service.Settled ∧
    ∃ b request, r.2.1.committed (.serve 0 {} true) = some (b, request) ∧
      request.fenceToken = 3 := by
  have evaluated : (secondLife.map fun r => (r.2.2.commits.map (·.fenceToken),
      r.2.2.grants.map (·.2.fenceToken),
      decide (r.2.1.after (.serve 0 {} true)).service.Settled,
      (r.2.1.committed (.serve 0 {} true)).map (·.2.fenceToken))) =
      some ([1], [1, 3], true, some 3) := by
    decide +kernel
  obtain ⟨r, ran, told⟩ := Option.map_eq_some_iff.mp evaluated
  simp only [Prod.mk.injEq, decide_eq_true_eq] at told
  obtain ⟨commits, grants, settled, next⟩ := told
  obtain ⟨⟨b, request⟩, taken, token⟩ := Option.map_eq_some_iff.mp next
  exact ⟨r, ran, commits, grants, settled, b, request, taken, token⟩

theorem refines_history_killed : ∃ (h : RegistryHub) (told : Told),
    told.commits.map (·.fenceToken) = [1] ∧ told.grants.map (·.2.fenceToken) = [1, 3] ∧
    ∃ c : Chronicle, c.Reachable ∧ c.history.live = h.service.state ∧
      h.service.store.Stocked c.history.checkpoints c.history.log ∧
      told.commits.Sublist (c.effects.map (·.2)) ∧
      ∀ p ∈ told.grants, ∃ g ∈ opensOf c.history.log, Granted p.1 p.2 g := by
  obtain ⟨⟨s, h, told⟩, ran, commits, grants, -⟩ := secondLife_told
  exact ⟨h, told, commits, grants, refines_history h told (secondLife_lives ran).1⟩

theorem told_serialised_killed : ∃ (stage : Stage) (told : Told), Lives stage told ∧
    told.commits.map (·.fenceToken) = [1, 3] ∧ told.grants.map (·.2.fenceToken) = [1, 3] ∧
    told.commits.Pairwise (fun x y => x.scope.overlaps y.scope = true →
      x.fenceToken < y.fenceToken ∨ x.fenceToken = y.fenceToken ∧ x.grant = y.grant) := by
  obtain ⟨⟨s, h, told⟩, ran, commits, grants, settled, b, request, taken, token⟩ := secondLife_told
  have lives := (secondLife_lives ran).1.served (.serve 0 {} true) settled
  refine ⟨_, _, lives, ?_, ?_, (told_serialised _ _ lives).1⟩
  · rw [Told.hear, taken, List.map_append, commits]
    show [1] ++ [request.fenceToken] = [1, 3]
    rw [token]
    rfl
  · rw [Told.hear, RegistryHub.allocated_of_committed taken, Option.toList_none, List.map_nil,
      List.append_nil]
    exact grants

theorem commit_origin_renewed : ∃ (s : RegistryService) (events : List RegistryEvent)
    (event : RegistryEvent) (b : SessionBinding) (request : CommitRequest),
    (Runs.run RegistryHub.after (RegistryHub.opened s) events).committed event =
      some (b, request) ∧ request.fenceToken = 3 ∧
    ∃ before cause rest, events = before ++ cause :: rest ∧ ∃ b' allocation answer,
      (Runs.run RegistryHub.after (RegistryHub.opened s) before).allocated cause =
        some (b', allocation, answer) ∧
      b'.kind = .coordinator ∧ b'.incarnation = request.incarnation ∧
      allocation.domain = request.domain ∧ allocation.scope = request.scope ∧
      answer.grant = request.grant ∧ answer.epoch = request.epoch ∧
      answer.fenceToken = request.fenceToken := by
  obtain ⟨⟨s, h, told⟩, ran, -, -, -, b, request, taken, token⟩ := secondLife_told
  obtain ⟨-, files, before, report, lives, opened, events⟩ := secondLife_lives ran
  have events : h = Runs.run RegistryHub.after (RegistryHub.opened s) (visit 4 3 2 2 3).dropLast :=
    events
  rw [events] at taken
  exact ⟨s, (visit 4 3 2 2 3).dropLast, .serve 0 {} true, b, request, taken, token,
    commit_origin files before {} lifeConfig s report lives opened (visit 4 3 2 2 3).dropLast
      (.serve 0 {} true) b request taken⟩

end Samples

end Lives
end SplitBrainFabric
