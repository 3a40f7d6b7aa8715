import SplitBrainFabric.Grounds
import SplitBrainFabric.Issuance

/-! An attempt to allocate is remembered by the open grant it got, so a request that repeats
it is answered with that grant for as long as the grant is open, and no longer. -/

namespace SplitBrainFabric

/-- The key of an attempt. -/
def SameAttempt (r q : AllocateEpochRequest) : Prop :=
  r.incarnation = q.incarnation ∧ r.domain = q.domain ∧ r.attemptSequence = q.attemptSequence

instance decidableSameAttempt (r q : AllocateEpochRequest) : Decidable (SameAttempt r q) :=
  inferInstanceAs (Decidable (_ ∧ _ ∧ _))

structure SameGrant (r q : AllocateEpochResponse) : Prop where
  grant : r.grant = q.grant
  epoch : r.epoch = q.epoch
  fenceToken : r.fenceToken = q.fenceToken

instance decidableSameGrant (r q : AllocateEpochResponse) : Decidable (SameGrant r q) :=
  decidable_of_iff (r.grant = q.grant ∧ r.epoch = q.epoch ∧ r.fenceToken = q.fenceToken)
    ⟨fun h => ⟨h.1, h.2.1, h.2.2⟩, fun h => ⟨h.grant, h.epoch, h.fenceToken⟩⟩

/-- Requests that were granted, each with its response. -/
abbrev Answers := List (AllocateEpochRequest × AllocateEpochResponse)

/-- All responses to one attempt name one grant. -/
def Idempotent (answers : Answers) : Prop :=
  ∀ p ∈ answers, ∀ q ∈ answers, SameAttempt p.1 q.1 → SameGrant p.2 q.2

instance decidableIdempotent (answers : Answers) : Decidable (Idempotent answers) :=
  inferInstanceAs (Decidable (∀ p ∈ answers, ∀ q ∈ answers, _ → _))

theorem idempotent_nil : Idempotent [] := fun _ member => absurd member List.not_mem_nil

/-- The grant that a response names, as it was opened for the request. -/
structure Granted (request : AllocateEpochRequest) (response : AllocateEpochResponse)
    (g : EpochGrant) : Prop where
  incarnation : g.incarnation = request.incarnation
  domain : g.domain = request.domain
  attempt : g.attempt = request.attemptSequence
  id : g.id = response.grant
  epoch : g.epoch = response.epoch
  token : g.fenceToken = response.fenceToken

theorem Granted.same {p q : AllocateEpochRequest × AllocateEpochResponse} {g : EpochGrant}
    (left : Granted p.1 p.2 g) (right : Granted q.1 q.2 g) : SameGrant p.2 q.2 :=
  ⟨left.id.symm.trans right.id, left.epoch.symm.trans right.epoch,
    left.token.symm.trans right.token⟩

namespace Work

open RegistryState (Footing)

variable {w w' : Work} {request : AllocateEpochRequest} {now : Step} {g : EpochGrant}

theorem repeatedAttempt_some (now : Step) (found : w.repeatedAttempt request = some g) :
    g ∈ w.state.lineage.grants ∧ g.isOpen = true ∧ Granted request (w.allocation now g) g := by
  have member := List.mem_of_find?_eq_some found
  have matched := List.find?_some found
  simp only [Bool.and_eq_true, decide_eq_true_eq] at matched
  obtain ⟨⟨⟨incarnation, attempt⟩, domain⟩, active⟩ := matched
  exact ⟨member, active, incarnation, domain, attempt, rfl, rfl, rfl⟩

/-- The domain has no second open grant that the scan could stop at. -/
theorem repeatedAttempt_finds (footing : Footing w.state) (member : g ∈ w.state.lineage.grants)
    (active : g.isOpen = true) (incarnation : g.incarnation = request.incarnation)
    (domain : g.domain = request.domain) (attempt : g.attempt = request.attemptSequence) :
    w.repeatedAttempt request = some g := by
  cases found : w.repeatedAttempt request with
  | none =>
    have passed := List.find?_eq_none.mp found g member
    simp [incarnation, attempt, domain, active] at passed
  | some o =>
    obtain ⟨inside, active', granted⟩ := repeatedAttempt_some 0 found
    have extents := footing.same_extents member inside (domain.trans granted.domain.symm)
    obtain ⟨e, held⟩ := Scope.exists_extent (footing.filled g member)
    rw [footing.same_of_shared member inside active active' held (extents ▸ held)]

/-- A granted request has its grant in the log. -/
theorem allocateEpoch_granted {log : List JournalRecord} {response : AllocateEpochResponse}
    (tracks : Tracks w.state log)
    (ran : (allocateEpoch request now).exec w = (.ok response, w')) :
    ∃ g ∈ opensOf (log ++ w'.emitted), Granted request response g := by
  obtain ⟨-, ⟨g, found, rfl⟩ | ⟨-, w₁, -, opened, rfl⟩⟩ :=
    (allocateEpoch_spec tracks.sound ran).2 response rfl
  · obtain ⟨member, -, granted⟩ := repeatedAttempt_some now found
    rw [tracks.grants] at member
    obtain ⟨first, opened, _, _, _, rfl⟩ := closed_from_log member
    refine ⟨first, ?_, granted.incarnation, granted.domain, granted.attempt, rfl, rfl, rfl⟩
    rw [opensOf_append]
    exact List.mem_append_left _ opened
  · obtain ⟨adopt, record, s₁, s₂, -, -, read, -, rfl⟩ := opened
    refine ⟨w₁.freshGrant request now, mem_opensOf.mpr ⟨record, ?_, JournalRecord.said_of read⟩,
      rfl, rfl, rfl, rfl, rfl, rfl⟩
    exact List.mem_append_right _ (List.mem_append_right _ List.mem_cons_self)

theorem allocateEpoch_boot {response : AllocateEpochResponse}
    (ran : (allocateEpoch request now).exec w = (.ok response, w')) : request.boot ≠ 0 := by
  rw [allocateEpoch, Prog.exec_get_bind] at ran
  obtain ⟨_, w₁, admitted, -⟩ := Prog.bind_ok ran
  exact admitAllocation_boot admitted

/-- A request that finds its grant leaves the journal and the lineage alone. -/
theorem allocateEpoch_inert
    (finds : Admissible w.state request → request.boot ≠ 0 → w.repeatedAttempt request ≠ none)
    (ran : ((allocateEpoch request now).exec w).2 = w') :
    w'.emitted = w.emitted ∧ w'.state.lineage = w.state.lineage ∧
      w'.state.fences = w.state.fences := by
  rcases answered : (allocateEpoch request now).exec w with ⟨r, w₁⟩
  rw [answered] at ran
  obtain rfl := ran
  cases allocateEpoch_allocates answered with
  | refused refusal fails => exact ⟨rfl, rfl, rfl⟩
  | repeated admissible boot found => exact ⟨rfl, rfl, rfl⟩
  | stuck admissible boot fresh looped => exact absurd fresh (finds admissible boot)
  | cleared admissible boot fresh looped opened => exact absurd fresh (finds admissible boot)

end Work

/-- A history and the allocations that it has answered. -/
structure AllocationRun where
  history : History
  answers : Answers := []

namespace AllocationRun

open Work (Admissible)

def answered (h : History) : Event → Answers
  | .call (.allocateEpoch request) now =>
    match ((Work.allocateEpoch request now).exec h.work).1 with
    | .ok response => [(request, response)]
    | .error _ => []
  | _ => []

def step (v : AllocationRun) (event : Event) : Option AllocationRun :=
  (v.history.step event).map fun h => ⟨h, v.answers ++ answered v.history event⟩

/-- Any number of allowed events from a fresh registry. -/
def Reachable (allowed : AllocationRun → Event → Prop) (v : AllocationRun) : Prop :=
  ∃ config clock boot fabric h₀, History.start config clock boot fabric = some h₀ ∧
    Relation.ReflTransGen (Runs.Turn step allowed) { history := h₀ } v

/-- The grants that an attempt was answered with are open when it is repeated. -/
def StillOpen (v : AllocationRun) (request : AllocateEpochRequest) : Prop :=
  Admissible v.history.live request → request.boot ≠ 0 →
    ∀ p ∈ v.answers, SameAttempt p.1 request →
      ∃ g ∈ v.history.live.lineage.grants, g.id = p.2.grant ∧ g.isOpen = true

/-- Everything is taken as it comes, a repeated attempt while its grant is open. -/
def Timely (v : AllocationRun) : Event → Prop
  | .call (.allocateEpoch request) _ => v.StillOpen request
  | _ => True

/-- Every answer is backed by the log. -/
structure Recorded (v : AllocationRun) : Prop where
  reached : v.history.Reachable fun _ _ => True
  granted : ∀ p ∈ v.answers, ∃ g ∈ opensOf v.history.log, Granted p.1 p.2 g

theorem Recorded.start {config : RegistryConfig} {clock : Step} {boot : BootRecord}
    {fabric : FabricStore} {h : History}
    (begun : History.start config clock boot fabric = some h) : Recorded { history := h } where
  reached := ⟨config, clock, boot, fabric, h, begun, .refl⟩
  granted _ member := absurd member List.not_mem_nil

theorem step_some {v v' : AllocationRun} {event : Event} (stepped : v.step event = some v') :
    v.history.step event = some v'.history ∧
      v'.answers = v.answers ++ answered v.history event := by
  obtain ⟨h, moved, rfl⟩ := Option.map_eq_some_iff.mp stepped
  exact ⟨moved, rfl⟩

/-- The only event that is answered is an allocation that is granted. -/
theorem mem_answered {h : History} {event : Event}
    {p : AllocateEpochRequest × AllocateEpochResponse} (member : p ∈ answered h event) :
    ∃ now w', event = .call (.allocateEpoch p.1) now ∧
      (Work.allocateEpoch p.1 now).exec h.work = (.ok p.2, w') := by
  unfold answered at member
  split at member
  · rename_i request now
    rcases ran : (Work.allocateEpoch request now).exec h.work with ⟨r, w'⟩
    rw [ran] at member
    cases r with
    | error refusal => cases member
    | ok response =>
      rw [List.mem_singleton.mp member]
      exact ⟨now, w', rfl, ran⟩
  · cases member

theorem answered_once {h : History} {event : Event}
    {p q : AllocateEpochRequest × AllocateEpochResponse} (left : p ∈ answered h event)
    (right : q ∈ answered h event) : p = q := by
  obtain ⟨now, w', event, ran⟩ := mem_answered left
  obtain ⟨now', w'', event', ran'⟩ := mem_answered right
  obtain ⟨op, step⟩ := Event.call.inj (event.symm.trans event')
  have request := Op.allocateEpoch.inj op
  rw [← request, ← step, ran] at ran'
  exact Prod.ext request (Except.ok.inj (congrArg Prod.fst ran'))

theorem Recorded.kept {v : AllocationRun} (recorded : v.Recorded) :
    History.Kept Increasing v.history :=
  recorded.reached.kept List.Pairwise.nil fun _ _ _ tracks increasing move =>
    tracks.increasing increasing move

theorem Recorded.step {v v' : AllocationRun} {event : Event} (recorded : v.Recorded)
    (stepped : v.step event = some v') : v'.Recorded := by
  obtain ⟨moved, answers⟩ := step_some stepped
  refine ⟨recorded.reached.turns (.single ⟨event, trivial, moved⟩), fun p member => ?_⟩
  rw [answers] at member
  rcases List.mem_append.mp member with old | new
  · obtain ⟨g, opened, granted⟩ := recorded.granted p old
    obtain ⟨more, log⟩ := History.log_grows moved
    refine ⟨g, ?_, granted⟩
    rw [← log, opensOf_append]
    exact List.mem_append_left _ opened
  · obtain ⟨now, w', rfl, ran⟩ := mem_answered new
    have granted := Work.allocateEpoch_granted recorded.kept.tracks ran
    have left : Op.after now v.history.work (.allocateEpoch p.1) = w' := congrArg Prod.snd ran
    rwa [← Option.some.inj moved, History.called, left]

/-- A grant in the lineage is the one that the answer with its id was given. -/
theorem Recorded.granted_of_held {v : AllocationRun} {g : EpochGrant}
    {p : AllocateEpochRequest × AllocateEpochResponse} (recorded : v.Recorded) (inside : p ∈ v.answers)
    (held : g ∈ v.history.live.lineage.grants) (id : g.id = p.2.grant) : Granted p.1 p.2 g := by
  obtain ⟨first, opened, granted⟩ := recorded.granted p inside
  rw [recorded.kept.tracks.grants] at held
  obtain ⟨origin, opened', _, _, _, rfl⟩ := closed_from_log held
  have distinct : ((opensOf v.history.log).map (·.id)).Nodup :=
    List.Pairwise.map _ (fun _ _ less => ne_of_lt less.1) recorded.kept.lawful
  have unique : origin = first :=
    List.inj_on_of_nodup_map distinct opened' opened (id.trans granted.id.symm)
  subst unique
  exact ⟨granted.incarnation, granted.domain, granted.attempt, granted.id, granted.epoch,
    granted.token⟩

/-- A repeated attempt whose grant is open finds it. -/
theorem Recorded.finds {v : AllocationRun} {request : AllocateEpochRequest} {g : EpochGrant}
    {p : AllocateEpochRequest × AllocateEpochResponse} (recorded : v.Recorded) (inside : p ∈ v.answers)
    (again : SameAttempt p.1 request) (held : g ∈ v.history.live.lineage.grants)
    (id : g.id = p.2.grant) (active : g.isOpen = true) :
    v.history.work.repeatedAttempt request = some g := by
  obtain ⟨incarnation, domain, attempt⟩ := again
  have granted := recorded.granted_of_held inside held id
  exact Work.repeatedAttempt_finds (w := v.history.work) recorded.reached.footing held active
    (granted.incarnation.trans incarnation) (granted.domain.trans domain)
    (granted.attempt.trans attempt)

/-- One step under the condition adds no answer that disagrees with an earlier one. -/
theorem Recorded.agrees {v v' : AllocationRun} {event : Event} (recorded : v.Recorded)
    (timely : v.Timely event) (same : Idempotent v.answers) (stepped : v.step event = some v') :
    Idempotent v'.answers := by
  obtain ⟨-, answers⟩ := step_some stepped
  -- A new answer against an old one: the open grant was found again.
  have again : ∀ p ∈ v.answers, ∀ q ∈ answered v.history event, SameAttempt p.1 q.1 →
      SameGrant p.2 q.2 := by
    intro p inside q new attempt
    obtain ⟨now, w', rfl, ran⟩ := mem_answered new
    have sound := recorded.kept.tracks.sound
    have boot : q.1.boot ≠ 0 := Work.allocateEpoch_boot ran
    obtain ⟨admissible, found⟩ := (Work.allocateEpoch_spec (w := v.history.work) sound ran).2 q.2 rfl
    obtain ⟨g, held, id, active⟩ := timely admissible boot p inside attempt
    have finds := recorded.finds inside attempt held id active
    rcases found with ⟨o, found, response⟩ | ⟨missed, -⟩
    · rw [finds] at found
      cases found
      have granted := (Work.repeatedAttempt_some now finds).2.2
      rw [← response] at granted
      exact (recorded.granted_of_held inside held id).same granted
    · rw [finds] at missed
      cases missed
  intro p left q right attempt
  rw [answers] at left right
  rcases List.mem_append.mp left with old | new <;> rcases List.mem_append.mp right with old' | new'
  · exact same p old q old' attempt
  · exact again p old q new' attempt
  · have back := again q old' p new ⟨attempt.1.symm, attempt.2.1.symm, attempt.2.2.symm⟩
    exact ⟨back.grant.symm, back.epoch.symm, back.fenceToken.symm⟩
  · rw [answered_once new new']
    exact ⟨rfl, rfl, rfl⟩

theorem Reachable.recorded {allowed : AllocationRun → Event → Prop} {v : AllocationRun}
    (reached : Reachable allowed v) : v.Recorded := by
  obtain ⟨config, clock, boot, fabric, h₀, begun, run⟩ := reached
  exact Runs.turns_invariant (Recorded.start begun)
    (fun _ _ _ recorded _ stepped => recorded.step stepped) run

/-- A repeat that comes after its grant was closed is refused or given another grant. -/
theorem Recorded.reissues {v : AllocationRun} {request : AllocateEpochRequest} {now : Step}
    {response : AllocateEpochResponse} {w' : Work} (recorded : v.Recorded)
    (late : ¬ v.StillOpen request)
    (ran : (Work.allocateEpoch request now).exec v.history.work = (.ok response, w')) :
    ∃ p ∈ v.answers, SameAttempt p.1 request ∧ p.2.grant ≠ response.grant := by
  unfold StillOpen at late
  push Not at late
  obtain ⟨-, -, p, inside, again, closed⟩ := late
  refine ⟨p, inside, again, fun same => ?_⟩
  have sound := recorded.kept.tracks.sound
  obtain ⟨-, ⟨g, found, rfl⟩ | ⟨-, w₁, before, opened, rfl⟩⟩ :=
    (Work.allocateEpoch_spec (w := v.history.work) sound ran).2 response rfl
  · obtain ⟨held, active, -⟩ := Work.repeatedAttempt_some now found
    exact closed g held same.symm active
  · obtain ⟨g, logged, granted⟩ := recorded.granted p inside
    obtain ⟨r, member, said⟩ := mem_opensOf.mp logged
    have below := recorded.kept.tracks.ids r member
    rw [said] at below
    have id : g.id = (w₁.freshGrant request now).id := granted.id.trans same
    have above := (opened.above before).2.1
    rw [← id] at above
    exact absurd above (not_lt.mpr below)

/-- Allocation is idempotent while the grants last. In a run whose repeated attempts find
their grants open, all answers to one attempt name one grant, and a repeat opens and
supersedes nothing; a repeat that comes later and is granted names another grant. -/
theorem attempt_idempotent (v : AllocationRun) (reached : Reachable Timely v) :
    Idempotent v.answers ∧ ∀ request now, (∃ p ∈ v.answers, SameAttempt p.1 request) →
      (v.StillOpen request →
        ((Op.allocateEpoch request).after now v.history.work).emitted = [] ∧
        ((Op.allocateEpoch request).after now v.history.work).state.lineage =
          v.history.live.lineage ∧
        ((Op.allocateEpoch request).after now v.history.work).state.fences =
          v.history.live.fences) ∧
      (¬ v.StillOpen request → ∀ v', v.step (.call (.allocateEpoch request) now) = some v' →
        Idempotent v'.answers → v'.answers = v.answers) := by
  have recorded := reached.recorded
  refine ⟨?_, fun request now repeated => ⟨fun open' => ?_, fun late v' stepped same => ?_⟩⟩
  · obtain ⟨config, clock, boot, fabric, h₀, begun, run⟩ := reached
    have both : v.Recorded ∧ Idempotent v.answers := by
      refine Runs.turns_invariant (I := fun v => v.Recorded ∧ Idempotent v.answers)
        ⟨Recorded.start begun, idempotent_nil⟩ ?_ run
      intro v event v' ⟨recorded, same⟩ timely stepped
      exact ⟨recorded.step stepped, recorded.agrees timely same stepped⟩
    exact both.2
  · obtain ⟨p, inside, again⟩ := repeated
    refine Work.allocateEpoch_inert (w := v.history.work) (fun admissible boot missed => ?_) rfl
    obtain ⟨g, held, id, active⟩ := open' admissible boot p inside again
    rw [recorded.finds inside again held id active] at missed
    cases missed
  · obtain ⟨-, answers⟩ := step_some stepped
    rw [answers] at same ⊢
    rcases List.eq_nil_or_concat (answered v.history (.call (.allocateEpoch request) now)) with
      none | ⟨before, q, some⟩
    · rw [none, List.append_nil]
    have new : q ∈ answered v.history (.call (.allocateEpoch request) now) := by
      rw [some]
      simp
    obtain ⟨now', w', event, ran⟩ := mem_answered new
    obtain ⟨op, -⟩ := Event.call.inj event
    obtain ⟨p, inside, again, other⟩ := recorded.reissues (Op.allocateEpoch.inj op ▸ late) ran
    have agree := same p (List.mem_append_left _ inside) q (List.mem_append_right _ new)
    exact absurd (agree again).grant other

section Sample

def isTimely (v : AllocationRun) : Event → Bool
  | .call (.allocateEpoch _) _ => v.answers.all fun p =>
      v.history.live.lineage.grants.any fun g => g.id == p.2.grant && g.isOpen
  | _ => true

theorem isTimely_sound (v : AllocationRun) (event : Event) (checked : v.isTimely event = true) :
    v.Timely event := by
  cases event with
  | call op now =>
    cases op with
    | allocateEpoch request =>
      intro _ _ p inside _
      obtain ⟨g, held, known⟩ := List.any_eq_true.mp (List.all_eq_true.mp checked p inside)
      rw [Bool.and_eq_true, beq_iff_eq] at known
      exact ⟨g, held, known⟩
    | defineDomain _ | definePolicy _ | allocateIncarnation | decide _ _ | commit _ _ | fence _
    | release _ | recoverAfterRestart => trivial
  | checkpoint | restart _ | rebuild | tick => trivial

def sampleRun : Option AllocationRun := History.sampleStart.map fun h => { history := h }

theorem sample_reachable {allowed : AllocationRun → Event → Prop}
    {check : AllocationRun → Event → Bool} {v : AllocationRun} {events : List Event}
    (sound : ∀ v event, check v event = true → allowed v event)
    (ran : sampleRun.bind (Runs.guarded step check · events) = some v) : Reachable allowed v := by
  obtain ⟨v₀, begun, ran⟩ := Option.bind_eq_some_iff.mp ran
  obtain ⟨h₀, first, rfl⟩ := Option.map_eq_some_iff.mp begun
  exact ⟨_, _, _, _, h₀, first, Runs.guarded_turns sound ran⟩

end Sample

/-- An attempt that is repeated while its grant is open. -/
theorem attempt_idempotent_repeated : ∃ v, Reachable Timely v ∧
    v.answers.map (·.2.grant) = [1, 1] ∧ Idempotent v.answers := by
  have evaluated : (sampleRun.bind (Runs.guarded step isTimely · [
      .call (.defineDomain (History.sampleDomain 100 120)) 1, .call .allocateIncarnation 2,
      .call (.allocateEpoch (History.sampleAllocation 100 120 1 1)) 3,
      .call (.allocateEpoch (History.sampleAllocation 100 120 1 1)) 4])).map
        (fun v => v.answers.map (·.2.grant)) = some [1, 1] := by
    decide +kernel
  obtain ⟨v, ran, grants⟩ := Option.map_eq_some_iff.mp evaluated
  have reached := sample_reachable isTimely_sound ran
  exact ⟨v, reached, grants, (attempt_idempotent v reached).1⟩

def delayed : List Event := [
  .call (.defineDomain (History.sampleDomain 100 120)) 1, .call .allocateIncarnation 2,
  .call (.allocateEpoch (History.sampleAllocation 100 120 1 1)) 3,
  .call (.allocateEpoch (History.sampleAllocation 100 120 1 2)) 4,
  .call (.allocateEpoch (History.sampleAllocation 100 120 1 1)) 5]

/-- A second attempt supersedes the grant of the first without fencing its process, and a
late copy of the first request takes the grant of the second away. -/
theorem attempt_reissued : ¬ ∀ v, Reachable (fun _ _ => True) v → Idempotent v.answers := by
  intro all
  have evaluated : (sampleRun.bind (Runs.guarded step (fun _ _ => true) · delayed)).map
      (fun v => Decidable.decide (Idempotent v.answers)) = some false := by
    decide +kernel
  obtain ⟨v, ran, differs⟩ := Option.map_eq_some_iff.mp evaluated
  exact of_decide_eq_false differs (all v (sample_reachable (fun _ _ _ => trivial) ran))

end AllocationRun
end SplitBrainFabric
