import SplitBrainFabric.Restart
import SplitBrainFabric.Replay
import SplitBrainFabric.Handling

/-! The clock over a restart. A request moves it before it runs; what comes back are the
steps of the records that survive and of the snapshot. -/

namespace SplitBrainFabric
open Words

namespace RegistryState

variable {s s' : RegistryState} {r : Except Status PUnit}

/-- The clock after a replay. -/
def resumeClock (clock : Step) (log : List JournalRecord) : Step :=
  log.foldl (fun clock r => observePersisted clock r.step) clock

theorem le_observePersisted {x clock value : Step} :
    x ≤ observePersisted clock value ↔ x ≤ clock ∨ value ≠ maxWord ∧ x ≤ value := by
  unfold observePersisted
  split
  · rename_i stays
    constructor
    · exact .inl
    · rintro (below | ⟨set, below⟩)
      · exact below
      · rcases stays with low | last
        · exact below.trans low
        · exact absurd last set
  · rename_i moves
    rw [not_or, not_le] at moves
    constructor
    · exact fun below => .inr ⟨moves.2, below⟩
    · rintro (below | ⟨-, below⟩)
      · exact below.trans (le_of_lt moves.1)
      · exact below

theorem le_resumeClock {x clock : Step} {log : List JournalRecord} :
    x ≤ resumeClock clock log ↔ x ≤ clock ∨ ∃ r ∈ log, r.step ≠ maxWord ∧ x ≤ r.step := by
  induction log generalizing clock with
  | nil => simp [resumeClock]
  | cons r rest ih =>
    have next : resumeClock clock (r :: rest) = resumeClock (observePersisted clock r.step) rest :=
      rfl
    rw [next, ih, le_observePersisted]
    simp only [List.mem_cons, exists_eq_or_imp, or_assoc]

theorem enact_clock {entry : Entry} (ran : (enact entry).exec s = (r, s')) : s'.clock = s.clock :=
  enact_blind clock (fun _ => rfl) ran

/-- A record moves the clock to its step, or not at all. -/
theorem apply_clock {record : JournalRecord} (ran : (apply record).exec s = (r, s')) :
    s'.clock = observePersisted s.clock record.step ∨ s'.clock = s.clock ∧ ∃ st, r = .error st := by
  rcases apply_cases ran with ⟨rfl, failed, -⟩ | ⟨-, -, ⟨st, -, -, rfl⟩ | ⟨entry, -, enacted⟩⟩
  · exact .inr ⟨rfl, failed⟩
  · exact .inl rfl
  · exact .inl (enact_clock enacted)

theorem replay_clock {covers : Sequence} {log : List JournalRecord}
    (ran : (replay covers log).exec s = (.ok ⟨⟩, s')) :
    s'.clock = resumeClock s.clock (log.filter (covers < ·.sequence)) := by
  unfold replay at ran
  induction log generalizing s with
  | nil => cases ran; rfl
  | cons record rest ih =>
    rw [Prog.forM_cons] at ran
    obtain ⟨_, s₁, first, ran⟩ := Prog.bind_ok ran
    rw [ih ran]
    by_cases covered : record.sequence ≤ covers
    · rw [if_pos covered] at first
      cases first
      rw [List.filter_cons_of_neg (by simpa using covered)]
    · rw [if_neg covered] at first
      rw [List.filter_cons_of_pos (by simpa using covered)]
      rcases apply_clock first with moved | ⟨-, st, failed⟩
      · rw [moved]
        rfl
      · cases failed

/-- The clock that a snapshot brings back. -/
def snapshotClock (blob : Bytes) : Step :=
  match Reader.decode readImage (blob.take (blob.length - 32)) with
  | .ok image => observePersisted 0 image.clock
  | .error _ => 0

theorem snapshotClock_of {blob : Bytes} {image : Image}
    (decoded : Reader.decode readImage (blob.take (blob.length - 32)) = .ok image) :
    snapshotClock blob = observePersisted 0 image.clock := by
  unfold snapshotClock
  rw [decoded]

theorem deserialize_clock {blob : Bytes} (ran : (deserialize blob).exec s = (.ok ⟨⟩, s')) :
    s'.clock = snapshotClock blob := by
  obtain ⟨image, fences, lineage, decoded, rfl⟩ := deserialize_ok ran
  rw [snapshotClock_of decoded]
  rfl

end RegistryState

namespace Work

open RegistryState (observePersisted)

/-- A record at the present step leaves the clock there. -/
theorem frame_clock {now : Step} (kinds : List RecordKind) :
    Frame now kinds (·.state.clock = now) := by
  refine ⟨fun kind _ payload status => .of_run fun w r w' before ran => ?_,
    fun _ _ _ _ same => same⟩
  have moved : ∀ {s : RegistryState} {r : Except Status PUnit},
      (RegistryState.apply (w.nextRecord kind payload status now)).exec w.state = (r, s) →
      s.clock = now := by
    intro s r applied
    rcases RegistryState.apply_clock applied with moved | ⟨stays, -⟩
    · rw [moved, before]
      exact if_pos (.inl le_rfl)
    · exact stays.trans before
  rcases emit_cases ran with ⟨s, -, rfl, applied⟩ | ⟨st, s, -, rfl, applied⟩
  · have after := moved applied
    exact after
  · have after := moved applied
    exact after

theorem after_clock {now : Step} {w : Work} (op : Op) (present : w.state.clock = now) :
    (op.after now w).state.clock = now :=
  Op.keeps (frame_clock op.kinds) (fun _ _ _ => onFabric_keeps fun _ _ before => before)
    present

end Work

namespace History

open RegistryState (resumeClock snapshotClock le_resumeClock)

/-- One request: the clock moves, then the call runs at the step it moved to. -/
def request (h : History) (op : Op) : Option History :=
  (h.step .tick).map fun h => h.called op h.live.clock

/-- The records of the call in flight that reached the journal. -/
def cut (h : History) (files : Restart) : List JournalRecord :=
  match files.inFlight with
  | none => []
  | some (op, now, k) => (op.after now h.work).emitted.take k

theorem survived_eq (h : History) (files : Restart) : h.survived files = h.log ++ h.cut files := by
  unfold survived cut
  cases files.inFlight with
  | none => exact (List.append_nil _).symm
  | some flight => rfl

/-- The clock of the files before a record behind the snapshot is replayed. -/
def startingClock : Option Checkpoint → Step
  | none => 0
  | some c => snapshotClock c.blob

theorem reload_clock {config : RegistryConfig} {boot : BootRecord} {base : Option Checkpoint}
    {log : List JournalRecord} {s s' : RegistryState}
    (ran : (RegistryState.reload config 0 boot base log).exec s = (.ok ⟨⟩, s')) :
    s'.clock = resumeClock (startingClock base) (log.filter (covered base < ·.sequence)) := by
  obtain ⟨_, s₀, begun, ran⟩ := Prog.bind_ok ran
  cases base with
  | none =>
    rw [RegistryState.replay_clock ran, RegistryState.initialise_ok begun]
    rfl
  | some c =>
    obtain ⟨_, s₁, restored, ran⟩ := Prog.bind_ok ran
    rw [Prog.exec_get_bind] at ran
    obtain ⟨-, ran⟩ := Prog.refuseIf_ok ran
    rw [RegistryState.replay_clock ran, RegistryState.deserialize_clock restored]
    rfl

/-- The step in force after an open. -/
theorem reopened_clock {h : History} {files : Restart} {point : Option Nat} {w : Work}
    (opened : h.reopened files point = (.ok ⟨⟩, w)) : ∃ clock, clock ≠ maxWord ∧
      w.state.clock = clock + 1 ∧ clock = resumeClock (startingClock (point.bind (h.checkpoints[·]?)))
        ((h.survived files).filter (covered (point.bind (h.checkpoints[·]?)) < ·.sequence)) := by
  obtain ⟨s, loaded, -, room, recovered⟩ := RegistryService.openState_ok opened
  refine ⟨s.clock, room, ?_, reload_clock loaded⟩
  have kept : (Op.after (s.clock + 1) { state := { s.rebuilt with clock := s.clock + 1 } }
      .recoverAfterRestart).state.clock = s.clock + 1 :=
    Work.after_clock .recoverAfterRestart rfl
  have same : Op.after (s.clock + 1) { state := { s.rebuilt with clock := s.clock + 1 } }
      .recoverAfterRestart = w := congrArg Prod.snd recovered
  rwa [same] at kept

/-- What a crash leaves of the call in flight is behind every snapshot. -/
theorem cut_behind {h : History} (reached : Reachable (fun _ _ => True) h) {files : Restart}
    {point : Option Nat} : ∀ r ∈ h.cut files,
      covered (point.bind (h.checkpoints[·]?)) < r.sequence := by
  have kept : Kept (fun _ => True) h := reached.kept trivial fun _ _ _ _ _ _ => trivial
  obtain ⟨v, moves, log, -⟩ := survived_reach kept.tracks.sound files
  have tracks := kept.emits moves
  rw [← log, survived_eq] at tracks
  have numbered : ∀ r ∈ h.cut files, r.sequence ≠ 0 := fun r member =>
    tracks.numbered r (List.mem_append_right _ member)
  intro r member
  cases found : point.bind (h.checkpoints[·]?) with
  | none => exact UInt64.pos_iff_ne_zero.mpr (numbered r member)
  | some c =>
    obtain ⟨i, -, here⟩ := Option.bind_eq_some_iff.mp found
    obtain ⟨s, before, rest, -, parts, covers, -⟩ := kept.saved c (List.mem_of_getElem? here)
    have ordered := tracks.ordered
    rw [parts, List.append_assoc] at ordered
    have behind := lastSequence_lt ordered (fun x inside => ?_) r (List.mem_append_right rest member)
    · rw [← covers] at behind
      exact behind
    · refine tracks.numbered x ?_
      rw [parts, List.append_assoc]
      exact List.mem_append_right before inside

end History

/-- A process of the service: its history, and every step it has answered with. -/
structure Process where
  history : History
  used : List Step

namespace Process

open History (startingClock covered)
open RegistryState (le_resumeClock)

/-- One process of the service after another, each opened on what the last one left. -/
inductive Lived : Process → Prop
  | first {files : Restart} {h : History} {w : Work} (fresh : History.start files.config 0
      { node := files.config.node } files.fabric = some h) (opened : h.reopened files none = (.ok ⟨⟩, w)) :
    Lived ⟨h.resumed files w, [w.state.clock]⟩
  | request {p : Process} {op : Op} {h : History} (lived : Lived p)
    (handled : p.history.request op = some h) : Lived ⟨h, p.used ++ [h.live.clock]⟩
  | checkpoint {p : Process} {h : History} (lived : Lived p)
    (taken : p.history.step .checkpoint = some h) : Lived ⟨h, p.used⟩
  | reopen {p : Process} {files : Restart} {point : Option Nat} {w : Work} (lived : Lived p)
    (opened : p.history.reopened files point = (.ok ⟨⟩, w)) :
    Lived ⟨p.history.resumed files w, [w.state.clock]⟩

/-- The clock stands at the last step used. -/
structure Current (p : Process) : Prop where
  reached : History.Reachable (fun _ _ => True) p.history
  latest : ∀ step ∈ p.used, step ≤ p.history.live.clock
  used : p.history.live.clock ∈ p.used

theorem Lived.current {p : Process} (lived : Lived p) : Current p := by
  induction lived with
  | first fresh opened =>
    have begun : History.Reachable (fun _ _ => True) _ := ⟨_, _, _, _, _, fresh, .refl⟩
    exact ⟨begun.resumed opened, by simp [History.resumed], by simp [History.resumed]⟩
  | @request p op h _ handled current =>
    obtain ⟨h₁, ticked, rfl⟩ := Option.map_eq_some_iff.mp handled
    have first := current.reached.turns (.single ⟨.tick, trivial, ticked⟩)
    have reached := first.turns (.single ⟨.call op h₁.live.clock, trivial, rfl⟩)
    have clock : (h₁.called op h₁.live.clock).live.clock = h₁.live.clock :=
      Work.after_clock (w := h₁.work) op rfl
    have later : p.history.live.clock ≤ h₁.live.clock := by
      cases History.step_cases ticked with
      | ticked room => exact le_of_lt (lt_succ room)
    refine ⟨reached, fun step member => ?_, List.mem_append_right _ (List.mem_singleton_self _)⟩
    rcases List.mem_append.mp member with old | last
    · rw [clock]
      exact (current.latest step old).trans later
    · rw [List.mem_singleton.mp last]
  | checkpoint _ taken current =>
    have reached := current.reached.turns (.single ⟨.checkpoint, trivial, taken⟩)
    cases taken
    exact ⟨reached, current.latest, current.used⟩
  | reopen _ opened current =>
    exact ⟨current.reached.resumed opened, by simp [History.resumed], by simp [History.resumed]⟩

/-- The steps the process has used when it crashes: those it answered with, and those of the
records that the call in flight got into the journal. -/
def spent (p : Process) (files : Restart) : List Step :=
  p.used ++ (p.history.cut files).map (·.step)

/-- The files hold the last step used: the snapshot or a record behind it has it, and the
clock has not reached its last value. -/
def Carried (p : Process) (files : Restart) (point : Option Nat) : Prop :=
  (∀ r ∈ p.history.cut files, r.step ≠ maxWord) ∧
    (p.history.live.clock ≤ startingClock (point.bind (p.history.checkpoints[·]?)) ∨
      ∃ r ∈ p.history.survived files, covered (point.bind (p.history.checkpoints[·]?)) < r.sequence ∧
        r.step ≠ maxWord ∧ p.history.live.clock ≤ r.step)

/-- Time goes on after a crash exactly when the files hold the last step used. -/
theorem time_resumes_iff (p : Process) (lived : Lived p) (files : Restart) (point : Option Nat)
    (w : Work) (opened : p.history.reopened files point = (.ok ⟨⟩, w)) :
    (∀ step ∈ p.spent files, step < w.state.clock) ↔ p.Carried files point := by
  obtain ⟨clock, room, resumes, folded⟩ := History.reopened_clock opened
  have current := lived.current
  have behind : ∀ r ∈ p.history.cut files,
      covered (point.bind (p.history.checkpoints[·]?)) < r.sequence :=
    History.cut_behind current.reached
  have below : ∀ step, step < w.state.clock ↔ step ≤ clock := by
    intro step
    rw [resumes]
    constructor
    · exact le_of_lt_succ room
    · exact fun le => lt_of_le_of_lt le (lt_succ room)
  have carried : ∀ step, step ≤ clock ↔
      step ≤ startingClock (point.bind (p.history.checkpoints[·]?)) ∨
        ∃ r ∈ p.history.survived files, covered (point.bind (p.history.checkpoints[·]?)) < r.sequence ∧
          r.step ≠ maxWord ∧ step ≤ r.step := by
    intro step
    rw [folded, le_resumeClock]
    simp only [List.mem_filter, decide_eq_true_eq, and_assoc]
  simp only [below, spent, List.mem_append, List.mem_map]
  constructor
  · intro all
    refine ⟨fun r member last => ?_, (carried _).mp (all _ (.inl current.used))⟩
    have reached := all r.step (.inr ⟨r, member, rfl⟩)
    rw [last] at reached
    exact room (le_antisymm (UInt64.le_iff_toNat_le.mpr (Nat.le_of_lt_succ clock.toNat_lt)) reached)
  · rintro ⟨set, held⟩ step (answered | ⟨r, member, rfl⟩)
    · exact (current.latest step answered).trans ((carried _).mpr held)
    · refine (carried _).mpr (.inr ⟨r, ?_, behind r member, set r member, le_rfl⟩)
      rw [History.survived_eq]
      exact List.mem_append_right _ member

section Sample

open History (sampleConfig sampleStart sampleDomain sampleScope)
open RegistryService (asked asRequest checkEnvelope)

def sampleFiles : Restart := { config := sampleConfig, boot := { boot := 1, incarnation := 1 } }

/-- A request, answered with the step it moved the clock to. -/
def answers (p : Process) (op : Op) : Option Process :=
  (p.history.request op).map fun h => ⟨h, p.used ++ [h.live.clock]⟩

/-- A first open, some requests, and the next open without a snapshot. -/
def reopenedAfter (ops : List Op) : Option (Process × Except Status PUnit × Work) :=
  sampleStart.bind fun h =>
    match h.reopened sampleFiles none with
    | (.error _, _) => none
    | (.ok _, w) => (ops.foldlM answers ⟨h.resumed sampleFiles w, [w.state.clock]⟩).map fun p =>
      (p, p.history.reopened sampleFiles none)

theorem Lived.answers {p p' : Process} {ops : List Op} (lived : Lived p)
    (ran : ops.foldlM Process.answers p = some p') : Lived p' := by
  induction ops generalizing p with
  | nil =>
    cases ran
    exact lived
  | cons op ops ih =>
    rw [List.foldlM_cons] at ran
    obtain ⟨p₁, first, rest⟩ := Option.bind_eq_some_iff.mp ran
    obtain ⟨h, handled, rfl⟩ := Option.map_eq_some_iff.mp first
    exact ih (.request lived handled) rest

theorem reopenedAfter_lived {ops : List Op} {p : Process} {result : Except Status PUnit × Work}
    (ran : reopenedAfter ops = some (p, result)) :
    Lived p ∧ p.history.reopened sampleFiles none = result := by
  obtain ⟨h, begun, ran⟩ := Option.bind_eq_some_iff.mp ran
  rcases opened : h.reopened sampleFiles none with ⟨r, w⟩
  simp only [opened] at ran
  cases r with
  | error st => cases ran
  | ok u =>
    obtain ⟨p', answered, shown⟩ := Option.map_eq_some_iff.mp ran
    cases shown
    have fresh : History.start sampleFiles.config 0 { node := sampleFiles.config.node }
        sampleFiles.fabric = some h := begun
    exact ⟨(Lived.first fresh opened).answers answered, rfl⟩

/-- A request that leaves a record. -/
theorem time_resumes_iff_defined : ∃ p w, Lived p ∧
    p.history.reopened sampleFiles none = (.ok ⟨⟩, w) ∧ p.used = [1, 2] ∧
    ∀ step ∈ p.spent sampleFiles, step < w.state.clock := by
  have evaluated : (reopenedAfter [.defineDomain (sampleDomain 100 120)]).map (fun q =>
      (q.1.used, q.2.1, (q.1.history.survived sampleFiles).any fun r => decide (0 < r.sequence) &&
        decide (r.step ≠ maxWord) && decide (q.1.history.live.clock ≤ r.step))) =
      some ([1, 2], .ok ⟨⟩, true) := by
    decide +kernel
  obtain ⟨⟨p, r, w⟩, ran, results⟩ := Option.map_eq_some_iff.mp evaluated
  simp only [Prod.mk.injEq] at results
  obtain ⟨used, rfl, held⟩ := results
  obtain ⟨lived, opened⟩ := reopenedAfter_lived ran
  refine ⟨p, w, lived, opened, used, (time_resumes_iff p lived sampleFiles none w opened).mpr ?_⟩
  refine ⟨fun r member => (by cases member), .inr ?_⟩
  obtain ⟨r, member, shown⟩ := List.any_eq_true.mp held
  simp only [Bool.and_eq_true, decide_eq_true_eq] at shown
  exact ⟨r, member, shown.1.1, shown.1.2, shown.2⟩

/-- The session of the first hello. -/
def firstSession : SessionBinding :=
  { session := 1, node := Id.make [110], boot := 1, incarnation := 2 }

/-- A question about a domain that nobody has defined. -/
def strangeQuestion : DecideRequest where
  envelope := ⟨1, Id.make [110], 1, 2⟩
  domain := Id.make [100]
  scope := sampleScope 120
  epoch := 1
  incarnation := 2
  boot := 1
  presentedFenceToken := 1
  evidence := { policy := Id.make [112] }

/-- As it comes from the session. -/
def strangeFrame : Frame where
  header := { type := .decideRequest, requestId := 1 }
  payload := strangeQuestion.encode

theorem strangeFrame_asks :
    asked {} strangeFrame firstSession = some (.decide strangeQuestion {}) := by
  have node : (Id.make [110] : NodeId).isEmpty = false := by decide
  have encodable : strangeQuestion.Encodable :=
    ⟨node, by decide, by decide, by decide, nofun, rfl⟩
  have decoded : Reader.decode DecideRequest.decode strangeQuestion.encode =
      .ok strangeQuestion := DecideRequest.spells_decode.whole_iff.mpr
    ⟨encodable, _, strangeQuestion.scope.encode_spelled, rfl⟩
  have bound : (checkEnvelope strangeQuestion.envelope firstSession).isOk = true := by decide
  have accepted : asRequest DecideRequest.decode (·.envelope) strangeFrame.payload firstSession =
      some strangeQuestion := by
    simp only [asRequest, strangeFrame, decoded, bound, if_true]
  rw [asked, if_neg (by decide)]
  exact congrArg (Option.map _) accepted

/-- A well-formed decision that is refused has used a step that no file holds, and the next
open is at that step again. -/
theorem time_repeats :
    asked {} strangeFrame firstSession = some (.decide strangeQuestion {}) ∧
    ∃ p w, reopenedAfter [.allocateIncarnation, .decide strangeQuestion {}] =
        some (p, .ok ⟨⟩, w) ∧ Lived p ∧ p.history.reopened sampleFiles none = (.ok ⟨⟩, w) ∧
      p.history.live.boot.boot = firstSession.boot ∧
      p.history.live.incarnationCounter = firstSession.incarnation ∧
      (p.history.live.domains.find strangeQuestion.domain).isNone = true ∧
      ¬ ∀ step ∈ p.spent sampleFiles, step < w.state.clock := by
  refine ⟨strangeFrame_asks, ?_⟩
  have evaluated : (reopenedAfter [.allocateIncarnation, .decide strangeQuestion {}]).map
      (fun q => (q.1.used, q.2.1, q.2.2.state.clock,
        decide (q.1.history.live.boot.boot = firstSession.boot) &&
        decide (q.1.history.live.incarnationCounter = firstSession.incarnation) &&
        (q.1.history.live.domains.find strangeQuestion.domain).isNone)) =
      some ([1, 2, 3], .ok ⟨⟩, 3, true) := by
    decide +kernel
  obtain ⟨⟨p, r, w⟩, ran, results⟩ := Option.map_eq_some_iff.mp evaluated
  simp only [Prod.mk.injEq, Bool.and_eq_true, decide_eq_true_eq] at results
  obtain ⟨used, rfl, clock, ⟨boot, incarnation⟩, unknown⟩ := results
  obtain ⟨lived, opened⟩ := reopenedAfter_lived ran
  refine ⟨p, w, ran, lived, opened, boot, incarnation, unknown, fun goesOn => ?_⟩
  have later := goesOn 3 (by simp [spent, used])
  rw [clock] at later
  exact absurd later (lt_irrefl _)

end Sample

end Process
end SplitBrainFabric
