import SplitBrainFabric.Library.Runs
import SplitBrainFabric.OperationSpecs
import SplitBrainFabric.Snapshot

/-! Whole histories of a registry: calls, checkpoints, crashes in the middle of a call
and restarts from the files, in any order. -/

namespace SplitBrainFabric
open Words

inductive Op where
  | defineDomain (definition : DomainDefinition)
  | definePolicy (policy : ArbiterPolicy)
  | allocateIncarnation
  | allocateEpoch (request : AllocateEpochRequest)
  | decide (request : DecideRequest) (sorting : Sorting)
  | commit (request : CommitRequest) (io : AppendIo)
  | fence (request : FenceRequest)
  | release (request : ReleaseRequest)
  | recoverAfterRestart

/-- What an answer hands out for the first time. -/
structure Issue where
  tokens : List FenceToken := []
  grants : List GrantId := []
  incarnations : List IncarnationId := []

namespace Issue

def append (a b : Issue) : Issue :=
  ⟨a.tokens ++ b.tokens, a.grants ++ b.grants, a.incarnations ++ b.incarnations⟩

end Issue

namespace Op

/-- What the call leaves behind, whatever it answers. -/
def after (now : Step) (w : Work) : Op → Work
  | .defineDomain d => ((Work.defineDomain d now).exec w).2
  | .definePolicy p => ((Work.definePolicy p now).exec w).2
  | .allocateIncarnation => ((Work.allocateIncarnation now).exec w).2
  | .allocateEpoch request => ((Work.allocateEpoch request now).exec w).2
  | .decide request sorting => ((Work.decide sorting request now).exec w).2
  | .commit request io => ((Work.commit request now io).exec w).2
  | .fence request => ((Work.fence request now).exec w).2
  | .release request => ((Work.release request now).exec w).2
  | .recoverAfterRestart => ((Work.recoverAfterRestart now).exec w).2

/-- A repeated attempt answers with a grant it already has, so it issues nothing. -/
def issue (now : Step) (w : Work) : Op → Issue
  | .allocateIncarnation =>
    match ((Work.allocateIncarnation now).exec w).1 with
    | .ok i => { incarnations := [i] }
    | .error _ => {}
  | .allocateEpoch request =>
    match ((Work.allocateEpoch request now).exec w).1 with
    | .ok response =>
      if (w.repeatedAttempt request).isSome then {}
      else { tokens := [response.fenceToken], grants := [response.grant] }
    | .error _ => {}
  | .fence request =>
    match ((Work.fence request now).exec w).1 with
    | .ok response => { tokens := [response.newHighWater] }
    | .error _ => {}
  | .release request =>
    match ((Work.release request now).exec w).1 with
    | .ok response => { tokens := [response.newHighWater] }
    | .error _ => {}
  | .recoverAfterRestart =>
    match (Work.recoverAfterRestart now).exec w with
    | (.ok _, w') => { incarnations := [w'.state.boot.incarnation] }
    | (.error _, _) => {}
  | _ => {}

theorem reach {w : Work} (sound : w.state.lineage.Sound) (now : Step) (op : Op) :
    Work.Reach w (op.after now w) := by
  cases op with
  | defineDomain d => exact Work.defineDomain_spec (Prod.eta _).symm
  | definePolicy p => exact Work.definePolicy_spec (Prod.eta _).symm
  | allocateIncarnation => exact (Work.allocateIncarnation_spec (Prod.eta _).symm).1
  | allocateEpoch request => exact (Work.allocateEpoch_spec sound (Prod.eta _).symm).1
  | decide request sorting =>
    have same : after now w (.decide request sorting) = w := Work.decide_spec (Prod.eta _).symm
    rw [same]
  | commit request io => exact (Work.commit_spec (Prod.eta _).symm).1
  | fence request => exact (Work.fence_spec sound (Prod.eta _).symm).1
  | release request => exact (Work.release_spec sound (Prod.eta _).symm).1
  | recoverAfterRestart => exact (Work.recoverAfterRestart_spec sound (Prod.eta _).symm).1

end Op

/-- A snapshot file: the blob, and the last record it covers. -/
structure Checkpoint where
  blob : Bytes
  covers : Sequence

namespace RegistryState

/-- Records the snapshot already covers are skipped. -/
def replay (covers : Sequence) (log : List JournalRecord) : Prog Status RegistryState PUnit :=
  log.forM fun r => if r.sequence ≤ covers then pure ⟨⟩ else apply r

/-- The registry as the files describe it. -/
def reload (config : RegistryConfig) (clock : Step) (boot : BootRecord) (base : Option Checkpoint)
    (log : List JournalRecord) : Prog Status RegistryState PUnit := do
  initialise config clock boot
  match base with
  | none => replay 0 log
  | some c => do
    deserialize c.blob
    let s ← get
    Prog.refuseIf (s.storeId ≠ config.storeId) (.make .conflict .storeNotFound)
    replay c.covers log

end RegistryState

/-- What a restart finds. The call in flight is cut after some of its records. -/
structure Restart where
  inFlight : Option (Op × Step × Nat) := none
  base : Option Nat := none
  config : RegistryConfig
  clock : Step := 0
  boot : BootRecord := {}
  fabric : FabricStore := {}

inductive Event where
  | call (op : Op) (now : Step)
  | checkpoint
  | restart (files : Restart)
  | rebuild
  | tick

/-- The process, the records that were acknowledged, the snapshots taken, what the
answers handed out, and whether the last restart has been recovered from. -/
structure History where
  live : RegistryState
  log : List JournalRecord := []
  checkpoints : List Checkpoint := []
  issued : Issue := {}
  serving : Bool := false

namespace History

def work (h : History) : Work := { state := h.live }

def lastSequence (log : List JournalRecord) : Sequence := (log.getLast?.map (·.sequence)).getD 0

/-- What is in the journal after a crash. -/
def survived (h : History) (files : Restart) : List JournalRecord :=
  match files.inFlight with
  | none => h.log
  | some (op, now, k) => h.log ++ (op.after now h.work).emitted.take k

def isRecovery : Op → Bool
  | .recoverAfterRestart => true
  | _ => false

def called (h : History) (op : Op) (now : Step) : History :=
  { h with
    live := (op.after now h.work).state
    log := h.log ++ (op.after now h.work).emitted
    issued := h.issued.append (op.issue now h.work)
    serving := h.serving || (isRecovery op && !(op.issue now h.work).incarnations.isEmpty) }

def step (h : History) : Event → Option History
  | .call op now => some (h.called op now)
  | .checkpoint => some { h with
      checkpoints := h.checkpoints ++ [⟨h.live.serialize, lastSequence h.log⟩] }
  | .restart files =>
    let base := files.base.bind (h.checkpoints[·]?)
    match (RegistryState.reload files.config files.clock files.boot base (h.survived files)).exec
        { fabric := files.fabric } with
    | (.ok _, s) => some { h with live := s, log := h.survived files, serving := false }
    | (.error _, _) => none
  | .rebuild => some { h with live := (RegistryState.rebuild.exec h.live).2 }
  | .tick =>
    if h.live.clock = maxWord then none
    else some { h with live := { h.live with clock := h.live.clock + 1 } }

def start (config : RegistryConfig) (clock : Step) (boot : BootRecord) (fabric : FabricStore) :
    Option History :=
  match (RegistryState.initialise config clock boot).exec { fabric := fabric } with
  | (.ok _, s) => some { live := s }
  | (.error _, _) => none

/-- What an event leaves behind when it goes through. -/
inductive Stepped (h : History) : Event → History → Prop
  | called (op : Op) (now : Step) : Stepped h (.call op now) (h.called op now)
  | saved : Stepped h .checkpoint { h with
      checkpoints := h.checkpoints ++ [⟨h.live.serialize, lastSequence h.log⟩] }
  | reloaded (files : Restart) (s : RegistryState)
      (ran : (RegistryState.reload files.config files.clock files.boot
        (files.base.bind (h.checkpoints[·]?)) (h.survived files)).exec { fabric := files.fabric } =
          (.ok ⟨⟩, s)) :
      Stepped h (.restart files) { h with live := s, log := h.survived files, serving := false }
  | rebuilt (s : RegistryState) (fills : s = h.live ∨ s = h.live.rebuilt) :
      Stepped h .rebuild { h with live := s }
  | ticked (room : h.live.clock ≠ maxWord) :
      Stepped h .tick { h with live := { h.live with clock := h.live.clock + 1 } }

theorem step_cases {h h' : History} {event : Event} (stepped : h.step event = some h') :
    Stepped h event h' := by
  cases event with
  | call op now =>
    cases stepped
    exact .called op now
  | checkpoint =>
    cases stepped
    exact .saved
  | restart files =>
    simp only [step] at stepped
    split at stepped
    · rename_i u s ran
      cases stepped
      exact .reloaded files s ran
    · cases stepped
  | rebuild =>
    cases stepped
    rcases ran : RegistryState.rebuild.exec h.live with ⟨r, s⟩
    refine .rebuilt s ?_
    rcases RegistryState.rebuild_cases ran with ⟨same, -⟩ | filled
    · exact .inl same
    · exact .inr filled
  | tick =>
    simp only [step] at stepped
    split at stepped
    · cases stepped
    · rename_i room
      cases stepped
      exact .ticked room

theorem start_ok {config : RegistryConfig} {clock : Step} {boot : BootRecord}
    {fabric : FabricStore} {h : History} (begun : start config clock boot fabric = some h) :
    ∃ s, (RegistryState.initialise config clock boot).exec { fabric := fabric } = (.ok ⟨⟩, s) ∧
      h = { live := s } := by
  unfold start at begun
  split at begun
  · rename_i u s ran
    cases begun
    exact ⟨s, ran, rfl⟩
  · cases begun

/-- One event that the run allows. -/
def Turn (allowed : History → Event → Prop) (h h' : History) : Prop :=
  ∃ event, allowed h event ∧ h.step event = some h'

/-- Any number of events from a fresh registry. -/
def Reachable (allowed : History → Event → Prop) (h : History) : Prop :=
  ∃ config clock boot fabric h₀, start config clock boot fabric = some h₀ ∧
    Relation.ReflTransGen (Turn allowed) h₀ h

/-- A run along given events, each checked before it is taken. -/
def guarded (check : History → Event → Bool) (h : History) (events : List Event) : Option History :=
  events.foldlM (fun h event => if check h event then h.step event else none) h

theorem guarded_turns {allowed : History → Event → Prop} {check : History → Event → Bool}
    {h h' : History} {events : List Event} (sound : ∀ h event, check h event = true → allowed h event)
    (ran : h.guarded check events = some h') : Relation.ReflTransGen (Turn allowed) h h' :=
  Runs.guarded_turns sound ran

theorem Reachable.turns {allowed : History → Event → Prop} {h h' : History}
    (reached : Reachable allowed h) (run : Relation.ReflTransGen (Turn allowed) h h') :
    Reachable allowed h' := by
  obtain ⟨config, clock, boot, fabric, h₀, begun, before⟩ := reached
  exact ⟨config, clock, boot, fabric, h₀, begun, before.trans run⟩

theorem Reachable.invariant {allowed : History → Event → Prop} {P : History → Prop}
    (begins : ∀ config clock boot fabric h, start config clock boot fabric = some h → P h)
    (keeps : ∀ h event h', P h → allowed h event → h.step event = some h' → P h') {h : History}
    (reached : Reachable allowed h) : P h := by
  obtain ⟨config, clock, boot, fabric, h₀, begun, run⟩ := reached
  exact Runs.turns_invariant (begins config clock boot fabric h₀ begun) keeps run

end History
end SplitBrainFabric
