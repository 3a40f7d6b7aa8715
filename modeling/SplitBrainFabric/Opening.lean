import SplitBrainFabric.Provenance
import SplitBrainFabric.Shelves

/-! Opening a registry on its directory: its two stores, what the snapshot and the journal say,
and the recovery, whose records are written before anything is served. -/

namespace SplitBrainFabric
open Words

/-- The files of a registry: those of its store, and those of the effect boundary. -/
structure DirectoryFiles where
  store : StoreFiles := {}
  effectHeader : Option Bytes := none
  effectLog : Option Bytes := none

/-- A report that two opens fill in one after the other. -/
def StoreRecoveryReport.followed (first second : StoreRecoveryReport) : StoreRecoveryReport where
  created := first.created || second.created
  snapshotLoaded := first.snapshotLoaded || second.snapshotLoaded
  tornTailRecovered := first.tornTailRecovered || second.tornTailRecovered
  tornTailBytes := if second.tornTailRecovered then second.tornTailBytes else first.tornTailBytes
  journalRecords := first.journalRecords + second.journalRecords
  lastSequence := if second.journalRecords = 0 then first.lastSequence else second.lastSequence
  lastStep := if second.journalRecords = 0 then first.lastStep else second.lastStep

namespace RegistryService

open Store (savedPoint Stocked)

/-- What a replay does with a record of the journal. -/
def takeRecord (covers : Sequence) (s : RegistryState) (r : JournalRecord) :
    Except Status RegistryState :=
  if r.sequence ≤ covers then .ok s
  else
    match (RegistryState.apply r).exec s with
    | (.ok _, s') => .ok s'
    | (.error st, _) => .error st

/-- What the snapshot says, and the last record it covers; one that does not load is passed by,
and then nothing is covered. -/
def loadState (config : RegistryConfig) (store : Store) : Prog Status RegistryState Sequence :=
  match store.loadSnapshot with
  | .ok (header, blob) => do
    RegistryState.deserialize blob
    let s ← get
    Prog.refuseIf (s.storeId ≠ config.storeId) (.make .conflict .storeNotFound)
    pure header.coversSequence
  | .error _ => pure 0

/-- The registry as the files describe it. -/
def restoreFrom (config : RegistryConfig) (store : Store) : Prog Status RegistryState PUnit := do
  RegistryState.initialise config 0 { node := config.node }
  let covers ← loadState config store
  let s ← get
  let s ← Prog.ofExcept (store.replay (takeRecord covers) s)
  set s
  RegistryState.rebuild

/-- `open` once its two stores are open. -/
def recover (io : RequestIo) : Prog Status RegistryService PUnit := do
  let s ← get
  onRegistry (restoreFrom s.config s.store)
  let now ← onRegistry advance
  let (result, records) ← perform (Work.recoverAfterRestart now)
  Prog.ofExcept result
  appendRecords io records

/-- Both stores, the effect boundary second. A tail that was torn off the journal is in the report
that the effect boundary goes on with, and so its mark is set as well. -/
def openStores (config : RegistryConfig) (files : DirectoryFiles) :
    Except Status (RegistryService × StoreRecoveryReport) := do
  let (store, _, first) ← Store.openStore files.store config.storeId {}
  let (fabric, _, second) ←
    FabricStore.openStore files.effectHeader files.effectLog config.storeId {}
  let torn := first.tornTailRecovered && files.effectLog.isSome
  pure ({
    config := config
    store := store
    state := { fabric := { fabric with
      tornTailRecovered := fabric.tornTailRecovered || torn } } }, first.followed second)

/-- `RegistryService::open`, with the report it keeps. -/
def openDirectory (io : RequestIo) (config : RegistryConfig) (files : DirectoryFiles) :
    Except Status (RegistryService × StoreRecoveryReport) := do
  let (s, report) ← openStores config files
  match (recover io).exec s with
  | (.ok _, s') => pure (s', { report with
      snapshotLoaded := report.snapshotLoaded || s.store.loadSnapshot.isOk
      lastSequence := s'.store.lastSequence })
  | (.error st, _) => .error st

section Restore

variable {config : RegistryConfig} {store : Store} {points : List Checkpoint}
  {log : List JournalRecord} {u u' : RegistryState}

theorem visitAll_takeRecord {covers : Sequence} {records : List JournalRecord}
    (visited : LogFormat.visitAll (takeRecord covers) u records = .ok u') :
    (RegistryState.replay covers records).exec u = (.ok ⟨⟩, u') := by
  induction records generalizing u with
  | nil =>
    cases visited
    rfl
  | cons r rest ih =>
    rw [LogFormat.visitAll] at visited
    rw [RegistryState.replay, Prog.forM_cons]
    cases taken : takeRecord covers u r with
    | error st => rw [taken] at visited; cases visited
    | ok v =>
      rw [taken] at visited
      have tail : (RegistryState.replay covers rest).exec v = (.ok ⟨⟩, u') := ih visited
      unfold takeRecord at taken
      by_cases low : r.sequence ≤ covers
      · rw [if_pos low] at taken ⊢
        cases taken
        exact tail
      · rw [if_neg low] at taken ⊢
        rw [Prog.exec_bind]
        rcases applied : (RegistryState.apply r).exec u with ⟨result, v'⟩
        rw [applied] at taken
        cases result with
        | error st => cases taken
        | ok u =>
          cases taken
          exact tail

/-- The file holds what there is to replay of the whole history. -/
theorem replayed_history {covers : Sequence} (stocked : store.Stocked points log)
    (same : covers = History.covered (savedPoint store.snapshot))
    (ran : store.replay (takeRecord covers) u = .ok u') :
    (RegistryState.replay covers log).exec u = (.ok ⟨⟩, u') := by
  obtain ⟨before, stale, since, rfl, laid, visited⟩ := stocked.replayed ran
  have played := visitAll_takeRecord visited
  rw [← same] at laid
  have behind : ∀ r ∈ since, covers < r.sequence := fun r member => (laid.above member).1
  rw [History.replay_parts (fun r member => laid.old r (List.mem_append_right before member))
    behind] at played
  rw [History.replay_parts (fun r member => laid.old r (List.mem_append_left stale member)) behind]
  exact played

/-- What the files say is what the history says. -/
theorem restoreFrom_ok (stocked : store.Stocked points log)
    (ran : (restoreFrom config store).exec u = (.ok ⟨⟩, u')) :
    ∃ v, (RegistryState.reload config 0 { node := config.node } (savedPoint store.snapshot)
      log).exec u = (.ok ⟨⟩, v) ∧ RegistryState.rebuild.exec v = (.ok ⟨⟩, u') := by
  obtain ⟨_, s₀, begun, ran⟩ := Prog.bind_ok ran
  obtain ⟨covers, s₁, loaded, ran⟩ := Prog.bind_ok ran
  rw [Prog.exec_get_bind] at ran
  obtain ⟨s₂, replayed, ran⟩ := Prog.ofExcept_ok ran
  obtain ⟨_, v, moved, built⟩ := Prog.bind_ok ran
  cases moved
  refine ⟨s₂, ?_, built⟩
  unfold RegistryState.reload
  rw [Prog.exec_bind_ok begun]
  unfold loadState at loaded
  have point : savedPoint store.snapshot = match store.loadSnapshot with
    | .ok (header, blob) => some ⟨blob, header.coversSequence⟩
    | .error _ => none := rfl
  cases snapshot : store.loadSnapshot with
  | error st =>
    rw [snapshot] at loaded point
    cases loaded
    rw [point]
    exact replayed_history stocked (by rw [point]; rfl) replayed
  | ok found =>
    obtain ⟨header, blob⟩ := found
    rw [snapshot] at loaded point
    obtain ⟨_, s, restored, loaded⟩ := Prog.bind_ok loaded
    rw [Prog.exec_get_bind] at loaded
    obtain ⟨named, loaded⟩ := Prog.refuseIf_ok loaded
    cases loaded
    simp only [point]
    rw [Prog.exec_bind_ok restored, Prog.exec_get_bind, Prog.exec_refuseIf, if_neg named]
    exact replayed_history stocked (by rw [point]; rfl) replayed

end Restore

/-- How a recovery ends: before anything is written, or with the records of the operation that
fences what was open, written or not. -/
inductive Recovered (io : RequestIo) (s : RegistryService) : Except Status PUnit →
    RegistryService → Prop
  | refused {st : Status} {s' : RegistryService} (kept : s'.store = s.store) :
    Recovered io s (.error st) s'
  | written {u : RegistryState} {w : Work} {r : Except Status PUnit} {s' : RegistryService}
    (restored : (restoreFrom s.config s.store).exec s.state = (.ok ⟨⟩, u))
    (room : u.clock ≠ maxWord)
    (fenced : (Work.recoverAfterRestart (u.clock + 1)).exec { s with state := u }.work =
      (.ok ⟨⟩, w))
    (appended : (appendRecords io ({ s with state := u }.produced .recoverAfterRestart)).exec
      ({ s with state := u }.performed .recoverAfterRestart) = (r, s')) : Recovered io s r s'

theorem recover_recovered {io : RequestIo} {s s' : RegistryService} {r : Except Status PUnit}
    (ran : (recover io).exec s = (r, s')) : Recovered io s r s' := by
  rw [recover, Prog.exec_get_bind, Prog.exec_bind, onRegistry, Prog.exec_zoom] at ran
  rcases restored : (restoreFrom s.config s.store).exec s.state with ⟨result, u⟩
  simp only [restored] at ran
  cases result with
  | error st =>
    cases ran
    exact .refused rfl
  | ok v =>
    simp only at ran
    rw [exec_performed .recoverAfterRestart (fun _ _ => rfl)] at ran
    by_cases full : u.clock = maxWord
    · rw [if_pos full] at ran
      cases ran
      exact .refused rfl
    rw [if_neg full, Prog.exec_ofExcept_bind] at ran
    rcases fenced : (Work.recoverAfterRestart (u.clock + 1)).exec { s with state := u }.work with
      ⟨result, w⟩
    simp only [fenced] at ran
    cases result with
    | error st =>
      cases ran
      exact .refused rfl
    | ok v => exact .written restored full fenced ran

end RegistryService
end SplitBrainFabric
