import SplitBrainFabric.Health
import SplitBrainFabric.Replay

/-! The audit of a store that is not in service. It reads the registry back from the
snapshot and the journal, and what it reads of the fenced incarnations is rebuilt. -/

namespace SplitBrainFabric
open Words

/-- `offline-auditor` -/
def offlineAuditor : NodeId :=
  Id.make [111, 102, 102, 108, 105, 110, 101, 45, 97, 117, 100, 105, 116, 111, 114]

/-- `fabric-policy` -/
def fabricPolicy : PolicyId :=
  Id.make [102, 97, 98, 114, 105, 99, 45, 112, 111, 108, 105, 99, 121]

/-- `offline-witness` -/
def offlineWitness : WitnessId :=
  Id.make [111, 102, 102, 108, 105, 110, 101, 45, 119, 105, 116, 110, 101, 115, 115]

/-- `offline-fd` -/
def offlineFd : FaultDomainId :=
  Id.make [111, 102, 102, 108, 105, 110, 101, 45, 102, 100]

/-- The configuration that `sbfctl audit` makes up. -/
def auditConfig (storeId : StoreId) : RegistryConfig where
  storeId := storeId
  node := offlineAuditor
  policy := {
    policy := fabricPolicy
    quorum := {
      policy := fabricPolicy
      witnesses := [⟨offlineWitness, offlineFd⟩]
      mode := .thresholdDistinctWitnesses
      threshold := 1 } }

/-- The registry that `sbfctl audit` looks at, from the latest snapshot and the journal. -/
def cmdAudit (storeId : StoreId) (base : Option Checkpoint) (log : List JournalRecord) :
    Prog Status RegistryState PUnit := do
  RegistryState.initialise (auditConfig storeId) 0 { node := offlineAuditor }
  match base with
  | none => RegistryState.replay 0 log
  | some c => do
    RegistryState.deserialize c.blob
    RegistryState.replay c.covers log
  RegistryState.rebuild

namespace FenceTable

/-- The set of fenced incarnations after a fence. -/
def noted (set : IncarnationSet) (record : FenceRecord) : IncarnationSet :=
  (noteIncarnation record { fencedIncarnations := set }).fencedIncarnations

theorem noteIncarnation_noted (record : FenceRecord) (t : FenceTable) :
    (noteIncarnation record t).fencedIncarnations = noted t.fencedIncarnations record := by
  unfold noted noteIncarnation
  split_ifs <;> rfl

end FenceTable

/-- The fence that an entry carries. -/
def Entry.fenceRecord : Entry → Option FenceRecord
  | .fence record _ => some record
  | _ => none

def JournalRecord.fenceRecord (r : JournalRecord) : Option FenceRecord :=
  match r.entry with
  | .ok entry => entry.fenceRecord
  | .error _ => none

namespace RegistryState

variable {s s' : RegistryState}

theorem enact_incarnations {entry : Entry} {r : Except Status PUnit}
    (ran : (enact entry).exec s = (r, s')) (ok : r = .ok ⟨⟩) :
    s'.fences.fencedIncarnations =
      entry.fenceRecord.toList.foldl FenceTable.noted s.fences.fencedIncarnations := by
  cases entry with
  | fence record scope =>
    rcases enact_fence ran with ⟨_, _, rfl⟩ | ⟨_, _, rfl, _⟩
    · exact FenceTable.applied_fencedIncarnations.trans (FenceTable.noteIncarnation_noted _ _)
    · cases ok
  | extentAdopt record scope => rcases enact_extentAdopt ran with ⟨_, _, rfl⟩ | ⟨_, rfl⟩ <;> rfl
  | silent | bootBegin _ | bootEnd _ | policyDefine _ | domainDefine _ | grantOpen _
  | grantClose _ | commitRecord | incarnationAllocate _ | interruptMark _ =>
    rw [enact_fences rfl ran]
    rfl

/-- A replayed record fences what its fence names, and nothing else. -/
theorem apply_incarnations {record : JournalRecord} (ran : (apply record).exec s = (.ok ⟨⟩, s')) :
    s'.fences.fencedIncarnations =
      record.fenceRecord.toList.foldl FenceTable.noted s.fences.fencedIncarnations := by
  obtain ⟨-, -, entry, read, enacted⟩ := apply_ok ran
  have noted := enact_incarnations enacted rfl
  rw [noted, JournalRecord.fenceRecord, read]
  rfl

theorem replay_incarnations {covers : Sequence} {log : List JournalRecord}
    (ran : (replay covers log).exec s = (.ok ⟨⟩, s')) :
    s'.fences.fencedIncarnations = ((log.filter (covers < ·.sequence)).filterMap
      (·.fenceRecord)).foldl FenceTable.noted s.fences.fencedIncarnations := by
  unfold replay at ran
  induction log generalizing s with
  | nil => cases ran; rfl
  | cons record rest ih =>
    rw [Prog.forM_cons] at ran
    obtain ⟨_, s₁, first, ran⟩ := Prog.bind_ok ran
    rw [ih ran]
    by_cases covered : record.sequence ≤ covers
    · rw [if_pos covered] at first
      cases first
      rw [List.filter_cons_of_neg (by simpa using covered)]
    · rw [if_neg covered] at first
      rw [List.filter_cons_of_pos (by simpa using covered), apply_incarnations first]
      cases fence : record.fenceRecord with
      | none => simp [fence]
      | some fenceRecord => simp [fence]

/-- The incarnations a snapshot brings back as fenced: those its fence records name, and
those that own an extent. -/
def namedIncarnations (blob : Bytes) : List IncarnationId :=
  match Reader.decode readImage (blob.take (blob.length - 32)) with
  | .ok image => (image.fenceRecords.map (·.1.fencedIncarnation) ++
      image.extents.map (·.ownerIncarnation)).filter (· ≠ 0)
  | .error _ => []

theorem namedIncarnations_of {blob : Bytes} {image : Image}
    (decoded : Reader.decode readImage (blob.take (blob.length - 32)) = .ok image) :
    namedIncarnations blob = (image.fenceRecords.map (·.1.fencedIncarnation) ++
      image.extents.map (·.ownerIncarnation)).filter (· ≠ 0) := by
  unfold namedIncarnations
  rw [decoded]

/-- A snapshot that is read back is read as the image it was written from. -/
theorem deserialize_image {t t' : RegistryState} (sized : s.Sized)
    (ran : (deserialize s.serialize).exec t = (.ok ⟨⟩, t')) :
    Reader.decode readImage (s.serialize.take (s.serialize.length - 32)) = .ok s.image := by
  obtain ⟨image, fences, lineage, decoded, -⟩ := deserialize_ok ran
  rw [serialize_body] at decoded ⊢
  obtain rfl := (agrees_image sized).whole decoded
  exact decoded

theorem deserialize_incarnations {t t' : RegistryState} (sized : s.Sized)
    (ran : (deserialize s.serialize).exec t = (.ok ⟨⟩, t')) :
    t'.fences.fencedIncarnations = SortedTable.ofList (namedIncarnations s.serialize) := by
  have named := namedIncarnations_of (deserialize_image sized ran)
  have records : s.image.fenceRecords.map (·.1.fencedIncarnation) =
      s.fences.records.map (·.fencedIncarnation) := by
    simp only [RegistryState.image, List.map_map]
    rfl
  rcases deserialize_cases sized ran with ⟨-, st, failed⟩ | ⟨fences, lineage, imported, -, ended⟩
  · cases failed
  · rcases ended with ⟨-, st, failed⟩ | rfl
    · cases failed
    · rw [named, records]
      exact (FenceTable.importTable_rows sized.records imported).2.2

end RegistryState

/-- The incarnations that a replay starts from. -/
def startingIncarnations : Option Checkpoint → IncarnationSet
  | none => SortedTable.empty
  | some c => SortedTable.ofList (RegistryState.namedIncarnations c.blob)

/-- The incarnations that the files say are fenced. -/
def fencedByFiles (base : Option Checkpoint) (log : List JournalRecord) : IncarnationSet :=
  ((log.filter (History.covered base < ·.sequence)).filterMap (·.fenceRecord)).foldl
    FenceTable.noted (startingIncarnations base)

section Offline

open RegistryState (Footing Healthy Undisturbed)
open History (Saved Lawful)

variable {storeId : StoreId} {base : Option Checkpoint} {log : List JournalRecord}
  {s : RegistryState}

theorem cmdAudit_tracks (ordered : log.Pairwise (·.sequence < ·.sequence))
    (numbered : ∀ r ∈ log, r.sequence ≠ 0) (saved : ∀ c, base = some c → Saved c log)
    (ran : (cmdAudit storeId base log).exec {} = (.ok ⟨⟩, s)) : Tracks s log := by
  obtain ⟨_, s₀, begun, ran⟩ := Prog.bind_ok ran
  cases base with
  | none =>
    obtain ⟨_, s₁, replayed, rebuilt⟩ := Prog.bind_ok ran
    have tracks := History.replay_tracks ordered numbered (Tracks.initialised begun) replayed
    rw [RegistryState.rebuild_ok rebuilt]
    exact tracks.rebuilt
  | some c =>
    obtain ⟨_, s₁, restored, ran⟩ := Prog.bind_ok ran
    obtain ⟨_, s₂, replayed, rebuilt⟩ := Prog.bind_ok ran
    have tracks := History.restored_tracks ordered numbered (saved c rfl) restored replayed
    rw [RegistryState.rebuild_ok rebuilt]
    exact tracks.rebuilt

theorem cmdAudit_incarnations (saved : ∀ c, base = some c → Saved c log)
    (ran : (cmdAudit storeId base log).exec {} = (.ok ⟨⟩, s)) :
    s.fences.fencedIncarnations = fencedByFiles base log := by
  obtain ⟨_, s₀, begun, ran⟩ := Prog.bind_ok ran
  cases base with
  | none =>
    obtain ⟨_, s₁, replayed, rebuilt⟩ := Prog.bind_ok ran
    have replayed := RegistryState.replay_incarnations replayed
    rw [RegistryState.initialise_ok begun] at replayed
    rw [RegistryState.rebuild_ok rebuilt]
    exact replayed
  | some c =>
    obtain ⟨t, before, rest, blob, -, -, tracks⟩ := saved c rfl
    obtain ⟨_, s₁, restored, ran⟩ := Prog.bind_ok ran
    obtain ⟨_, s₂, replayed, rebuilt⟩ := Prog.bind_ok ran
    have replayed := RegistryState.replay_incarnations replayed
    rw [blob] at restored
    rw [RegistryState.deserialize_incarnations tracks.sized restored, ← blob] at replayed
    rw [RegistryState.rebuild_ok rebuilt]
    exact replayed

/-- Some mark is above the token of an open grant. -/
def Overmarked (s : RegistryState) : Prop :=
  ∃ g ∈ s.lineage.grants, g.isOpen = true ∧ ∃ e ∈ g.extents.extents,
    g.fenceToken < s.fences.highWater e

/-- Some open grant is of an incarnation in the set. -/
def Disowned (set : IncarnationSet) (grants : List EpochGrant) : Prop :=
  ∃ g ∈ grants, g.isOpen = true ∧ g.incarnation ≠ 0 ∧ (set.find g.incarnation).isSome = true

theorem undisturbed_iff : Undisturbed s ↔
    ¬ Overmarked s ∧ ¬ Disowned s.fences.fencedIncarnations s.lineage.grants := by
  constructor
  · rintro ⟨owners, marks⟩
    constructor
    · rintro ⟨g, member, active, e, inside, above⟩
      exact absurd above (not_lt.mpr (marks g member active e inside))
    · rintro ⟨g, member, active, set, fenced⟩
      have free := owners g member active
      rw [FenceTable.incarnationFenced, if_neg set, fenced] at free
      cases free
  · rintro ⟨marks, owners⟩
    constructor
    · intro g member active
      by_contra fenced
      rw [Bool.not_eq_false, FenceTable.incarnationFenced] at fenced
      split at fenced
      · cases fenced
      · rename_i set
        exact owners ⟨g, member, active, set, fenced⟩
    · intro g member active e inside
      by_contra above
      exact marks ⟨g, member, active, e, inside, not_le.mp above⟩

/-- The audits of the files and of the live registry agree exactly when both see a mark
above an open grant, or the incarnations fenced in the one and in the other are alike as
far as open grants go. -/
theorem offline_agrees_iff (h : History) (reached : History.Reachable (fun _ _ => True) h)
    (storeId : StoreId) (point : Option Nat) (s : RegistryState)
    (ran : (cmdAudit storeId (point.bind (h.checkpoints[·]?)) h.log).exec {} = (.ok ⟨⟩, s)) :
    ((auditRegistryState s).findings = [] ↔ (auditRegistryState h.live).findings = []) ↔
      Overmarked h.live ∨
        (Disowned (fencedByFiles (point.bind (h.checkpoints[·]?)) h.log) h.live.lineage.grants ↔
          Disowned h.live.fences.fencedIncarnations h.live.lineage.grants) := by
  have kept := reached.lawful
  have saved : ∀ c, point.bind (h.checkpoints[·]?) = some c → Saved c h.log := by
    intro c found
    obtain ⟨i, -, here⟩ := Option.bind_eq_some_iff.mp found
    exact kept.saved c (List.mem_of_getElem? here)
  have tracks := cmdAudit_tracks kept.tracks.ordered kept.tracks.numbered saved ran
  have grants : s.lineage.grants = h.live.lineage.grants :=
    tracks.grants.trans kept.tracks.grants.symm
  have marks : ∀ e, s.fences.highWater e = h.live.fences.highWater e := by
    intro e
    rw [FenceTable.highWater, FenceTable.highWater, FenceTable.find, FenceTable.find,
      tracks.mirrors.marks, kept.tracks.mirrors.marks]
  have higher : Overmarked s ↔ Overmarked h.live := by
    simp only [Overmarked, grants, marks]
  rw [RegistryAudit.passes_iff_empty, RegistryAudit.passes_iff_empty,
    (kept.lawful.healthy tracks).passes_iff, reached.healthy.passes_iff, undisturbed_iff,
    undisturbed_iff, higher, cmdAudit_incarnations saved ran, grants]
  tauto

instance decidableDisowned (set : IncarnationSet) (grants : List EpochGrant) :
    Decidable (Disowned set grants) :=
  inferInstanceAs (Decidable (∃ g ∈ grants, _ ∧ _ ∧ _))

open History (sampleStart sampleConfig sampleDomain sampleAllocation guarded)

/-- A snapshot before the grant that is open, or after it. -/
def auditedEvents (before : Bool) : List Event :=
  let opening : List Event := [.call .allocateIncarnation 2,
    .call (.allocateEpoch (sampleAllocation 100 120 1 1)) 3]
  [.call (.defineDomain (sampleDomain 100 120)) 1] ++
    if before then [.checkpoint] ++ opening else opening ++ [.checkpoint]

/-- The audit of the files after such a run. -/
def auditedRun (before : Bool) : Option (History × Except Status PUnit × RegistryState) :=
  (sampleStart.bind (guarded (fun _ _ => true) · (auditedEvents before))).map fun h =>
    (h, (cmdAudit sampleConfig.storeId (h.checkpoints[0]?) h.log).exec {})

theorem auditedRun_reached {before : Bool} {h : History}
    {result : Except Status PUnit × RegistryState}
    (ran : auditedRun before = some (h, result)) :
    History.Reachable (fun _ _ => True) h ∧ (cmdAudit sampleConfig.storeId
      ((some 0).bind (h.checkpoints[·]?)) h.log).exec {} = result := by
  obtain ⟨h, evaluated, shown⟩ := Option.map_eq_some_iff.mp ran
  cases shown
  exact ⟨History.sample_reachable evaluated, rfl⟩

/-- From a snapshot that is older than the open grant, both audits find nothing. -/
theorem offline_agrees_iff_before : ∃ h s, History.Reachable (fun _ _ => True) h ∧
    (cmdAudit sampleConfig.storeId ((some 0).bind (h.checkpoints[·]?)) h.log).exec {} =
      (.ok ⟨⟩, s) ∧ h.live.lineage.grants.any (·.isOpen) = true ∧
    ((auditRegistryState s).findings = [] ↔ (auditRegistryState h.live).findings = []) := by
  have evaluated : (auditedRun true).map (fun q => (q.2.1, q.1.live.lineage.grants.any (·.isOpen),
      decide (Disowned (fencedByFiles (q.1.checkpoints[0]?) q.1.log) q.1.live.lineage.grants),
      decide (Disowned q.1.live.fences.fencedIncarnations q.1.live.lineage.grants))) =
      some (.ok ⟨⟩, true, false, false) := by
    decide +kernel
  obtain ⟨⟨h, r, s⟩, ran, results⟩ := Option.map_eq_some_iff.mp evaluated
  simp only [Prod.mk.injEq, decide_eq_false_iff_not] at results
  obtain ⟨rfl, active, files, live⟩ := results
  obtain ⟨reached, read⟩ := auditedRun_reached ran
  refine ⟨h, s, reached, read, active,
    (offline_agrees_iff h reached sampleConfig.storeId (some 0) s read).mpr (.inr ?_)⟩
  exact iff_of_false files live

/-- A snapshot brings the owner of an open grant back as fenced, so the files have a finding
that the live registry has not. -/
theorem offline_disagrees : ¬ ∀ h, History.Reachable (fun _ _ => True) h →
    ∀ (storeId : StoreId) (point : Option Nat) s, (cmdAudit storeId (point.bind (h.checkpoints[·]?)) h.log).exec {} =
      (.ok ⟨⟩, s) → ((auditRegistryState s).findings = [] ↔
        (auditRegistryState h.live).findings = []) := by
  intro agree
  have evaluated : (auditedRun false).map (fun q => (q.2.1,
      (auditRegistryState q.2.2).findings.isEmpty,
      (auditRegistryState q.1.live).findings.isEmpty)) = some (.ok ⟨⟩, false, true) := by
    decide +kernel
  obtain ⟨⟨h, r, s⟩, ran, results⟩ := Option.map_eq_some_iff.mp evaluated
  simp only [Prod.mk.injEq, List.isEmpty_iff] at results
  obtain ⟨rfl, found, clean⟩ := results
  obtain ⟨reached, read⟩ := auditedRun_reached ran
  have none := (agree h reached sampleConfig.storeId (some 0) s read).mpr clean
  rw [none] at found
  cases found

end Offline
end SplitBrainFabric
