import SplitBrainFabric.EffectRuns
import SplitBrainFabric.LogReopen
import SplitBrainFabric.Restart

/-! What a restarted registry knows of the tokens in the effect log. An open keeps the last
records of the log and an owner for each extent, and a rebuild reads only the records. -/

namespace SplitBrainFabric
open Words

/-- The records of a log that are too old for the window. -/
def dropped (records : List MutationRecord) : List MutationRecord :=
  records.take (records.length - Limits.maxSnapshotRecords)

theorem mem_dropped_or_retained {records : List MutationRecord} {r : MutationRecord}
    (member : r ∈ records) : r ∈ dropped records ∨ r ∈ FabricStore.retained records := by
  rw [← List.take_append_drop (records.length - Limits.maxSnapshotRecords) records] at member
  exact List.mem_append.mp member

namespace FabricStore

theorem visitAll_recovery {records : List MutationRecord} {s t : Recovery}
    (visited : LogFormat.visitAll Recovery.visit s records = .ok t) :
    t.records = s.records ++ records ∧
      t.owners = records.foldl (fun owners r => recordOwner r owners) s.owners := by
  induction records generalizing s with
  | nil =>
    cases visited
    exact ⟨(List.append_nil _).symm, rfl⟩
  | cons r rest ih =>
    rw [LogFormat.visitAll, Recovery.visit] at visited
    by_cases next : r.storeSequence = s.expected
    · rw [if_neg (not_not.mpr next)] at visited
      obtain ⟨records, owners⟩ := ih visited
      refine ⟨?_, owners⟩
      rw [records, List.append_assoc]
      rfl
    · rw [if_pos next] at visited
      cases visited

/-- Whatever file an open accepts, memory is its window and its owners, and the fence view
is empty. -/
theorem openStore_keeps {header log : Option Bytes} {header' : Bytes} {storeId : StoreId}
    {options : StoreOpenOptions} {fabric : FabricStore} {report : StoreRecoveryReport}
    (opened : openStore header log storeId options = .ok (fabric, header', report)) :
    ∃ records, Boundary.recordsIn (log.getD []) = .ok records ∧
      fabric.records = retained records ∧ fabric.owners = ownersOf records ∧
      fabric.fences = {} := by
  obtain ⟨-, -, -, scan, read, rfl⟩ := openStore_ok opened
  obtain ⟨records, visited, contents⟩ := LogFormat.read_visits read
  obtain ⟨kept, owners⟩ := visitAll_recovery visited
  have whole : scan.state.records = records := kept
  have scanned : fabricFormat.read (fun seen r => .ok (seen ++ [r])) [] (log.getD []) =
      .ok ⟨records, scan.goodEnd, scan.torn⟩ := contents
  refine ⟨records, ?_, ?_, owners, rfl⟩
  · rw [Boundary.recordsIn, scanned]
    rfl
  · simp only [whole]

theorem highWater_of_owners {fabric : FabricStore} {records : List MutationRecord}
    (owners : fabric.owners = ownersOf records) (e : ExtentId) :
    fabric.highWater e = ((LastWriter.latest touches e records).map (·.fenceToken)).getD 0 := by
  rw [highWater, ownerOf, owners, find_ownersOf]
  cases LastWriter.latest touches e records with
  | none => rfl
  | some r => rfl

end FabricStore

namespace RegistryState

/-- The registry has met a token as high in what a rebuild reads. -/
def Recalls (s : RegistryState) (token : FenceToken) : Prop :=
  token ≤ s.tokenCounter ∨ (∃ mark ∈ s.fences.extents.rows, token ≤ mark.highWaterToken) ∨
    (∃ g ∈ s.lineage.grants, token ≤ g.fenceToken) ∨
    (∃ record ∈ s.fences.records, token ≤ record.token) ∨
    ∃ r ∈ s.fabric.records, token ≤ r.fenceToken

theorem le_rebuilt_iff {s : RegistryState} (unfilled : s.fabric.fences = {})
    (token : FenceToken) : token ≤ s.rebuilt.tokenCounter ↔ s.Recalls token := by
  rw [rebuilt, le_foldl_max_iff, unfilled, Recalls]
  simp only [List.mem_append, List.mem_map, or_and_right, exists_or, exists_exists_and_eq_and,
    or_assoc]
  have none : ¬ ∃ mark ∈ (({} : FenceTable).extents.rows), token ≤ mark.highWaterToken :=
    fun ⟨_, member, _⟩ => by cases member
  simp only [none, false_or]

end RegistryState

/-- The counter is above the last writer of every extent exactly when the registry recalls
the tokens of those that fell out of the window, and above every token of the log exactly
when it recalls all that fell out. -/
theorem counter_dominates_iff {header log : Option Bytes} {header' : Bytes} {storeId : StoreId}
    {options : StoreOpenOptions} {fabric : FabricStore} {report : StoreRecoveryReport}
    (opened : FabricStore.openStore header log storeId options = .ok (fabric, header', report))
    {s s' : RegistryState} (effects : s.fabric = fabric)
    (ran : RegistryState.rebuild.exec s = (.ok ⟨⟩, s')) :
    ∃ records, Boundary.recordsIn (log.getD []) = .ok records ∧
      ((∀ e, fabric.highWater e ≤ s'.tokenCounter) ↔
        ∀ e r, LastWriter.latest touches e records = some r → r ∈ dropped records →
          s.Recalls r.fenceToken) ∧
      ((∀ r ∈ records, r.fenceToken ≤ s'.tokenCounter) ↔
        ∀ r ∈ dropped records, s.Recalls r.fenceToken) := by
  obtain ⟨records, known, kept, owners, unfilled⟩ := FabricStore.openStore_keeps opened
  obtain rfl := RegistryState.rebuild_ok ran
  have counts : ∀ token, token ≤ s.rebuilt.tokenCounter ↔ s.Recalls token :=
    RegistryState.le_rebuilt_iff (effects ▸ unfilled)
  have window : ∀ r ∈ FabricStore.retained records, s.Recalls r.fenceToken := by
    intro r member
    exact .inr (.inr (.inr (.inr ⟨r, by rwa [effects, kept], le_rfl⟩)))
  refine ⟨records, known, ?_, ?_⟩
  · constructor
    · intro marks e r last _
      have mark := marks e
      rw [FabricStore.highWater_of_owners owners, last] at mark
      exact (counts r.fenceToken).mp mark
    · intro recalls e
      rw [FabricStore.highWater_of_owners owners]
      cases last : LastWriter.latest touches e records with
      | none => exact UInt64.zero_le
      | some r =>
        apply (counts r.fenceToken).mpr
        rcases mem_dropped_or_retained (LastWriter.latest_mem last).1 with old | recent
        · exact recalls e r last old
        · exact window r recent
  · constructor
    · intro marks r old
      exact (counts r.fenceToken).mp (marks r (List.take_subset _ _ old))
    · intro recalls r member
      apply (counts r.fenceToken).mpr
      rcases mem_dropped_or_retained member with old | recent
      · exact recalls r old
      · exact window r recent

section Samples

/-- A registry whose journal and snapshot are empty, in front of a log. -/
def emptyJournalOver (fabric : FabricStore) : RegistryState where
  config := History.sampleConfig
  storeId := History.sampleConfig.storeId
  boot := { node := History.sampleConfig.node }
  policy := History.sampleConfig.policy
  fabric := fabric

theorem emptyJournal_restores (fabric : FabricStore) :
    (RegistryState.reload History.sampleConfig 0 { node := History.sampleConfig.node } none []).exec
      { fabric := fabric } = (.ok ⟨⟩, emptyJournalOver fabric) := by
  have valid : History.sampleConfig.policy.validate = .ok ⟨⟩ := by decide +kernel
  have begun : (RegistryState.initialise History.sampleConfig 0
      { node := History.sampleConfig.node }).exec { fabric := fabric } =
      (.ok ⟨⟩, emptyJournalOver fabric) := by
    rw [RegistryState.initialise, Prog.exec_refuseIf, if_neg (by decide), Prog.exec_ofExcept_bind,
      valid]
    rfl
  rw [RegistryState.reload, Prog.exec_bind_ok begun]
  rfl

theorem emptyJournal_rebuilds (fabric : FabricStore) :
    RegistryState.rebuild.exec (emptyJournalOver fabric) =
      (.ok ⟨⟩, (emptyJournalOver fabric).rebuilt) := by
  have valid : History.sampleConfig.policy.validate = .ok ⟨⟩ := by decide +kernel
  have fences : ({} : FenceTable).validate = .ok ⟨⟩ := by decide +kernel
  have lineage : ({} : LineageTable).validate = .ok ⟨⟩ := by decide +kernel
  rw [RegistryState.rebuild, Prog.exec_get_bind, Prog.exec_ofExcept_bind]
  simp only [emptyJournalOver, fences, Prog.exec_ofExcept_bind, lineage, Prog.exec_modify_bind,
    Prog.exec_ofExcept]
  rw [valid]

theorem quietExtent_named : (Id.make [121] : ExtentId).isEmpty = false := by decide

/-- A call under an older token than that of the other sample, on an extent of its own. -/
def quietCall : MutationCall :=
  ⟨Id.make [101], 1, Scope.single (Id.make [121]) quietExtent_named, 1, 1, 1, [111], .zero, 2⟩

/-- One call under token five, and after it so many under token one. -/
def Buries (n : Nat) (t : FabricStore) : Prop :=
  ∃ first records stores,
    FabricStore.Admitted (Id.make [115]) sampleHeader (first :: records) stores t ∧
      records.length = n ∧ (∀ r ∈ records, r.fenceToken = 1) ∧ t.highWater (Id.make [120]) = 5

/-- An admission leaves the marks outside its scope as they are. -/
theorem FabricStore.highWater_accepted (call : MutationCall) (s : FabricStore) (e : ExtentId) :
    (s.accepted (call.record s)).highWater e =
      if e ∈ call.scope.extents then call.token else s.highWater e := by
  have mark := find_recordOwner (call.record s) s.owners e
  have same : (s.accepted (call.record s)).ownerOf e =
      if e ∈ call.scope.extents then some (ownerMark (call.record s) e) else s.ownerOf e := mark
  rw [highWater, same]
  by_cases inside : e ∈ call.scope.extents
  · rw [if_pos inside, if_pos inside]
    rfl
  · rw [if_neg inside, if_neg inside]
    rfl

theorem buries_many (n : Nat) (few : n ≤ 2 ^ 20) : ∃ t, Buries n t ∧
    t.log.length ≤ Limits.maxFabricStoreBytes := by
  have size : FabricStore.fileBytes sampleCall = 137 := FabricStore.sampleCall_fileBytes
  have size' : FabricStore.fileBytes quietCall = 137 := by decide +kernel
  have fresh : FabricStore.Admitted (Id.make [115]) sampleHeader [] [emptyFabric.store]
      emptyFabric.store := @FabricStore.Admitted.opened _ _ {} _ _ rfl
  have bare : ExtentMarks.Admits emptyFabric.store.owners sampleCall.token sampleCall.incarnation
      sampleCall.scope.extents := by
    intro e _ state found
    cases found
  have ran := FabricStore.admit_runs rfl rfl rfl (by decide) (by decide) (by decide) bare
    (by rw [size]; decide) (by rw [size]; decide)
  generalize entered : emptyFabric.store.accepted (sampleCall.record emptyFabric.store) = t at ran
  have long : t.log.length = 137 := by
    rw [← entered, FabricStore.accepted, List.length_append, FabricStore.frame_fileBytes, size]
    rfl
  have marked : ∀ e, t.highWater e = if e ∈ sampleCall.scope.extents then 5 else 0 := by
    intro e
    rw [← entered, FabricStore.highWater_accepted]
    rfl
  have start : Buries 0 t := by
    refine ⟨_, [], _, fresh.admitMutation sampleCall .done ran, rfl, List.forall_mem_nil _, ?_⟩
    rw [marked, if_pos (by decide)]
  have step : ∀ k u, Buries k u →
      (quietCall.admitMutation .done).exec u = (.ok (quietCall.record u),
        u.accepted (quietCall.record u)) → Buries (k + 1) (u.accepted (quietCall.record u)) := by
    rintro k u ⟨first, records, stores, run, count, quiet, high⟩ admitted
    refine ⟨first, records ++ [quietCall.record u], _, run.admitMutation quietCall .done admitted,
      ?_, ?_, ?_⟩
    · rw [List.length_append, count]
      rfl
    · intro r member
      rcases List.mem_append.mp member with before | last
      · exact quiet r before
      · rw [List.mem_singleton.mp last]
        rfl
    · rw [FabricStore.highWater_accepted, if_neg (by decide)]
      exact high
  have free : ExtentMarks.Admits t.owners quietCall.token quietCall.incarnation
      quietCall.scope.extents := by
    intro e inside state found
    have apart : e ∉ (sampleCall.record emptyFabric.store).scope.extents := by
      rw [List.mem_singleton.mp inside]
      decide
    have mark := find_recordOwner (sampleCall.record emptyFabric.store) emptyFabric.store.owners e
    rw [if_neg apart] at mark
    rw [← entered] at found
    cases found.symm.trans mark
  have room : t.log.length + n * FabricStore.fileBytes quietCall ≤ Limits.maxFabricStoreBytes := by
    rw [long, size']
    have top : Limits.maxFabricStoreBytes = 536870912 := rfl
    omega
  obtain ⟨u, buried, length, -⟩ := FabricStore.repeat_runs (by rw [← entered]; rfl) rfl rfl
    (by decide) (by decide) (by decide) free (by rw [size']; decide) start step n
    (room.trans (by decide))
  exact ⟨u, buried, length.le.trans room⟩

/-- A log with one record more than the window holds. -/
theorem counter_dominates_iff_buried : ∃ fabric header report log records s',
    FabricStore.openStore (some sampleHeader) (some log) (Id.make [115]) {} =
      .ok (fabric, header, report) ∧
    RegistryState.rebuild.exec (emptyJournalOver fabric) = (.ok ⟨⟩, s') ∧
    Boundary.recordsIn log = .ok records ∧ (dropped records).length = 1 ∧
    ((∀ e, fabric.highWater e ≤ s'.tokenCounter) ↔
      ∀ e r, LastWriter.latest touches e records = some r → r ∈ dropped records →
        (emptyJournalOver fabric).Recalls r.fenceToken) ∧
    ((∀ r ∈ records, r.fenceToken ≤ s'.tokenCounter) ↔
      ∀ r ∈ dropped records, (emptyJournalOver fabric).Recalls r.fenceToken) := by
  obtain ⟨t, ⟨first, records, stores, run, count, -⟩, small⟩ := buries_many 200000 (by decide)
  obtain ⟨fabric, report, opened, -⟩ := run.reopens small {}
  have ran := emptyJournal_rebuilds fabric
  obtain ⟨all, known, marks, tokens⟩ := counter_dominates_iff opened rfl ran
  obtain ⟨recorded, last, -⟩ := run.recorded
  have log := (recorded.reflects _ t last).log
  rw [List.take_length] at log
  have found : Boundary.recordsIn t.log = .ok (first :: records) := by
    rw [log]
    exact Boundary.recordsIn_framesOf recorded.durable
  have same : all = first :: records := Except.ok.inj (known.symm.trans found)
  refine ⟨fabric, _, report, _, all, _, opened, ran, known, ?_, marks, tokens⟩
  rw [same, dropped, List.length_take, List.length_cons, count]
  rfl

/-- Two hundred thousand later records push the highest token out of the window, and the
registry starts to count below it. -/
theorem counter_lags : ¬ ∀ header log storeId options fabric header' report config base journal
    (s s' : RegistryState),
    FabricStore.openStore header log storeId options = .ok (fabric, header', report) →
    (RegistryState.reload config 0 { node := config.node } base journal).exec
      { fabric := fabric } = (.ok ⟨⟩, s) →
    RegistryState.rebuild.exec s = (.ok ⟨⟩, s') → ∀ e, fabric.highWater e ≤ s'.tokenCounter := by
  intro claimed
  obtain ⟨t, ⟨first, records, stores, run, count, quiet, high⟩, small⟩ :=
    buries_many 200000 (by decide)
  obtain ⟨fabric, report, opened, owners, kept⟩ := run.reopens small {}
  have mark : fabric.highWater (Id.make [120]) = 5 := by
    rw [FabricStore.highWater, FabricStore.ownerOf, owners]
    exact high
  have window : fabric.records = records := by
    have one : 200000 + 1 - Limits.maxSnapshotRecords = 1 := by decide
    rw [kept, FabricStore.retained, List.length_cons, count, one]
    rfl
  have low := claimed _ _ _ _ fabric _ report History.sampleConfig none [] _ _ opened
    (emptyJournal_restores fabric) (emptyJournal_rebuilds fabric) (Id.make [120])
  obtain ⟨_, -, -, -, unfilled⟩ := FabricStore.openStore_keeps opened
  rw [mark, RegistryState.le_rebuilt_iff unfilled] at low
  rcases low with counter | ⟨_, member, _⟩ | ⟨_, member, _⟩ | ⟨_, member, _⟩ | ⟨r, member, above⟩
  · have none : (5 : FenceToken) ≤ 0 := counter
    exact absurd none (by decide)
  · cases member
  · cases member
  · cases member
  · have recent : r ∈ records := window ▸ member
    rw [quiet r recent] at above
    exact absurd above (by decide)

end Samples

end SplitBrainFabric
