import SplitBrainFabric.Registry

/-! The registry as one blob. What is read back is checked again, the fenced sets and
the scope table are recomputed, and the counters are raised above everything found. -/

namespace SplitBrainFabric
open Words Decoder

namespace RegistryState

def stateFormatVersion : UInt32 := 1

/-- The extents a fence record stands for, as far as the scope table still knows them. -/
def scopeOf (s : RegistryState) (record : FenceRecord) : Scope :=
  match s.scopes.find record.scope.hex with
  | some entry => entry.scope
  | none => Scope.empty

def body (s : RegistryState) : Bytes :=
  List.flatten [Writer.u32 stateFormatVersion, Writer.text s.storeId.value, Writer.u64 s.clock,
    Writer.u64 s.lastStep, Writer.blob (encodeBootRecord s.boot), Writer.u64 s.incarnationCounter,
    Writer.u64 s.tokenCounter, Writer.u64 s.grantCounter, Writer.u64 s.registrySequence,
    Writer.u64 s.generation, Writer.u64 s.commits, Writer.blob (encodePolicy s.policy),
    Writer.sequence (fun d => Writer.blob (encodeDomain d)) s.domains.rows,
    Writer.sequence (fun e => Writer.blob (encodeExtentState e)) s.fences.extents.rows,
    Writer.sequence (fun r => Writer.blob (encodeFencePayload r (s.scopeOf r))) s.fences.records,
    Writer.sequence (fun g => Writer.blob (encodeGrant g)) s.lineage.grants,
    Writer.sequence (fun b => Writer.blob (encodeBootRecord b)) s.lineage.boots,
    Writer.sequence (fun e => Writer.blob (encodeIdempotency e)) s.idempotency,
    Writer.sequence (fun m => Writer.blob (encodeInterrupt m)) s.interrupts]

def serialize (s : RegistryState) : Bytes := s.body ++ Writer.digest (Digest256.of s.body)

/-- Everything a snapshot carries. -/
structure Image where
  storeId : StoreId
  clock : Step
  lastStep : Step
  boot : BootRecord
  incarnationCounter : BootId
  tokenCounter : FenceToken
  grantCounter : GrantId
  registrySequence : Sequence
  generation : Generation
  commits : UInt64
  policy : ArbiterPolicy
  domains : DomainTable
  extents : List ExtentFenceState
  fenceRecords : List (FenceRecord × Scope)
  grants : List EpochGrant
  boots : List BootRecord
  idempotency : List IdempotencyEntry
  interrupts : List InterruptMark

/-- A domain that is already there is refused before the next one is read. -/
def readDomains : Nat → DomainTable → Reader.Read DomainTable
  | 0, table => pure table
  | n + 1, table => do
    let d ← Reader.nested decodeDomain
    refuseIf ((table.find d.domain).isSome = true) (.make .corrupt .duplicateEntry)
    readDomains n (table.put d)

def readImage : Reader.Read Image := do
  let version ← Reader.u32
  refuseIf (version ≠ stateFormatVersion)
    (.make .unsupported .unsupportedVersion (UInt64.ofNat version.toNat))
  let storeId ← Reader.identifier .corrupt
  let clock ← Reader.u64
  let lastStep ← Reader.u64
  let boot ← Reader.nested decodeBootRecord
  let incarnationCounter ← Reader.u64
  let tokenCounter ← Reader.u64
  let grantCounter ← Reader.u64
  let registrySequence ← Reader.u64
  let generation ← Reader.u64
  let commits ← Reader.u64
  let policy ← Reader.nested decodePolicy
  let domainCount ← Reader.count Limits.maxDomains
  let domains ← readDomains domainCount SortedTable.empty
  let extents ← Reader.sequence Limits.maxIndexedExtents (Reader.nested decodeExtentState)
  let fenceRecords ← Reader.sequence Limits.maxFenceRecords (Reader.nested decodeFencePayload)
  let grants ← Reader.sequence Limits.maxLineageEntries (Reader.nested decodeGrant)
  let boots ← Reader.sequence Limits.maxLineageEntries (Reader.nested decodeBootRecord)
  let idempotency ← Reader.sequence Limits.maxDedupEntries (Reader.nested decodeIdempotency)
  let interrupts ← Reader.sequence Limits.maxInterruptedMarks (Reader.nested decodeInterrupt)
  pure ⟨storeId, clock, lastStep, boot, incarnationCounter, tokenCounter, grantCounter,
    registrySequence, generation, commits, policy, domains, extents, fenceRecords, grants, boots,
    idempotency, interrupts⟩

/-- The counters end above every token, grant and incarnation in sight, those of the
effect boundary included. -/
def rebuilt (s : RegistryState) : RegistryState :=
  { s with
    tokenCounter := (s.fences.extents.rows.map (·.highWaterToken) ++
      s.lineage.grants.map (·.fenceToken) ++ s.fences.records.map (·.token) ++
      s.fabric.fences.extents.rows.map (·.highWaterToken) ++
      s.fabric.records.map (·.fenceToken)).foldl max s.tokenCounter
    grantCounter := (s.lineage.grants.map (·.id) ++ s.fabric.records.map (·.grant)).foldl max
      s.grantCounter
    incarnationCounter := (s.lineage.boots.map (·.incarnation) ++
      s.interrupts.map (·.incarnation)).foldl max s.incarnationCounter }

def rebuild : Prog Status RegistryState PUnit := do
  let s ← get
  Prog.ofExcept s.fences.validate
  Prog.ofExcept s.lineage.validate
  modify rebuilt
  Prog.ofExcept s.policy.validate

/-- The scopes of the domains first, then those of the grants. -/
def knownScopes (domains : DomainTable) (grants : List EpochGrant) : ScopeTable :=
  grants.foldl (fun table g => rememberScope g.extents table)
    (domains.rows.foldl (fun table d => rememberScope d.scope table) SortedTable.empty)

/-- The state a snapshot describes, in a registry with its own configuration. -/
def restored (image : Image) (fences : FenceTable) (lineage : LineageTable) (s : RegistryState) :
    RegistryState :=
  { s with
    storeId := image.storeId
    clock := observePersisted 0 image.clock
    lastStep := image.lastStep
    boot := image.boot
    incarnationCounter := image.incarnationCounter
    tokenCounter := image.tokenCounter
    grantCounter := image.grantCounter
    registrySequence := image.registrySequence
    generation := if image.generation = 0 then 1 else image.generation
    commits := image.commits
    policy := image.policy
    domains := image.domains
    fences := fences
    lineage := lineage
    idempotency := image.idempotency
    interrupts := image.interrupts
    scopes := knownScopes image.domains lineage.grants }

def deserialize (bytes : Bytes) : Prog Status RegistryState PUnit := do
  Prog.refuseIf (bytes.length < 32) (.make .corrupt .truncatedFrame)
  let body := bytes.take (bytes.length - 32)
  Prog.refuseIf (bytes.drop (bytes.length - 32) ≠ (Digest256.of body).bytes)
    (.make .corrupt .integrityMismatch)
  let image ← Prog.ofExcept (Reader.decode readImage body)
  let fences ← Prog.ofExcept
    (FenceTable.importTable image.extents (image.fenceRecords.map Prod.fst))
  let lineage ← Prog.ofExcept (LineageTable.importTable image.grants image.boots)
  modify (restored image fences lineage)
  rebuild
  let s ← get
  -- A fence record whose extents are unknown would make the next snapshot lossy.
  Prog.refuseIf (s.fences.records.any (fun r => (s.scopes.find r.scope.hex).isNone) = true)
    (.make .corrupt .scopeNotRegistered)

/-- `initialise` on a registry that has not been used. -/
def initialise (config : RegistryConfig) (clock : Step) (boot : BootRecord) :
    Prog Status RegistryState PUnit := do
  Prog.refuseIf (config.storeId.isEmpty = true ∨ config.node.isEmpty = true)
    (.make .invalid .emptyValue)
  Prog.ofExcept config.policy.validate
  Prog.refuseIf (config.leaseHorizonSteps = 0 ∨
      Limits.maxLeaseHorizonSteps < config.leaseHorizonSteps)
    (.make .invalid .valueOutOfRange config.leaseHorizonSteps)
  modify fun s => { s with
    config := config
    storeId := config.storeId
    clock := clock
    lastStep := clock
    boot := boot
    policy := config.policy
    registrySequence := 0 }

/-- Every collection is within the bound its reader allows. -/
structure Sized (s : RegistryState) : Prop where
  policy : s.policy.quorum.witnesses.length ≤ Limits.maxWitnessesPerProfile
  domains : s.domains.size ≤ Limits.maxDomains
  extents : s.fences.extents.size ≤ Limits.maxIndexedExtents
  records : s.fences.records.length ≤ Limits.maxFenceRecords
  grants : s.lineage.grants.length ≤ Limits.maxLineageEntries
  boots : s.lineage.boots.length ≤ Limits.maxLineageEntries
  idempotency : s.idempotency.length ≤ Limits.maxDedupEntries
  interrupts : s.interrupts.length ≤ Limits.maxInterruptedMarks

def image (s : RegistryState) : Image where
  storeId := s.storeId
  clock := s.clock
  lastStep := s.lastStep
  boot := s.boot
  incarnationCounter := s.incarnationCounter
  tokenCounter := s.tokenCounter
  grantCounter := s.grantCounter
  registrySequence := s.registrySequence
  generation := s.generation
  commits := s.commits
  policy := s.policy
  domains := s.domains
  extents := s.fences.extents.rows
  fenceRecords := s.fences.records.map fun r => (r, s.scopeOf r)
  grants := s.lineage.grants
  boots := s.lineage.boots
  idempotency := s.idempotency
  interrupts := s.interrupts

section Fits

theorem bootRecord_fits (b : BootRecord) : (encodeBootRecord b).length ≤ Limits.maxSnapshotBytes := by
  have node := b.node.length_le
  simp only [encodeBootRecord, List.flatten_cons, List.flatten_nil, List.length_append,
    Writer.u64_length, Writer.text_length, Writer.boolean_length, List.length_nil,
    Limits.maxSnapshotBytes]
  omega

theorem policy_fits {p : ArbiterPolicy}
    (bounded : p.quorum.witnesses.length ≤ Limits.maxWitnessesPerProfile) :
    (encodePolicy p).length ≤ Limits.maxSnapshotBytes := by
  have name := p.policy.length_le
  have quorum := QuorumProfile.encode_length bounded
  simp only [encodePolicy, List.flatten_cons, List.flatten_nil, List.length_append,
    Writer.u64_length, Writer.text_length, Writer.boolean_length, Writer.blob_length,
    List.length_nil, Limits.maxSnapshotBytes]
  omega

theorem domain_fits (d : DomainDefinition) :
    (encodeDomain d).length ≤ Limits.maxSnapshotBytes := by
  have name := d.domain.length_le
  have node := d.node.length_le
  have scope := d.scope.encode_length
  have policy := d.policy.length_le
  simp only [encodeDomain, List.flatten_cons, List.flatten_nil, List.length_append,
    Writer.text_length, Writer.boolean_length, Writer.blob_length, List.length_nil,
    Limits.maxSnapshotBytes]
  omega

theorem extentState_fits (e : ExtentFenceState) :
    (encodeExtentState e).length ≤ Limits.maxSnapshotBytes := by
  have name := e.extent.length_le
  simp only [encodeExtentState, List.flatten_cons, List.flatten_nil, List.length_append,
    Writer.u64_length, Writer.text_length, List.length_nil, Limits.maxSnapshotBytes]
  omega

theorem fencePayload_fits (r : FenceRecord) (scope : Scope) :
    (encodeFencePayload r scope).length ≤ Limits.maxSnapshotBytes := by
  have name := r.domain.length_le
  have extents := scope.encode_length
  simp only [encodeFencePayload, List.flatten_cons, List.flatten_nil, List.length_append,
    Writer.u64_length, Writer.text_length, Writer.digest_length, Writer.blob_length,
    Writer.reason_length, List.length_nil, Limits.maxSnapshotBytes]
  omega

theorem grant_fits (g : EpochGrant) : (encodeGrant g).length ≤ Limits.maxSnapshotBytes := by
  have name := g.domain.length_le
  have extents := g.extents.encode_length
  simp only [encodeGrant, List.flatten_cons, List.flatten_nil, List.length_append,
    Writer.u64_length, Writer.text_length, Writer.digest_length, Writer.blob_length,
    Writer.reason_length, Writer.u16_length, List.length_nil, Limits.maxSnapshotBytes]
  omega

theorem idempotency_fits (e : IdempotencyEntry) :
    (encodeIdempotency e).length ≤ Limits.maxSnapshotBytes := by
  simp only [encodeIdempotency, List.flatten_cons, List.flatten_nil, List.length_append,
    Writer.u64_length, List.length_nil, Limits.maxSnapshotBytes]
  omega

theorem interrupt_fits (m : InterruptMark) :
    (encodeInterrupt m).length ≤ Limits.maxSnapshotBytes := by
  have name := m.domain.length_le
  simp only [encodeInterrupt, List.flatten_cons, List.flatten_nil, List.length_append,
    Writer.u64_length, Writer.text_length, Writer.reason_length, List.length_nil,
    Limits.maxSnapshotBytes]
  omega

end Fits

/-- A counted run of blobs. -/
theorem agrees_blobs {α : Type} {item : Reader.Read α} {encode : α → Bytes} {xs : List α}
    {bound : Nat} (within : xs.length ≤ bound) (small : bound < 2 ^ 32)
    (fits : ∀ x, (encode x).length ≤ Limits.maxSnapshotBytes)
    (agrees : ∀ x, Agrees item (encode x) x) :
    Agrees (Reader.sequence bound (Reader.nested item))
      (Writer.sequence (fun x => Writer.blob (encode x)) xs) xs :=
  agrees_sequence within small (fun _ _ => blob_ne_nil _)
    fun x _ => agrees_nested (fits x) (agrees x)

/-- Rows read in order rebuild the table they came from. -/
theorem agrees_readDomains (table : DomainTable) : ∀ (before : DomainTable)
    (rest : List DomainDefinition), before.rows ++ rest = table.rows →
    Agrees (readDomains rest.length before) (rest.flatMap fun d => Writer.blob (encodeDomain d))
      table := by
  intro before rest
  induction rest generalizing before with
  | nil =>
    intro parts
    rw [List.append_nil] at parts
    rw [SortedTable.ext parts]
    exact Agrees.pure table
  | cons d rest ih =>
    intro parts
    have above : ∀ x ∈ before.rows, x.domain < d.domain := by
      have sorted := table.sorted
      rw [← parts, List.pairwise_append] at sorted
      exact fun x member => sorted.2.2 x member d List.mem_cons_self
    rw [List.flatMap_cons]
    refine (agrees_nested (domain_fits d) (agrees_domain d)).bind (.refuseIf fun _ => ih _ ?_)
    rw [SortedTable.rows_put_last above, List.append_assoc]
    exact parts

theorem agrees_domains {s : RegistryState} (sized : s.Sized) {β : Type}
    {f : DomainTable → Reader.Read β} {image : Bytes} {b : β}
    (rest : Agrees (f s.domains) image b) :
    Agrees (Reader.count Limits.maxDomains >>= fun n => readDomains n SortedTable.empty >>= f)
      (Writer.sequence (fun d => Writer.blob (encodeDomain d)) s.domains.rows ++ image) b := by
  have within : s.domains.rows.length ≤ Limits.maxDomains := sized.domains
  have enough : s.domains.rows.length ≤
      (s.domains.rows.flatMap fun d => Writer.blob (encodeDomain d)).length :=
    length_le_flatMap fun _ _ => blob_ne_nil _
  have domains := agrees_readDomains s.domains SortedTable.empty s.domains.rows rfl
  intro n tail a c ran
  rw [Decoder.run_bind, Writer.sequence, List.append_assoc, List.append_assoc, count_run n
    within (by decide) (by rw [List.length_append]; omega)] at ran
  obtain ⟨rfl, rfl⟩ := (domains.bind rest) (n + 4) tail a c (by rwa [List.append_assoc])
  refine ⟨rfl, ?_⟩
  simp only [Writer.sequence, List.length_append, Writer.u32_length, Nat.add_assoc]

theorem agrees_fenceRecords {s : RegistryState} (sized : s.Sized) :
    Agrees (Reader.sequence Limits.maxFenceRecords (Reader.nested decodeFencePayload))
      (Writer.sequence (fun r => Writer.blob (encodeFencePayload r (s.scopeOf r)))
        s.fences.records) (s.fences.records.map fun r => (r, s.scopeOf r)) := by
  have written : Writer.sequence (fun r => Writer.blob (encodeFencePayload r (s.scopeOf r)))
      s.fences.records = Writer.sequence (fun p => Writer.blob (encodeFencePayload p.1 p.2))
        (s.fences.records.map fun r => (r, s.scopeOf r)) := by
    simp only [Writer.sequence, List.length_map, List.flatMap_map]
  rw [written]
  refine agrees_blobs (by rw [List.length_map]; exact sized.records) (by decide)
    (fun p => fencePayload_fits p.1 p.2) (fun p => agrees_fencePayload p.1 p.2)

theorem agrees_image {s : RegistryState} (sized : s.Sized) : Agrees readImage s.body s.image := by
  refine .field (reads_u32 _).agrees <| .refuseIf fun _ => .field (agrees_identifier _ _) <|
    .field (reads_u64 _).agrees <| .field (reads_u64 _).agrees <|
    .field (agrees_nested (bootRecord_fits _) (agrees_bootRecord _)) <|
    .field (reads_u64 _).agrees <| .field (reads_u64 _).agrees <| .field (reads_u64 _).agrees <|
    .field (reads_u64 _).agrees <| .field (reads_u64 _).agrees <| .field (reads_u64 _).agrees <|
    .field (agrees_nested (policy_fits sized.policy) (agrees_policy sized.policy)) <| ?_
  refine agrees_domains sized ?_
  exact .field (agrees_blobs sized.extents (by decide) extentState_fits agrees_extentState) <|
    .field (agrees_fenceRecords sized) <|
    .field (agrees_blobs sized.grants (by decide) grant_fits agrees_grant) <|
    .field (agrees_blobs sized.boots (by decide) bootRecord_fits agrees_bootRecord) <|
    .field (agrees_blobs sized.idempotency (by decide) idempotency_fits agrees_idempotency) <|
    .field (agrees_blobs sized.interrupts (by decide) interrupt_fits agrees_interrupt) <|
    Agrees.pure s.image

theorem rebuild_cases {s s' : RegistryState} {r : Except Status PUnit}
    (ran : rebuild.exec s = (r, s')) :
    (s' = s ∧ ∃ st, r = .error st) ∨ s' = s.rebuilt := by
  rw [rebuild, Prog.exec_get_bind, Prog.exec_ofExcept_bind] at ran
  cases fences : s.fences.validate with
  | error st => rw [fences] at ran; cases ran; exact .inl ⟨rfl, st, rfl⟩
  | ok u =>
    rw [fences] at ran
    simp only [Prog.exec_ofExcept_bind] at ran
    cases lineage : s.lineage.validate with
    | error st => rw [lineage] at ran; cases ran; exact .inl ⟨rfl, st, rfl⟩
    | ok u =>
      rw [lineage] at ran
      simp only [Prog.exec_modify_bind, Prog.exec_ofExcept] at ran
      cases ran
      exact .inr rfl

theorem rebuild_ok {s s' : RegistryState} {u : PUnit} (ran : rebuild.exec s = (.ok u, s')) :
    s' = s.rebuilt := by
  rcases rebuild_cases ran with ⟨-, st, failed⟩ | same
  · cases failed
  · exact same

/-- Bytes that are refused change nothing. -/
theorem deserialize_runs {bytes : Bytes} {s s' : RegistryState} {r : Except Status PUnit}
    (ran : (deserialize bytes).exec s = (r, s')) :
    (s' = s ∧ ∃ st, r = .error st) ∨ ∃ image fences lineage,
      Reader.decode readImage (bytes.take (bytes.length - 32)) = .ok image ∧
      FenceTable.importTable image.extents (image.fenceRecords.map Prod.fst) = .ok fences ∧
      LineageTable.importTable image.grants image.boots = .ok lineage ∧
      ((s' = restored image fences lineage s ∧ ∃ st, r = .error st) ∨
        s' = (restored image fences lineage s).rebuilt) := by
  rw [deserialize, Prog.exec_refuseIf] at ran
  split at ran
  · cases ran; exact .inl ⟨rfl, _, rfl⟩
  simp only [Prog.exec_refuseIf] at ran
  split at ran
  · cases ran; exact .inl ⟨rfl, _, rfl⟩
  rw [Prog.exec_ofExcept_bind] at ran
  cases decoded : Reader.decode readImage (bytes.take (bytes.length - 32)) with
  | error st => rw [decoded] at ran; cases ran; exact .inl ⟨rfl, st, rfl⟩
  | ok image =>
    rw [decoded] at ran
    simp only [Prog.exec_ofExcept_bind] at ran
    cases imported : FenceTable.importTable image.extents (image.fenceRecords.map Prod.fst) with
    | error st => rw [imported] at ran; cases ran; exact .inl ⟨rfl, st, rfl⟩
    | ok fences =>
      rw [imported] at ran
      simp only at ran
      cases checked : LineageTable.importTable image.grants image.boots with
      | error st => rw [checked] at ran; cases ran; exact .inl ⟨rfl, st, rfl⟩
      | ok lineage =>
        rw [checked] at ran
        simp only [Prog.exec_bind, Prog.exec_modify] at ran
        refine .inr ⟨image, fences, lineage, rfl, imported, checked, ?_⟩
        rcases rebuildRan : rebuild.exec (restored image fences lineage s) with ⟨result, s₁⟩
        rw [rebuildRan] at ran
        rcases rebuild_cases rebuildRan with ⟨rfl, st, rfl⟩ | rfl
        · cases ran; exact .inl ⟨rfl, st, rfl⟩
        · right
          cases result with
          | error st => cases ran; rfl
          | ok u =>
            simp only [Prog.exec_get, Prog.refuseIf, Prog.exec_ite, Prog.exec_throw,
              Prog.exec_pure] at ran
            split at ran <;> · cases ran; rfl

theorem deserialize_ok {bytes : Bytes} {s s' : RegistryState}
    (ran : (deserialize bytes).exec s = (.ok ⟨⟩, s')) : ∃ image fences lineage,
      Reader.decode readImage (bytes.take (bytes.length - 32)) = .ok image ∧
      s' = (restored image fences lineage s).rebuilt := by
  rcases deserialize_runs ran with
    ⟨-, st, failed⟩ | ⟨image, fences, lineage, decoded, -, -, ⟨-, st, failed⟩ | same⟩
  · cases failed
  · cases failed
  · exact ⟨image, fences, lineage, decoded, same⟩

theorem serialize_body (s : RegistryState) :
    s.serialize.take (s.serialize.length - 32) = s.body := by
  rw [serialize, List.length_append, Writer.digest_length, Nat.add_sub_cancel]
  exact List.take_left

/-- What a snapshot can bring back: nothing, or exactly the state it was taken of. -/
theorem deserialize_cases {s t t' : RegistryState} {r : Except Status PUnit} (sized : s.Sized)
    (ran : (deserialize s.serialize).exec t = (r, t')) :
    (t' = t ∧ ∃ st, r = .error st) ∨ ∃ fences lineage,
      FenceTable.importTable s.fences.extents.rows s.fences.records = .ok fences ∧
      lineage = ⟨s.lineage.grants, s.lineage.boots, 1⟩ ∧
      ((t' = restored s.image fences lineage t ∧ ∃ st, r = .error st) ∨
        t' = (restored s.image fences lineage t).rebuilt) := by
  rcases deserialize_runs ran with
    unread | ⟨image, fences, lineage, decoded, imported, checked, ended⟩
  · exact .inl unread
  · rw [serialize_body] at decoded
    obtain rfl := (agrees_image sized).whole decoded
    have records : s.image.fenceRecords.map Prod.fst = s.fences.records := by
      simp only [RegistryState.image, List.map_map]
      exact List.map_id s.fences.records
    rw [records] at imported
    exact .inr ⟨fences, lineage, imported, LineageTable.importTable_ok checked, ended⟩

theorem le_foldl_max_iff {l : List UInt64} {start x : UInt64} :
    x ≤ l.foldl max start ↔ x ≤ start ∨ ∃ y ∈ l, x ≤ y := by
  induction l generalizing start with
  | nil => simp
  | cons y l ih => rw [List.foldl_cons, ih, le_max_iff, or_assoc, List.exists_mem_cons_iff]

theorem le_foldl_max (l : List UInt64) (start : UInt64) :
    start ≤ l.foldl max start ∧ ∀ x ∈ l, x ≤ l.foldl max start :=
  ⟨le_foldl_max_iff.mpr (.inl le_rfl), fun x member => le_foldl_max_iff.mpr (.inr ⟨x, member, le_rfl⟩)⟩

end RegistryState
end SplitBrainFabric
