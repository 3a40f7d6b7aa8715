import SplitBrainFabric.FabricStore
import SplitBrainFabric.Records

/-! The registry state and the one path by which it changes: a record is decoded and
enacted, and live operations go through the same path as recovery. -/

namespace SplitBrainFabric
open Words

structure RegistryConfig where
  storeId : StoreId := Id.empty
  node : NodeId := Id.empty
  policy : ArbiterPolicy := {}
  leaseHorizonSteps : Step := 1000
  checkpointEveryRecords : UInt64 := 512
  maxSessions : UInt32 := 256
  deriving DecidableEq

/-- Extent sets by the text of their digest. -/
structure ScopeEntry where
  key : Bytes
  scope : Scope
  deriving DecidableEq

abbrev ScopeTable := SortedTable ScopeEntry.key

/-- The table is bounded; the entry that makes room is the first one. -/
def rememberScope (scope : Scope) (table : ScopeTable) : ScopeTable :=
  if scope.isEmpty then table
  else
    let key := scope.digest.hex
    let room := if Limits.maxIndexedExtents ≤ table.size ∧ (table.rows.head?.map (·.key)) ≠ some key
      then table.dropFirst else table
    room.emplace ⟨key, scope⟩

abbrev DomainTable := SortedTable DomainDefinition.domain

structure RegistryState where
  config : RegistryConfig := {}
  storeId : StoreId := Id.empty
  clock : Step := 0
  lastStep : Step := 0
  boot : BootRecord := {}
  registrySequence : Sequence := 0
  generation : Generation := 1
  fences : FenceTable := {}
  lineage : LineageTable := {}
  fabric : FabricStore := {}
  domains : DomainTable := SortedTable.empty
  policy : ArbiterPolicy := {}
  idempotency : List IdempotencyEntry := []
  interrupts : List InterruptMark := []
  scopes : ScopeTable := SortedTable.empty
  tokenCounter : FenceToken := 0
  grantCounter : GrantId := 0
  incarnationCounter : BootId := 0
  commits : UInt64 := 0
  idempotencyHits : UInt64 := 0
  restartFences : UInt64 := 0

/-- What a record says, once its payload is read. -/
inductive Entry where
  | silent
  | bootBegin (boot : BootRecord)
  | bootEnd (boot : BootRecord)
  | policyDefine (policy : ArbiterPolicy)
  | domainDefine (definition : DomainDefinition)
  | grantOpen (grant : EpochGrant)
  | grantClose (grant : EpochGrant)
  | fence (record : FenceRecord) (scope : Scope)
  | extentAdopt (record : FenceRecord) (scope : Scope)
  | commitRecord
  | incarnationAllocate (value : UInt64)
  | interruptMark (mark : InterruptMark)

/-- Entries that leave grants and boots alone. -/
def Entry.avoidsLineage : Entry → Bool
  | .bootBegin _ | .bootEnd _ | .grantOpen _ | .grantClose _ => false
  | _ => true

/-- Entries that leave the marks and the fenced sets alone. -/
def Entry.avoidsFences : Entry → Bool
  | .fence _ _ | .extentAdopt _ _ => false
  | _ => true

/-- Entries that leave the registered domains alone. -/
def Entry.avoidsDomains : Entry → Bool
  | .domainDefine _ => false
  | _ => true

def JournalRecord.entry (r : JournalRecord) : Except Status Entry :=
  match r.kind with
  | .storeHeader | .storeIdAssign | .stepAdvance => .ok .silent
  | .bootBegin => (Reader.decode decodeBootRecord r.payload).map .bootBegin
  | .bootEnd => (Reader.decode decodeBootRecord r.payload).map .bootEnd
  | .policyDefine => (Reader.decode decodePolicy r.payload).map .policyDefine
  | .domainDefine => (Reader.decode decodeDomain r.payload).map .domainDefine
  | .grantOpen => (Reader.decode decodeGrant r.payload).map .grantOpen
  | .grantClose => (Reader.decode decodeGrant r.payload).map .grantClose
  | .fence => (Reader.decode decodeFencePayload r.payload).map fun p => .fence p.1 p.2
  | .extentAdopt => (Reader.decode decodeFencePayload r.payload).map fun p => .extentAdopt p.1 p.2
  | .commitRecord => .ok .commitRecord
  | .incarnationAllocate => (Reader.decode Reader.u64 r.payload).map .incarnationAllocate
  | .interruptMark => (Reader.decode decodeInterrupt r.payload).map .interruptMark

namespace RegistryState

def onLineage (m : Prog Status LineageTable PUnit) : Prog Status RegistryState PUnit :=
  Prog.zoom RegistryState.lineage (fun l s => { s with lineage := l }) m

def onFences (m : Prog Status FenceTable PUnit) : Prog Status RegistryState PUnit :=
  Prog.zoom RegistryState.fences (fun f s => { s with fences := f }) m

/-- A table that already holds the entry is no failure of a replayed record. -/
def tolerate {σ : Type} (m : Prog Status σ PUnit) : Prog Status σ PUnit :=
  tryCatch m fun st => if st.outcome = .alreadyExists then pure ⟨⟩ else throw st

def raiseTokenCounter (token : FenceToken) (s : RegistryState) : RegistryState :=
  { s with tokenCounter := max s.tokenCounter token }

def raiseGrantCounter (id : GrantId) (s : RegistryState) : RegistryState :=
  { s with grantCounter := max s.grantCounter id }

def raiseIncarnationCounter (i : IncarnationId) (s : RegistryState) : RegistryState :=
  { s with incarnationCounter := max s.incarnationCounter i }

def remember (scope : Scope) (s : RegistryState) : RegistryState :=
  { s with scopes := rememberScope scope s.scopes }

/-- The definition is the one already registered. -/
def sameDefinition (a b : DomainDefinition) : Bool :=
  decide (a.scope = b.scope) && decide (a.node = b.node) && decide (a.policy = b.policy) &&
    a.exclusive == b.exclusive

def enactDomain (d : DomainDefinition) : Prog Status RegistryState PUnit := do
  let s ← get
  match s.domains.find d.domain with
  | some known =>
    if sameDefinition known d then pure ⟨⟩ else throw (.make .corrupt .duplicateEntry)
  | none => do
    Prog.refuseIf (Limits.maxDomains ≤ s.domains.size)
      (.make .exhausted .boundedTableFull (UInt64.ofNat s.domains.size))
    modify fun s => { s with domains := s.domains.put d }
    modify (remember d.scope)

def enact : Entry → Prog Status RegistryState PUnit
  | .silent => pure ⟨⟩
  | .bootBegin boot => do
    modify fun s => raiseIncarnationCounter boot.incarnation { s with boot := boot }
    tolerate (onLineage (LineageTable.beginBoot boot))
  | .bootEnd boot => tolerate (onLineage (LineageTable.endBoot boot.boot boot.endedAt boot.cleanStop))
  | .policyDefine policy => modify fun s => { s with policy := policy }
  | .domainDefine definition => enactDomain definition
  | .grantOpen grant => do
    modify fun s => raiseTokenCounter grant.fenceToken (raiseGrantCounter grant.id s)
    onLineage (LineageTable.openGrant grant)
  | .grantClose grant =>
    tolerate (onLineage
      (LineageTable.closeGrant grant.id grant.state grant.closeReason grant.closedAt))
  | .fence record scope => do
    modify fun s => remember scope (raiseTokenCounter record.token s)
    tolerate (onFences (FenceTable.apply record scope))
  | .extentAdopt record scope => do
    modify fun s => remember scope (raiseTokenCounter record.token s)
    onFences (FenceTable.adopt scope record.token record.fencedEpoch record.fencedIncarnation
      record.supersededGrant record.issuedAt)
  | .commitRecord => modify fun s => { s with commits := s.commits + 1 }
  | .incarnationAllocate value => do
    let s ← get
    Prog.refuseIf (value ≤ s.incarnationCounter) (.make .corrupt .sequenceRegression value)
    modify fun s => { s with incarnationCounter := value }
  | .interruptMark mark =>
    modify fun s => { s with
      interrupts := (if Limits.maxInterruptedMarks ≤ s.interrupts.length then s.interrupts.tail
        else s.interrupts) ++ [mark] }

/-- `StepClock::observe_persisted`, whose refusal at the last step is ignored. -/
def observePersisted (clock value : Step) : Step :=
  if value ≤ clock ∨ value = maxWord then clock else value

/-- The bookkeeping every record brings before it is read. -/
def observe (r : JournalRecord) (s : RegistryState) : RegistryState :=
  { s with
    registrySequence := r.sequence
    lastStep := max s.lastStep r.step
    clock := observePersisted s.clock r.step }

def apply (r : JournalRecord) : Prog Status RegistryState PUnit := do
  Prog.refuseIf (r.sequence = 0) (.make .corrupt .valueOutOfRange)
  let s ← get
  Prog.refuseIf (s.registrySequence + 1 < r.sequence) (.make .corrupt .sequenceRegression r.sequence)
  modify (observe r)
  let entry ← Prog.ofExcept r.entry
  enact entry

theorem tolerate_exec {σ : Type} (m : Prog Status σ PUnit) (s : σ) :
    (tolerate m).exec s = match m.exec s with
      | (.ok _, s') => (.ok ⟨⟩, s')
      | (.error st, s') => if st.outcome = .alreadyExists then (.ok ⟨⟩, s') else (.error st, s') := by
  rw [tolerate, Prog.exec_tryCatch]
  rcases m.exec s with ⟨r, s'⟩
  cases r with
  | ok u => rfl
  | error st => exact Prog.exec_ite _ _ _ _

/-- Tolerance changes the answer, never the state. -/
theorem tolerate_state {σ : Type} (m : Prog Status σ PUnit) (s : σ) :
    ((tolerate m).exec s).2 = (m.exec s).2 := by
  rw [tolerate_exec]
  rcases m.exec s with ⟨r, s'⟩
  cases r with
  | ok u => rfl
  | error st => simp only; split <;> rfl

theorem onLineage_exec (m : Prog Status LineageTable PUnit) (s : RegistryState) :
    (onLineage m).exec s =
      ((m.exec s.lineage).1, { s with lineage := (m.exec s.lineage).2 }) := rfl

theorem onFences_exec (m : Prog Status FenceTable PUnit) (s : RegistryState) :
    (onFences m).exec s = ((m.exec s.fences).1, { s with fences := (m.exec s.fences).2 }) := rfl

section Enact

variable {s s' : RegistryState} {r : Except Status PUnit}

theorem enact_bootBegin {boot : BootRecord} (ran : (enact (.bootBegin boot)).exec s = (r, s')) :
    s' = { s with
      boot := boot, lineage := ((LineageTable.beginBoot boot).exec s.lineage).2
      incarnationCounter := max s.incarnationCounter boot.incarnation } := by
  rw [enact, Prog.exec_modify_bind] at ran
  have state := congrArg Prod.snd ran
  rw [tolerate_state, onLineage_exec] at state
  exact state.symm

theorem enact_bootEnd {boot : BootRecord} (ran : (enact (.bootEnd boot)).exec s = (r, s')) :
    s' = { s with
      lineage := ((LineageTable.endBoot boot.boot boot.endedAt boot.cleanStop).exec s.lineage).2 } := by
  have state := congrArg Prod.snd ran
  rw [enact, tolerate_state, onLineage_exec] at state
  exact state.symm

theorem enact_domainDefine {d : DomainDefinition}
    (ran : (enact (.domainDefine d)).exec s = (r, s')) :
    s' = s ∨ s.domains.find d.domain = none ∧ s.domains.size < Limits.maxDomains ∧
      s' = { s with
        domains := s.domains.put d, scopes := rememberScope d.scope s.scopes } := by
  rw [enact, enactDomain, Prog.exec_get_bind] at ran
  cases known : s.domains.find d.domain with
  | some old =>
    rw [known] at ran
    simp only [Prog.exec_ite, Prog.exec_pure, Prog.exec_throw] at ran
    split at ran <;> · cases ran; exact .inl rfl
  | none =>
    rw [known] at ran
    simp only [Prog.exec_refuseIf] at ran
    split at ran
    · cases ran; exact .inl rfl
    · rename_i room
      cases ran
      exact .inr ⟨rfl, by omega, rfl⟩

/-- The counters move even when the grant is refused. -/
theorem enact_grantOpen {g : EpochGrant} (bounded : s.lineage.Bounded)
    (ran : (enact (.grantOpen g)).exec s = (r, s')) :
    let raised := raiseTokenCounter g.fenceToken (raiseGrantCounter g.id s)
    r = .ok ⟨⟩ ∧ s.lineage.Openable g ∧ s' = { raised with lineage := s.lineage.opened g } ∨
      (∃ st, r = .error st) ∧ s' = raised := by
  rw [enact, Prog.exec_modify_bind, onLineage_exec] at ran
  rcases opened : (LineageTable.openGrant g).exec s.lineage with ⟨result, lineage⟩
  rw [show (raiseTokenCounter g.fenceToken (raiseGrantCounter g.id s)).lineage = s.lineage from rfl,
    opened] at ran
  cases result with
  | ok u =>
    obtain ⟨ready, rfl⟩ := LineageTable.openGrant_ok bounded opened
    cases ran
    exact .inl ⟨rfl, ready, rfl⟩
  | error st =>
    obtain rfl := LineageTable.openGrant_failsClean bounded st lineage trivial opened
    cases ran
    exact .inr ⟨⟨st, rfl⟩, rfl⟩

theorem enact_grantClose {g : EpochGrant} (ran : (enact (.grantClose g)).exec s = (r, s')) :
    r = .ok ⟨⟩ ∧ g.state ≠ .open ∧ (∃ old, s.lineage.find g.id = some old ∧ old.state = .open) ∧
        s' = { s with lineage := s.lineage.closed g.id g.state g.closeReason g.closedAt } ∨
      s' = s ∧ ∀ old, s.lineage.find g.id = some old → old.state = .open → g.state = .open := by
  rw [enact, tolerate_exec, onLineage_exec] at ran
  rcases closed : (LineageTable.closeGrant g.id g.state g.closeReason g.closedAt).exec s.lineage
    with ⟨result, lineage⟩
  rw [closed] at ran
  cases result with
  | ok u =>
    obtain ⟨ends, found, rfl⟩ := LineageTable.closeGrant_ok closed
    cases ran
    exact .inl ⟨rfl, ends, found, rfl⟩
  | error st =>
    obtain rfl := LineageTable.closeGrant_failsClean st lineage trivial closed
    refine .inr ⟨?_, ?_⟩
    · simp only at ran
      split at ran <;> · cases ran; rfl
    · intro old found active
      by_contra ends
      rw [LineageTable.closeGrant_exec ends found active] at closed
      cases closed

theorem enact_fence {record : FenceRecord} {scope : Scope}
    (ran : (enact (.fence record scope)).exec s = (r, s')) :
    let noted := remember scope (raiseTokenCounter record.token s)
    r = .ok ⟨⟩ ∧ s.fences.Fenceable record scope ∧
        s' = { noted with fences := s.fences.applied record scope } ∨
      ∃ st fences, r = .error st ∧ (FenceTable.apply record scope).exec s.fences = (.error st, fences) ∧
        s' = { noted with fences := fences } := by
  rw [enact, Prog.exec_modify_bind, tolerate_exec, onFences_exec] at ran
  rcases applied : (FenceTable.apply record scope).exec s.fences with ⟨result, fences⟩
  rw [show (remember scope (raiseTokenCounter record.token s)).fences = s.fences from rfl,
    applied] at ran
  cases result with
  | ok u =>
    obtain ⟨ready, rfl⟩ := FenceTable.apply_ok applied
    cases ran
    exact .inl ⟨rfl, ready, rfl⟩
  | error st =>
    simp only [if_neg (FenceTable.apply_outcome applied)] at ran
    cases ran
    exact .inr ⟨st, fences, rfl, rfl, rfl⟩

theorem enact_extentAdopt {record : FenceRecord} {scope : Scope}
    (ran : (enact (.extentAdopt record scope)).exec s = (r, s')) :
    let noted := remember scope (raiseTokenCounter record.token s)
    r = .ok ⟨⟩ ∧ s.fences.Adoptable scope record.token record.fencedIncarnation ∧
        s' = { noted with
          fences := (s.fences.adopted scope record.token record.fencedEpoch
            record.fencedIncarnation record.supersededGrant record.issuedAt) } ∨
      (∃ st, r = .error st) ∧ s' = noted := by
  rw [enact, Prog.exec_modify_bind, onFences_exec] at ran
  rcases adopted : (FenceTable.adopt scope record.token record.fencedEpoch record.fencedIncarnation
    record.supersededGrant record.issuedAt).exec s.fences with ⟨result, fences⟩
  rw [show (remember scope (raiseTokenCounter record.token s)).fences = s.fences from rfl,
    adopted] at ran
  cases result with
  | ok u =>
    obtain ⟨ready, rfl⟩ := FenceTable.adopt_ok adopted
    cases ran
    exact .inl ⟨rfl, ready, rfl⟩
  | error st =>
    obtain rfl := FenceTable.adopt_failsClean st fences trivial adopted
    cases ran
    exact .inr ⟨⟨st, rfl⟩, rfl⟩

theorem enact_incarnationAllocate {value : UInt64}
    (ran : (enact (.incarnationAllocate value)).exec s = (r, s')) :
    r = .ok ⟨⟩ ∧ s.incarnationCounter < value ∧ s' = { s with incarnationCounter := value } ∨
      (∃ st, r = .error st) ∧ value ≤ s.incarnationCounter ∧ s' = s := by
  rw [enact, Prog.exec_get_bind, Prog.exec_refuseIf] at ran
  split at ran
  · rename_i low
    cases ran
    exact .inr ⟨⟨_, rfl⟩, low, rfl⟩
  · rename_i high
    cases ran
    exact .inl ⟨rfl, not_le.mp high, rfl⟩

theorem enact_grantOpen_exec {g : EpochGrant} (bounded : s.lineage.Bounded)
    (ready : s.lineage.Openable g) : (enact (.grantOpen g)).exec s = (.ok ⟨⟩,
      { raiseTokenCounter g.fenceToken (raiseGrantCounter g.id s) with
        lineage := s.lineage.opened g }) := by
  have opened := LineageTable.openGrant_exec bounded ready
  simp only [enact, Prog.exec_modify_bind, onLineage_exec, raiseTokenCounter, raiseGrantCounter,
    opened]

theorem enact_fence_exec {record : FenceRecord} {scope : Scope}
    (ready : s.fences.Fenceable record scope) : (enact (.fence record scope)).exec s = (.ok ⟨⟩,
      { remember scope (raiseTokenCounter record.token s) with
        fences := s.fences.applied record scope }) := by
  have applied := FenceTable.apply_exec ready
  simp only [enact, Prog.exec_modify_bind, tolerate_exec, onFences_exec, remember,
    raiseTokenCounter, applied]

theorem enact_extentAdopt_exec {record : FenceRecord} {scope : Scope}
    (ready : s.fences.Adoptable scope record.token record.fencedIncarnation) :
    (enact (.extentAdopt record scope)).exec s = (.ok ⟨⟩,
      { remember scope (raiseTokenCounter record.token s) with
        fences := s.fences.adopted scope record.token record.fencedEpoch record.fencedIncarnation
          record.supersededGrant record.issuedAt }) := by
  have adopted : (FenceTable.adopt scope record.token record.fencedEpoch record.fencedIncarnation
      record.supersededGrant record.issuedAt).exec s.fences = (.ok ⟨⟩, s.fences.adopted scope
      record.token record.fencedEpoch record.fencedIncarnation record.supersededGrant
      record.issuedAt) := FenceTable.adopt_exec ready
  simp only [enact, Prog.exec_modify_bind, onFences_exec, remember, raiseTokenCounter, adopted]

/-- What a record can do: nothing, the bookkeeping, or the bookkeeping and its entry. -/
theorem apply_cases {record : JournalRecord} (ran : (apply record).exec s = (r, s')) :
    (s' = s ∧ (∃ st, r = .error st) ∧
        (record.sequence = 0 ∨ s.registrySequence + 1 < record.sequence)) ∨
      record.sequence ≠ 0 ∧ record.sequence ≤ s.registrySequence + 1 ∧
        ((∃ st, record.entry = .error st ∧ r = .error st ∧ s' = observe record s) ∨
          ∃ entry, record.entry = .ok entry ∧ (enact entry).exec (observe record s) = (r, s')) := by
  rw [apply, Prog.exec_refuseIf] at ran
  by_cases unset : record.sequence = 0
  · rw [if_pos unset] at ran
    cases ran
    exact .inl ⟨rfl, ⟨_, rfl⟩, .inl unset⟩
  rw [if_neg unset, Prog.exec_get_bind, Prog.exec_refuseIf] at ran
  by_cases ahead : s.registrySequence + 1 < record.sequence
  · rw [if_pos ahead] at ran
    cases ran
    exact .inl ⟨rfl, ⟨_, rfl⟩, .inr ahead⟩
  rw [if_neg ahead, Prog.exec_modify_bind, Prog.exec_ofExcept_bind] at ran
  refine .inr ⟨unset, not_lt.mp ahead, ?_⟩
  cases read : record.entry with
  | error st =>
    rw [read] at ran
    cases ran
    exact .inl ⟨st, rfl, rfl, rfl⟩
  | ok entry =>
    rw [read] at ran
    exact .inr ⟨entry, rfl, ran⟩

/-- An accepted record was next at most, and was read and enacted. -/
theorem apply_ok {record : JournalRecord} (ran : (apply record).exec s = (.ok ⟨⟩, s')) :
    record.sequence ≠ 0 ∧ record.sequence ≤ s.registrySequence + 1 ∧
      ∃ entry, record.entry = .ok entry ∧
        (enact entry).exec (observe record s) = (.ok ⟨⟩, s') := by
  rcases apply_cases ran with ⟨-, ⟨st, failed⟩, -⟩ | ⟨set, near, ⟨st, -, failed, -⟩ | enacted⟩
  · cases failed
  · cases failed
  · exact ⟨set, near, enacted⟩

/-- What an entry leaves behind, accepted or refused, up to what the table it is for makes
of it. -/
inductive Touched (s : RegistryState) : Entry → RegistryState → Prop
  | silent : Touched s .silent s
  | bootBegin (boot : BootRecord) (lineage : LineageTable) :
      Touched s (.bootBegin boot) { s with
        boot := boot, lineage := lineage
        incarnationCounter := max s.incarnationCounter boot.incarnation }
  | bootEnd (boot : BootRecord) (lineage : LineageTable) :
      Touched s (.bootEnd boot) { s with lineage := lineage }
  | policyDefine (policy : ArbiterPolicy) :
      Touched s (.policyDefine policy) { s with policy := policy }
  | domainDefine (d : DomainDefinition) (domains : DomainTable) (scopes : ScopeTable) :
      Touched s (.domainDefine d) { s with domains := domains, scopes := scopes }
  | grantOpen (g : EpochGrant) (lineage : LineageTable) :
      Touched s (.grantOpen g) { raiseTokenCounter g.fenceToken (raiseGrantCounter g.id s) with
        lineage := lineage }
  | grantClose (g : EpochGrant) (lineage : LineageTable) :
      Touched s (.grantClose g) { s with lineage := lineage }
  | fence (record : FenceRecord) (scope : Scope) (fences : FenceTable) :
      Touched s (.fence record scope) { remember scope (raiseTokenCounter record.token s) with
        fences := fences }
  | extentAdopt (record : FenceRecord) (scope : Scope) (fences : FenceTable) :
      Touched s (.extentAdopt record scope)
        { remember scope (raiseTokenCounter record.token s) with fences := fences }
  | commitRecord : Touched s .commitRecord { s with commits := s.commits + 1 }
  | incarnationAllocate (value counter : UInt64) (raised : counter = max s.incarnationCounter value) :
      Touched s (.incarnationAllocate value) { s with incarnationCounter := counter }
  | interruptMark (mark : InterruptMark) (interrupts : List InterruptMark) :
      Touched s (.interruptMark mark) { s with interrupts := interrupts }

theorem enact_touched {entry : Entry} (ran : (enact entry).exec s = (r, s')) :
    Touched s entry s' := by
  cases entry with
  | silent => cases ran; exact .silent
  | bootBegin boot => rw [enact_bootBegin ran]; exact .bootBegin boot _
  | bootEnd boot => rw [enact_bootEnd ran]; exact .bootEnd boot _
  | policyDefine policy => cases ran; exact .policyDefine policy
  | domainDefine d =>
    rcases enact_domainDefine ran with rfl | ⟨-, -, rfl⟩
    · exact .domainDefine d s'.domains s'.scopes
    · exact .domainDefine d _ _
  | grantOpen g =>
    rw [enact, Prog.exec_modify_bind, onLineage_exec] at ran
    cases ran
    exact .grantOpen g _
  | grantClose g =>
    rcases enact_grantClose ran with ⟨-, -, -, rfl⟩ | ⟨rfl, -⟩
    · exact .grantClose g _
    · exact .grantClose g s'.lineage
  | fence record scope =>
    rcases enact_fence ran with ⟨-, -, rfl⟩ | ⟨-, fences, -, -, rfl⟩
    · exact .fence record scope _
    · exact .fence record scope fences
  | extentAdopt record scope =>
    rcases enact_extentAdopt ran with ⟨-, -, rfl⟩ | ⟨-, rfl⟩
    · exact .extentAdopt record scope _
    · exact .extentAdopt record scope s.fences
  | commitRecord => cases ran; exact .commitRecord
  | incarnationAllocate value =>
    rcases enact_incarnationAllocate ran with ⟨-, below, rfl⟩ | ⟨-, low, rfl⟩
    · exact .incarnationAllocate value value (max_eq_right (le_of_lt below)).symm
    · exact .incarnationAllocate value s'.incarnationCounter (max_eq_left low).symm
  | interruptMark mark => cases ran; exact .interruptMark mark _

theorem enact_lineage {entry : Entry} (avoids : entry.avoidsLineage = true)
    (ran : (enact entry).exec s = (r, s')) : s'.lineage = s.lineage := by
  cases enact_touched ran with
  | bootBegin _ _ | bootEnd _ _ | grantOpen _ _ | grantClose _ _ => cases avoids
  | _ => rfl

theorem enact_fences {entry : Entry} (avoids : entry.avoidsFences = true)
    (ran : (enact entry).exec s = (r, s')) : s'.fences = s.fences := by
  cases enact_touched ran with
  | fence _ _ _ | extentAdopt _ _ _ => cases avoids
  | _ => rfl

theorem enact_definitions {entry : Entry} (avoids : entry.avoidsDomains = true)
    (ran : (enact entry).exec s = (r, s')) : s'.domains = s.domains := by
  cases enact_touched ran with
  | domainDefine _ _ _ => cases avoids
  | _ => rfl

/-- A registered domain stays as it is. -/
theorem enact_domains {entry : Entry} {domain : DomainId} {known : DomainDefinition}
    (found : s.domains.find domain = some known) (ran : (enact entry).exec s = (r, s')) :
    s'.domains.find domain = some known := by
  cases entry with
  | domainDefine d =>
    rcases enact_domainDefine ran with rfl | ⟨free, _, rfl⟩
    · exact found
    · have other : d.domain ≠ domain := by
        rintro rfl
        rw [free] at found
        cases found
      exact (SortedTable.find_put_ne s.domains other).trans found
  | silent | bootBegin _ | bootEnd _ | policyDefine _ | grantOpen _ | grantClose _ | fence _ _
  | extentAdopt _ _ | commitRecord | incarnationAllocate _ | interruptMark _ =>
    rw [enact_definitions rfl ran]
    exact found

/-- The registry without what a record can change. -/
def untouched (s : RegistryState) : RegistryState :=
  { s with
    boot := {}, fences := {}, lineage := {}, domains := SortedTable.empty, policy := {}
    interrupts := [], scopes := SortedTable.empty, tokenCounter := 0, grantCounter := 0
    incarnationCounter := 0, commits := 0 }

theorem enact_untouched {entry : Entry} (ran : (enact entry).exec s = (r, s')) :
    s'.untouched = s.untouched := by
  cases enact_touched ran <;> rfl

/-- What is read from the rest of the registry is the same after a record. -/
theorem enact_blind {β : Type} (f : RegistryState → β) (blind : ∀ s, f s.untouched = f s)
    {entry : Entry} (ran : (enact entry).exec s = (r, s')) : f s' = f s := by
  rw [← blind s', enact_untouched ran, blind]

/-- What no record touches. -/
structure Setup (s s' : RegistryState) : Prop where
  config : s'.config = s.config
  storeId : s'.storeId = s.storeId
  fabric : s'.fabric = s.fabric
  idempotency : s'.idempotency = s.idempotency

theorem Setup.refl (s : RegistryState) : Setup s s := ⟨rfl, rfl, rfl, rfl⟩

theorem enact_setup {entry : Entry} (ran : (enact entry).exec s = (r, s')) : Setup s s' :=
  ⟨enact_blind config (fun _ => rfl) ran, enact_blind storeId (fun _ => rfl) ran,
    enact_blind fabric (fun _ => rfl) ran, enact_blind idempotency (fun _ => rfl) ran⟩

/-- No record of any kind breaks the lineage. -/
theorem enact_sound {entry : Entry} (sound : s.lineage.Sound)
    (ran : (enact entry).exec s = (r, s')) : s'.lineage.Sound := by
  cases entry with
  | bootBegin boot =>
    rw [enact_bootBegin ran]
    exact sound.withGrants (LineageTable.beginBoot_grants boot s.lineage)
  | bootEnd boot =>
    rw [enact_bootEnd ran]
    exact sound.withGrants (LineageTable.endBoot_grants _ _ _ s.lineage)
  | grantOpen g =>
    rcases enact_grantOpen sound.bounded ran with ⟨_, ready, rfl⟩ | ⟨_, rfl⟩
    · exact sound.opened ready
    · exact sound
  | grantClose g =>
    rcases enact_grantClose ran with ⟨_, _, _, rfl⟩ | ⟨rfl, _⟩
    · exact sound.closed
    · exact sound
  | silent | policyDefine _ | domainDefine _ | fence _ _ | extentAdopt _ _ | commitRecord
  | incarnationAllocate _ | interruptMark _ =>
    rw [enact_lineage rfl ran]
    exact sound

theorem apply_sound {record : JournalRecord} (sound : s.lineage.Sound)
    (ran : (apply record).exec s = (r, s')) : s'.lineage.Sound := by
  rcases apply_cases ran with ⟨rfl, -, -⟩ | ⟨-, -, ⟨st, -, -, rfl⟩ | ⟨entry, -, enacted⟩⟩
  · exact sound
  · exact sound
  · have kept : (observe record s).lineage.Sound := sound
    exact enact_sound kept enacted

theorem apply_domains {record : JournalRecord} {domain : DomainId} {known : DomainDefinition}
    (found : s.domains.find domain = some known) (ran : (apply record).exec s = (r, s')) :
    s'.domains.find domain = some known := by
  rcases apply_cases ran with ⟨rfl, -, -⟩ | ⟨-, -, ⟨st, -, -, rfl⟩ | ⟨entry, -, enacted⟩⟩
  · exact found
  · exact found
  · exact enact_domains (s := observe record s) found enacted

theorem apply_setup {record : JournalRecord} (ran : (apply record).exec s = (r, s')) :
    Setup s s' := by
  rcases apply_cases ran with ⟨rfl, -, -⟩ | ⟨-, -, ⟨st, -, -, rfl⟩ | ⟨entry, -, enacted⟩⟩
  · exact Setup.refl s'
  · exact ⟨rfl, rfl, rfl, rfl⟩
  · have setup := enact_setup enacted
    exact { setup with }

theorem apply_lineage {record : JournalRecord}
    (avoids : ∀ entry, record.entry = .ok entry → entry.avoidsLineage = true)
    (ran : (apply record).exec s = (r, s')) : s'.lineage = s.lineage := by
  rcases apply_cases ran with ⟨rfl, -, -⟩ | ⟨-, -, ⟨st, -, -, rfl⟩ | ⟨entry, read, enacted⟩⟩
  · rfl
  · rfl
  · have same := enact_lineage (avoids entry read) enacted
    exact same

end Enact

end RegistryState

/-- A transition in progress: the state, the records it has emitted, and those whose
emit was refused. -/
structure Work where
  state : RegistryState
  emitted : List JournalRecord := []
  refused : List JournalRecord := []

namespace Work

def update (f : RegistryState → RegistryState) (w : Work) : Work := { w with state := f w.state }

/-- The record an emit would add. -/
def nextRecord (w : Work) (kind : RecordKind) (payload : Bytes) (status : Status) (now : Step) :
    JournalRecord :=
  ⟨kind, w.state.registrySequence + 1, now, status, payload⟩

def kept (w : Work) (record : JournalRecord) (s : RegistryState) : Work where
  state := { s with generation := tryIncrement s.generation }
  emitted := w.emitted ++ [record]
  refused := w.refused

def lost (w : Work) (record : JournalRecord) (s : RegistryState) : Work where
  state := s
  emitted := w.emitted
  refused := w.refused ++ [record]

/-- A record is applied before it is handed out; what a refused one did stays done. -/
def emit (kind : RecordKind) (payload : Bytes) (status : Status) (now : Step) :
    Prog Status Work PUnit := do
  let w ← get
  let record := w.nextRecord kind payload status now
  match (RegistryState.apply record).exec w.state with
  | (.ok _, s) => set (w.kept record s)
  | (.error st, s) => do
    set (w.lost record s)
    throw st

theorem emit_cases {kind : RecordKind} {payload : Bytes} {status : Status} {now : Step}
    {w w' : Work} {r : Except Status PUnit} (ran : (emit kind payload status now).exec w = (r, w')) :
    (∃ s, r = .ok ⟨⟩ ∧ w' = w.kept (w.nextRecord kind payload status now) s ∧
        (RegistryState.apply (w.nextRecord kind payload status now)).exec w.state = (.ok ⟨⟩, s)) ∨
      ∃ st s, r = .error st ∧ w' = w.lost (w.nextRecord kind payload status now) s ∧
        (RegistryState.apply (w.nextRecord kind payload status now)).exec w.state =
          (.error st, s) := by
  rw [emit, Prog.exec_get_bind] at ran
  rcases applied : (RegistryState.apply (w.nextRecord kind payload status now)).exec w.state with
    ⟨result, s⟩
  simp only [applied] at ran
  cases result with
  | ok u => cases ran; exact .inl ⟨s, rfl, rfl, rfl⟩
  | error st => cases ran; exact .inr ⟨st, s, rfl, rfl, rfl⟩

end Work
end SplitBrainFabric
