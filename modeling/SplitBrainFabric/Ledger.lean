import SplitBrainFabric.History

/-! What the log alone determines. The grants of a registry are a fold over the records
it has emitted, in a live process and after any restart, and its counters are at least
as high as anything the log mentions. -/

namespace SplitBrainFabric
open Words Decoder

namespace Entry

def token : Entry → FenceToken
  | .grantOpen g => g.fenceToken
  | .fence r _ | .extentAdopt r _ => r.token
  | _ => 0

def grantId : Entry → GrantId
  | .grantOpen g => g.id
  | _ => 0

def incarnation : Entry → IncarnationId
  | .bootBegin boot => boot.incarnation
  | .incarnationAllocate value => value
  | _ => 0

/-- The grants after an entry that was accepted. -/
def grants (before : List EpochGrant) : Entry → List EpochGrant
  | .grantOpen g => LineageTable.roomFor before ++ [g]
  | .grantClose g =>
    if g.state ≠ .open ∧ (before.find? (·.id = g.id)).any (·.isOpen) = true then
      updateFirst (·.id = g.id) (·.close g.state g.closeReason g.closedAt) before
    else before
  | _ => before

/-- Closing changes the first grant of that id, if it is open. -/
theorem grants_close (before : List EpochGrant) (g : EpochGrant) :
    (Entry.grantClose g).grants before = before ∨ g.state ≠ .open ∧
      (Entry.grantClose g).grants before =
        updateFirst (·.id = g.id) (·.close g.state g.closeReason g.closedAt) before := by
  by_cases ends : g.state ≠ .open ∧ (before.find? (·.id = g.id)).any (·.isOpen) = true
  · exact .inr ⟨ends.1, if_pos ends⟩
  · exact .inl (if_neg ends)

end Entry

namespace JournalRecord

/-- A record that cannot be read says nothing. -/
def said (r : JournalRecord) : Entry :=
  match r.entry with
  | .ok entry => entry
  | .error _ => .silent

theorem said_of {r : JournalRecord} {entry : Entry} (read : r.entry = .ok entry) :
    r.said = entry := by
  rw [said, read]

theorem policy_bounded {r : JournalRecord} {p : ArbiterPolicy}
    (read : r.entry = .ok (.policyDefine p)) :
    p.quorum.witnesses.length ≤ Limits.maxWitnessesPerProfile := by
  have general : ∀ {α : Type} {x : Except Status α} {f : α → Entry}, x.map f = .ok (.policyDefine p) →
      ∃ a, x = .ok a ∧ f a = .policyDefine p := by
    intro α x f mapped
    cases x with
    | error st => cases mapped
    | ok a => exact ⟨a, rfl, Except.ok.inj mapped⟩
  unfold entry at read
  split at read
  case h_6 =>
    obtain ⟨q, decoded, same⟩ := general read
    cases same
    exact decodePolicy_yields.whole decoded
  all_goals first
    | cases read
    | (obtain ⟨_, _, same⟩ := general read; cases same)

end JournalRecord

def grantsOf (log : List JournalRecord) : List EpochGrant :=
  log.foldl (fun before r => r.said.grants before) []

theorem grantsOf_append (log : List JournalRecord) (r : JournalRecord) :
    grantsOf (log ++ [r]) = r.said.grants (grantsOf log) := by
  rw [grantsOf, List.foldl_append]
  rfl

namespace RegistryState

section Enact

variable {s s' : RegistryState} {r : Except Status PUnit} {entry : Entry}

theorem enact_grants (sound : s.lineage.Sound) (ran : (enact entry).exec s = (r, s')) :
    (r = .ok ⟨⟩ → s'.lineage.grants = entry.grants s.lineage.grants) ∧
      ((∃ st, r = .error st) → s'.lineage.grants = s.lineage.grants) := by
  cases entry with
  | bootBegin boot =>
    rw [enact_bootBegin ran]
    have same := LineageTable.beginBoot_grants boot s.lineage
    exact ⟨fun _ => same, fun _ => same⟩
  | bootEnd boot =>
    rw [enact_bootEnd ran]
    have same := LineageTable.endBoot_grants boot.boot boot.endedAt boot.cleanStop s.lineage
    exact ⟨fun _ => same, fun _ => same⟩
  | grantOpen g =>
    rcases enact_grantOpen sound.bounded ran with ⟨rfl, _, rfl⟩ | ⟨⟨st, rfl⟩, rfl⟩
    · exact ⟨fun _ => rfl, by rintro ⟨_, ⟨⟩⟩⟩
    · exact ⟨nofun, fun _ => rfl⟩
  | grantClose g =>
    rcases enact_grantClose ran with ⟨rfl, ends, ⟨old, found, active⟩, rfl⟩ | ⟨rfl, stuck⟩
    · refine ⟨fun _ => ?_, by rintro ⟨_, ⟨⟩⟩⟩
      have found' : s.lineage.grants.find? (·.id = g.id) = some old := found
      simp only [Entry.grants, found', Option.any_some, EpochGrant.isOpen_iff, active, ends,
        ne_eq, not_false_eq_true, and_self, if_true, LineageTable.closed_grants]
    · refine ⟨fun _ => ?_, fun _ => rfl⟩
      have idle : ¬ (g.state ≠ .open ∧
          (s'.lineage.grants.find? (·.id = g.id)).any (·.isOpen) = true) := by
        rintro ⟨ends, active⟩
        cases found : s'.lineage.grants.find? (·.id = g.id) with
        | none => rw [found] at active; cases active
        | some old =>
          rw [found] at active
          exact ends (stuck old found (EpochGrant.isOpen_iff.mp active))
      rw [Entry.grants, if_neg idle]
  | silent | policyDefine _ | domainDefine _ | fence _ _ | extentAdopt _ _ | commitRecord
  | incarnationAllocate _ | interruptMark _ =>
    rw [enact_lineage rfl ran]
    exact ⟨fun _ => rfl, fun _ => rfl⟩

/-- Counters never fall, and end above what an entry mentions even if it is refused. -/
theorem enact_counters (ran : (enact entry).exec s = (r, s')) :
    s.tokenCounter ≤ s'.tokenCounter ∧ entry.token ≤ s'.tokenCounter ∧
      s.grantCounter ≤ s'.grantCounter ∧ entry.grantId ≤ s'.grantCounter ∧
      s.incarnationCounter ≤ s'.incarnationCounter ∧ entry.incarnation ≤ s'.incarnationCounter := by
  have zero : ∀ v : UInt64, 0 ≤ v := fun v => UInt64.zero_le
  cases enact_touched ran with
  | bootBegin boot lineage =>
    exact ⟨le_rfl, zero _, le_rfl, zero _, le_max_left _ _, le_max_right _ _⟩
  | grantOpen g lineage =>
    exact ⟨le_max_left _ _, le_max_right _ _, le_max_left _ _, le_max_right _ _, le_rfl, zero _⟩
  | fence record scope fences | extentAdopt record scope fences =>
    exact ⟨le_max_left _ _, le_max_right _ _, le_rfl, zero _, le_rfl, zero _⟩
  | incarnationAllocate value counter raised =>
    subst raised
    exact ⟨le_rfl, zero _, le_rfl, zero _, le_max_left _ _, le_max_right _ _⟩
  | silent | bootEnd _ _ | policyDefine _ | domainDefine _ _ _ | grantClose _ _ | commitRecord
  | interruptMark _ _ => exact ⟨le_rfl, zero _, le_rfl, zero _, le_rfl, zero _⟩

theorem enact_sequence (ran : (enact entry).exec s = (r, s')) :
    s'.registrySequence = s.registrySequence :=
  enact_blind registrySequence (fun _ => rfl) ran

/-- The tables that matter to what is accepted later. -/
structure Mirrors (s t : RegistryState) : Prop where
  marks : s.fences.extents = t.fences.extents
  grants : s.lineage.grants = t.lineage.grants
  boots : s.lineage.boots = t.lineage.boots
  domains : s.domains = t.domains

theorem Mirrors.openable {t : RegistryState} {g : EpochGrant} (mirrors : Mirrors s t)
    (ready : s.lineage.Openable g) : t.lineage.Openable g :=
  { ready with
    fresh := by
      rw [LineageTable.find, ← mirrors.grants]
      exact ready.fresh
    monotone := by
      rw [LineageTable.maxEpoch, ← mirrors.grants]
      exact ready.monotone
    single := by
      rw [LineageTable.openGrantFor, ← mirrors.grants]
      exact ready.single
    room := by
      rw [← mirrors.grants]
      exact ready.room }

theorem Mirrors.fenceable {t : RegistryState} {record : FenceRecord} {scope : Scope}
    (mirrors : Mirrors s t) (ready : s.fences.Fenceable record scope) :
    t.fences.Fenceable record scope :=
  { ready with
    room := mirrors.marks ▸ ready.room
    admits := fun e member => by
      rw [FenceTable.highWater, FenceTable.find, ← mirrors.marks]
      exact ready.admits e member }

theorem Mirrors.adoptable {t : RegistryState} {scope : Scope} {token : FenceToken}
    {incarnation : IncarnationId} (mirrors : Mirrors s t)
    (ready : s.fences.Adoptable scope token incarnation) :
    t.fences.Adoptable scope token incarnation :=
  { ready with
    admits := mirrors.marks ▸ ready.admits
    room := mirrors.marks ▸ ready.room }

theorem enactDomain_mirrors {t : RegistryState} {d : DomainDefinition} (mirrors : Mirrors s t)
    (ran : (enact (.domainDefine d)).exec s = (.ok ⟨⟩, s')) :
    Mirrors s' ((enact (.domainDefine d)).exec t).2 := by
  rcases ran' : (enact (.domainDefine d)).exec t with ⟨r', t'⟩
  have domains := mirrors.domains
  rw [enact, enactDomain, Prog.exec_get_bind] at ran ran'
  rw [← domains] at ran'
  cases known : s.domains.find d.domain with
  | some old =>
    simp only [known, Prog.exec_ite, Prog.exec_pure, Prog.exec_throw] at ran ran'
    split at ran
    · rename_i same
      rw [if_pos same] at ran'
      cases ran; cases ran'
      exact mirrors
    · cases ran
  | none =>
    simp only [known, Prog.exec_refuseIf] at ran ran'
    split at ran
    · cases ran
    · rename_i room
      rw [if_neg room] at ran'
      cases ran; cases ran'
      exact { mirrors with domains := congrArg (fun table => SortedTable.put table d) domains }

/-- What one registry accepts, another with the same tables accepts as well. -/
theorem enact_mirrors {t : RegistryState} (mirrors : Mirrors s t) (sound : s.lineage.Sound)
    (ran : (enact entry).exec s = (.ok ⟨⟩, s')) : Mirrors s' ((enact entry).exec t).2 := by
  have bounded : t.lineage.Bounded := by
    have h := sound.bounded
    unfold LineageTable.Bounded at h ⊢
    rwa [← mirrors.grants]
  have found : ∀ id, t.lineage.find id = s.lineage.find id := fun id => by
    rw [LineageTable.find, LineageTable.find, mirrors.grants]
  cases entry with
  | silent | policyDefine _ | commitRecord | interruptMark _ => cases ran; exact { mirrors with }
  | bootBegin boot =>
    rw [enact_bootBegin ran, enact_bootBegin (Prod.eta ((enact (.bootBegin boot)).exec t)).symm]
    exact { mirrors with
      grants := by
        simp only [LineageTable.beginBoot_grants]
        exact mirrors.grants
      boots := LineageTable.beginBoot_boots mirrors.boots }
  | bootEnd boot =>
    rw [enact_bootEnd ran, enact_bootEnd (Prod.eta ((enact (.bootEnd boot)).exec t)).symm]
    exact { mirrors with
      grants := by
        simp only [LineageTable.endBoot_grants]
        exact mirrors.grants
      boots := LineageTable.endBoot_boots mirrors.boots }
  | domainDefine d => exact enactDomain_mirrors mirrors ran
  | grantOpen g =>
    rcases enact_grantOpen sound.bounded ran with ⟨-, ready, rfl⟩ | ⟨⟨st, failed⟩, -⟩
    · rw [enact_grantOpen_exec bounded (mirrors.openable ready)]
      exact { mirrors with
        grants := by simp only [LineageTable.opened_grants, mirrors.grants] }
    · cases failed
  | grantClose g =>
    rcases ran' : (enact (.grantClose g)).exec t with ⟨r', t'⟩
    rcases enact_grantClose ran with ⟨-, ends, ⟨old, held, active⟩, rfl⟩ | ⟨rfl, stuck⟩
    · rw [← found] at held
      rcases enact_grantClose ran' with ⟨-, -, -, rfl⟩ | ⟨-, stuck⟩
      · exact { mirrors with
          grants := by
            simp only [LineageTable.closed_grants, mirrors.grants]
          boots := mirrors.boots }
      · exact absurd (stuck old held active) ends
    · rcases enact_grantClose ran' with ⟨-, ends, ⟨old, held, active⟩, -⟩ | ⟨rfl, -⟩
      · rw [found] at held
        exact absurd (stuck old held active) ends
      · exact mirrors
  | fence record scope =>
    rcases enact_fence ran with ⟨-, ready, rfl⟩ | ⟨st, _, failed, -⟩
    · rw [enact_fence_exec (mirrors.fenceable ready)]
      exact { mirrors with
        marks := by simp only [FenceTable.applied_extents, mirrors.marks] }
    · cases failed
  | extentAdopt record scope =>
    rcases enact_extentAdopt ran with ⟨-, ready, rfl⟩ | ⟨⟨st, failed⟩, -⟩
    · rw [enact_extentAdopt_exec (mirrors.adoptable ready)]
      exact { mirrors with
        marks := by simp only [FenceTable.adopted, FenceTable.bumpGeneration, mirrors.marks] }
    · cases failed
  | incarnationAllocate value =>
    rcases ran' : (enact (.incarnationAllocate value)).exec t with ⟨r', t'⟩
    rcases enact_incarnationAllocate ran with ⟨-, -, rfl⟩ | ⟨⟨_, failed⟩, -⟩
    · rcases enact_incarnationAllocate ran' with ⟨-, -, rfl⟩ | ⟨-, -, rfl⟩ <;>
        exact { mirrors with }
    · cases failed

/-- A refused entry leaves these tables as they were, unless it is a fence below a mark. -/
theorem enact_refused {t : RegistryState} {st : Status} (mirrors : Mirrors s t)
    (sound : s.lineage.Sound)
    (above : ∀ record scope, entry = .fence record scope →
      ∀ e, s.fences.highWater e ≤ record.token)
    (ran : (enact entry).exec s = (.error st, s')) : Mirrors s' t := by
  have grants := (enact_grants sound ran).2 ⟨st, rfl⟩
  cases entry with
  | silent | policyDefine _ | commitRecord | interruptMark _ => cases ran
  | bootBegin boot =>
    rw [enact, Prog.exec_modify_bind, tolerate_exec, onLineage_exec] at ran
    rcases began : (LineageTable.beginBoot boot).exec s.lineage with ⟨r, lineage⟩
    rw [show (raiseIncarnationCounter boot.incarnation { s with boot := boot }).lineage =
      s.lineage from rfl, began] at ran
    cases r with
    | ok u => cases ran
    | error st' =>
      obtain rfl := LineageTable.beginBoot_failsClean boot st' lineage trivial began
      simp only at ran
      split at ran
      · cases ran
      · cases ran; exact { mirrors with }
  | bootEnd boot =>
    rw [enact, tolerate_exec, onLineage_exec] at ran
    rcases ended : (LineageTable.endBoot boot.boot boot.endedAt boot.cleanStop).exec s.lineage
      with ⟨r, lineage⟩
    rw [ended] at ran
    cases r with
    | ok u => cases ran
    | error st' =>
      obtain rfl := LineageTable.endBoot_failsClean _ _ _ st' lineage trivial ended
      simp only at ran
      split at ran
      · cases ran
      · cases ran; exact { mirrors with }
  | domainDefine d =>
    rcases enact_domainDefine ran with rfl | ⟨free, room, -⟩
    · exact mirrors
    · rw [enact, enactDomain, Prog.exec_get_bind] at ran
      simp only [free, Prog.exec_refuseIf, if_neg (Nat.not_le.mpr room)] at ran
      cases ran
  | grantOpen g =>
    rcases enact_grantOpen sound.bounded ran with ⟨failed, -⟩ | ⟨-, rfl⟩
    · cases failed
    · exact { mirrors with }
  | grantClose g =>
    rcases enact_grantClose ran with ⟨failed, -⟩ | ⟨rfl, -⟩
    · cases failed
    · exact mirrors
  | fence record scope =>
    rcases enact_fence ran with ⟨failed, -⟩ | ⟨st', fences, -, applied, rfl⟩
    · cases failed
    · have marks := FenceTable.apply_refused (above record scope rfl) applied
      exact { mirrors with marks := marks.trans mirrors.marks }
  | extentAdopt record scope =>
    rcases enact_extentAdopt ran with ⟨failed, -⟩ | ⟨-, rfl⟩
    · cases failed
    · exact { mirrors with }
  | incarnationAllocate value =>
    rcases enact_incarnationAllocate ran with ⟨failed, -⟩ | ⟨-, -, rfl⟩
    · cases failed
    · exact mirrors

/-- No mark is above the token counter, not even after a refused fence. -/
theorem enact_marked (marked : ∀ e, s.fences.highWater e ≤ s.tokenCounter)
    (ran : (enact entry).exec s = (r, s')) : ∀ e, s'.fences.highWater e ≤ s'.tokenCounter := by
  have tokens := (enact_counters ran).1
  cases entry with
  | fence record scope =>
    intro e
    have old := (marked e).trans (le_max_left s.tokenCounter record.token)
    have new := le_max_right s.tokenCounter record.token
    rcases enact_fence ran with ⟨_, _, rfl⟩ | ⟨st, fences, _, applied, rfl⟩
    · have shown : (s.fences.applied record scope).highWater e ≤
          max s.tokenCounter record.token := by
        rw [FenceTable.applied_highWater]
        split
        · exact new
        · exact old
      exact shown
    · obtain ⟨done, rest, -, -, marks, -⟩ := FenceTable.apply_error applied
      have shown : fences.highWater e ≤ max s.tokenCounter record.token := by
        have raised : fences.highWater e = ({ s.fences with
            extents := FenceTable.raiseAll record done s.fences.extents } : FenceTable).highWater e := by
          simp only [FenceTable.highWater, FenceTable.find, marks]
        rw [raised, FenceTable.highWater_raiseAll]
        split
        · exact new
        · exact old
      exact shown
  | extentAdopt record scope =>
    intro e
    have old := (marked e).trans (le_max_left s.tokenCounter record.token)
    have new := le_max_right s.tokenCounter record.token
    rcases enact_extentAdopt ran with ⟨_, _, rfl⟩ | ⟨_, rfl⟩
    · have shown : (s.fences.adopted scope record.token record.fencedEpoch
          record.fencedIncarnation record.supersededGrant record.issuedAt).highWater e ≤
          max s.tokenCounter record.token := by
        rw [FenceTable.adopted_highWater]
        split
        · exact new
        · exact old
      exact shown
    · exact old
  | silent | bootBegin _ | bootEnd _ | policyDefine _ | domainDefine _ | grantOpen _
  | grantClose _ | commitRecord | incarnationAllocate _ | interruptMark _ =>
    intro e
    rw [enact_fences rfl ran]
    exact (marked e).trans tokens

theorem Sized.fences (sized : s.Sized) : s.fences.Bounded := ⟨sized.extents, sized.records⟩

/-- The oldest mark makes room for a new one. -/
theorem bounded_push {marks : List InterruptMark} (mark : InterruptMark)
    (bounded : marks.length ≤ Limits.maxInterruptedMarks) :
    ((if Limits.maxInterruptedMarks ≤ marks.length then marks.tail else marks) ++ [mark]).length ≤
      Limits.maxInterruptedMarks := by
  rw [List.length_append, List.length_singleton]
  split
  · rename_i full
    rw [List.length_tail]
    simp only [Limits.maxInterruptedMarks] at full bounded ⊢
    omega
  · omega

theorem enact_sized (sized : s.Sized) (sound : s.lineage.Sound)
    (policy : ∀ p, entry = .policyDefine p →
      p.quorum.witnesses.length ≤ Limits.maxWitnessesPerProfile)
    (ran : (enact entry).exec s = (r, s')) : s'.Sized := by
  have grants : s'.lineage.grants.length ≤ Limits.maxLineageEntries := (enact_sound sound ran).bounded
  cases entry with
  | bootBegin boot =>
    rw [enact_bootBegin ran] at grants ⊢
    exact { sized with grants := grants, boots := LineageTable.beginBoot_length _ sized.boots }
  | bootEnd boot =>
    rw [enact_bootEnd ran] at grants ⊢
    exact { sized with grants := grants, boots := LineageTable.endBoot_length _ _ _ sized.boots }
  | grantOpen g =>
    rcases enact_grantOpen sound.bounded ran with ⟨_, _, rfl⟩ | ⟨_, rfl⟩ <;>
      exact { sized with grants := grants }
  | grantClose g =>
    rcases enact_grantClose ran with ⟨_, _, _, rfl⟩ | ⟨rfl, _⟩ <;>
      exact { sized with grants := grants }
  | policyDefine p =>
    cases ran
    exact { sized with policy := policy p rfl }
  | domainDefine d =>
    rcases enact_domainDefine ran with rfl | ⟨_, room, rfl⟩
    · exact sized
    · have size : (s.domains.put d).size ≤ Limits.maxDomains :=
        (SortedTable.size_put_le s.domains d).trans room
      exact { sized with domains := size }
  | fence record scope =>
    rcases enact_fence ran with ⟨_, ready, rfl⟩ | ⟨st, fences, _, applied, rfl⟩
    · have bounded := sized.fences.apply (FenceTable.apply_exec ready)
      exact { sized with extents := bounded.extents, records := bounded.records }
    · have bounded := sized.fences.apply applied
      exact { sized with extents := bounded.extents, records := bounded.records }
  | extentAdopt record scope =>
    rcases enact_extentAdopt ran with ⟨_, ready, rfl⟩ | ⟨_, rfl⟩
    · exact { sized with extents := (sized.fences.adopt ready).extents }
    · exact { sized with }
  | incarnationAllocate value =>
    rcases enact_incarnationAllocate ran with ⟨_, _, rfl⟩ | ⟨_, _, rfl⟩ <;>
      exact { sized with }
  | interruptMark mark =>
    cases ran
    exact { sized with interrupts := bounded_push mark sized.interrupts }
  | silent | commitRecord =>
    cases ran
    exact { sized with }

end Enact

end RegistryState

/-- What the entries of a log make of an empty registry. -/
def tablesOf (log : List JournalRecord) : RegistryState :=
  log.foldl (fun t r => ((RegistryState.enact r.said).exec t).2) {}

theorem tablesOf_append (log : List JournalRecord) (r : JournalRecord) :
    tablesOf (log ++ [r]) = ((RegistryState.enact r.said).exec (tablesOf log)).2 := by
  rw [tablesOf, List.foldl_append]
  rfl

/-- The state is what its log says, and its counters are above everything in it. -/
structure Tracks (s : RegistryState) (log : List JournalRecord) : Prop where
  sized : s.Sized
  sound : s.lineage.Sound
  grants : s.lineage.grants = grantsOf log
  mirrors : s.Mirrors (tablesOf log)
  marked : ∀ e, s.fences.highWater e ≤ s.tokenCounter
  tokens : ∀ r ∈ log, r.said.token ≤ s.tokenCounter
  ids : ∀ r ∈ log, r.said.grantId ≤ s.grantCounter
  incarnations : ∀ r ∈ log, r.said.incarnation ≤ s.incarnationCounter
  numbered : ∀ r ∈ log, r.sequence ≠ 0
  ordered : log.Pairwise (·.sequence < ·.sequence)
  latest : ∀ r ∈ log, r.sequence ≤ s.registrySequence

namespace Tracks

open RegistryState (apply bumpIncarnation bumpGeneration)

variable {s s' : RegistryState} {log : List JournalRecord} {record : JournalRecord}

/-- Only the lineage, the tables and the counters matter. -/
theorem withSame (tracks : Tracks s log) (sized : s'.Sized) (lineage : s'.lineage = s.lineage)
    (fences : s'.fences = s.fences) (domains : s'.domains = s.domains)
    (token : s.tokenCounter ≤ s'.tokenCounter) (id : s.grantCounter ≤ s'.grantCounter)
    (incarnation : s.incarnationCounter ≤ s'.incarnationCounter)
    (sequence : s.registrySequence ≤ s'.registrySequence) : Tracks s' log where
  sized := sized
  sound := lineage ▸ tracks.sound
  grants := lineage ▸ tracks.grants
  mirrors := ⟨fences ▸ tracks.mirrors.marks, lineage ▸ tracks.mirrors.grants,
    lineage ▸ tracks.mirrors.boots, domains ▸ tracks.mirrors.domains⟩
  marked := fun e => fences ▸ (tracks.marked e).trans token
  tokens := fun r member => (tracks.tokens r member).trans token
  ids := fun r member => (tracks.ids r member).trans id
  incarnations := fun r member => (tracks.incarnations r member).trans incarnation
  numbered := tracks.numbered
  ordered := tracks.ordered
  latest := fun r member => (tracks.latest r member).trans sequence

theorem accepted (tracks : Tracks s log) (later : ∀ x ∈ log, x.sequence < record.sequence)
    (ran : (apply record).exec s = (.ok ⟨⟩, s')) : Tracks s' (log ++ [record]) := by
  obtain ⟨numbered, -, entry, read, enacted⟩ := RegistryState.apply_ok ran
  have said := JournalRecord.said_of read
  have sound : (s.observe record).lineage.Sound := tracks.sound
  have sized : (s.observe record).Sized := { tracks.sized with }
  have grants := (RegistryState.enact_grants sound enacted).1 rfl
  have sequence : s'.registrySequence = record.sequence :=
    RegistryState.enact_sequence enacted
  obtain ⟨token, newToken, id, newId, incarnation, newIncarnation⟩ :=
    RegistryState.enact_counters enacted
  have added : ∀ {P : JournalRecord → Prop}, (∀ r ∈ log, P r) → P record →
      ∀ r ∈ log ++ [record], P r := by
    intro P old new r member
    rcases List.mem_append.mp member with before | last
    · exact old r before
    · rw [List.mem_singleton.mp last]
      exact new
  have mirrors : (s.observe record).Mirrors (tablesOf log) := { tracks.mirrors with }
  refine ⟨RegistryState.enact_sized sized sound ?_ enacted, RegistryState.enact_sound sound enacted,
    ?_, ?_, RegistryState.enact_marked (s := s.observe record) tracks.marked enacted, ?_, ?_, ?_,
    added tracks.numbered numbered, ?_, ?_⟩
  · rintro p rfl
    exact JournalRecord.policy_bounded read
  · rw [grantsOf_append, said, ← tracks.grants, grants]
    rfl
  · rw [tablesOf_append, said]
    exact RegistryState.enact_mirrors mirrors sound enacted
  · exact added (fun r member => (tracks.tokens r member).trans token) (said ▸ newToken)
  · exact added (fun r member => (tracks.ids r member).trans id) (said ▸ newId)
  · exact added (fun r member => (tracks.incarnations r member).trans incarnation)
      (said ▸ newIncarnation)
  · refine List.pairwise_append.mpr ⟨tracks.ordered, List.pairwise_singleton _ _, ?_⟩
    intro x before y last
    rw [List.mem_singleton.mp last]
    exact later x before
  · rw [sequence]
    exact added (fun r member => le_of_lt (later r member)) le_rfl

theorem refused {st : Status} (tracks : Tracks s log)
    (later : record.sequence ≠ 0 → s.registrySequence ≤ record.sequence)
    (above : ∀ fence scope, record.entry = .ok (.fence fence scope) →
      s.tokenCounter ≤ fence.token)
    (ran : (apply record).exec s = (.error st, s')) : Tracks s' log := by
  rcases RegistryState.apply_cases ran with ⟨rfl, -, -⟩ | ⟨set, -, unread | ⟨entry, read, enacted⟩⟩
  · exact tracks
  · obtain ⟨_, -, -, rfl⟩ := unread
    exact tracks.withSame { tracks.sized with } rfl rfl rfl le_rfl le_rfl le_rfl (later set)
  have sound : (s.observe record).lineage.Sound := tracks.sound
  have sized : (s.observe record).Sized := { tracks.sized with }
  have grants := (RegistryState.enact_grants sound enacted).2 ⟨st, rfl⟩
  have sequence : s'.registrySequence = record.sequence :=
    RegistryState.enact_sequence enacted
  obtain ⟨token, -, id, -, incarnation, -⟩ := RegistryState.enact_counters enacted
  have mirrors : (s.observe record).Mirrors (tablesOf log) := { tracks.mirrors with }
  have kept := RegistryState.enact_refused mirrors sound (fun fence scope same e =>
    (tracks.marked e).trans (above fence scope (same ▸ read))) enacted
  refine ⟨RegistryState.enact_sized sized sound ?_ enacted, RegistryState.enact_sound sound enacted,
    grants.trans tracks.grants, kept,
    RegistryState.enact_marked (s := s.observe record) tracks.marked enacted, fun r member => (tracks.tokens r member).trans token,
    fun r member => (tracks.ids r member).trans id,
    fun r member => (tracks.incarnations r member).trans incarnation, tracks.numbered,
    tracks.ordered, ?_⟩
  · rintro p rfl
    exact JournalRecord.policy_bounded read
  · intro r member
    rw [sequence]
    exact (tracks.latest r member).trans (later set)

theorem aside (tracks : Tracks s log) (hits restarts : UInt64) (fabric : FabricStore) :
    Tracks { s with idempotencyHits := hits, restartFences := restarts, fabric := fabric } log :=
  tracks.withSame { tracks.sized with } rfl rfl rfl le_rfl le_rfl le_rfl le_rfl

theorem counted (tracks : Tracks s log) : Tracks (bumpGeneration s) log :=
  tracks.withSame { tracks.sized with } rfl rfl rfl le_rfl le_rfl le_rfl le_rfl

theorem bumped (tracks : Tracks s log) (below : s.incarnationCounter ≠ maxWord) :
    Tracks (bumpIncarnation s) log :=
  tracks.withSame { tracks.sized with } rfl rfl rfl le_rfl le_rfl (le_of_lt (lt_succ below)) le_rfl

/-- The next sequence number is above every earlier one, unless there is none left. -/
theorem next_above (next : record.sequence = s.registrySequence + 1)
    (set : record.sequence ≠ 0) : s.registrySequence < record.sequence := by
  rw [next] at set ⊢
  refine lt_succ fun full => set ?_
  rw [full]
  rfl

theorem next_accepted (tracks : Tracks s log) (next : record.sequence = s.registrySequence + 1)
    (ran : (apply record).exec s = (.ok ⟨⟩, s')) : Tracks s' (log ++ [record]) := by
  refine tracks.accepted (fun x member => ?_) ran
  exact lt_of_le_of_lt (tracks.latest x member) (next_above next (RegistryState.apply_ok ran).1)

theorem next_refused {st : Status} (tracks : Tracks s log)
    (next : record.sequence = s.registrySequence + 1)
    (above : ∀ fence scope, record.entry = .ok (.fence fence scope) →
      s.tokenCounter ≤ fence.token)
    (ran : (apply record).exec s = (.error st, s')) : Tracks s' log :=
  tracks.refused (fun set => le_of_lt (next_above next set)) above ran

/-- A fence takes the token after the last one. -/
theorem above_of_sane (sane : ∀ entry, record.entry = .ok entry → Sane s entry) (fence : FenceRecord)
    (scope : Scope) (read : record.entry = .ok (.fence fence scope)) :
    s.tokenCounter ≤ fence.token := by
  obtain ⟨room, token⟩ := sane _ read
  rw [token]
  exact le_of_lt (lt_succ room)

theorem move {w w' : Work} (tracks : Tracks w.state (log ++ w.emitted)) (move : Work.Move w w') :
    Tracks w'.state (log ++ w'.emitted) := by
  cases move with
  | aside hits restarts fabric => exact tracks.aside hits restarts fabric
  | kept next sane ran =>
    have after := (tracks.next_accepted next ran).counted
    rw [List.append_assoc] at after
    exact after
  | lost next sane ran => exact tracks.next_refused next (above_of_sane sane) ran
  | booted below next boots ran =>
    have after := ((tracks.bumped below).next_accepted next ran).counted
    rw [List.append_assoc] at after
    exact after
  | bootLost below next boots ran =>
    refine (tracks.bumped below).next_refused next (fun fence scope read => ?_) ran
    obtain ⟨boot, same, -⟩ := boots _ read
    cases same
  | opened adoption next read ran =>
    have adopted := (tracks.next_accepted adoption.next adoption.ran).counted
    have after := (adopted.next_accepted next ran).counted
    rw [List.append_assoc, List.append_assoc] at after
    simp only [Work.kept, List.append_assoc]
    exact after
  | openLost adoption next read ran =>
    have adopted := (tracks.next_accepted adoption.next adoption.ran).counted
    have after := adopted.next_refused next
      (fun fence scope known => by cases read _ known) ran
    rw [List.append_assoc] at after
    exact after

theorem reach {w w' : Work} (tracks : Tracks w.state (log ++ w.emitted))
    (reached : Work.Reach w w') : Tracks w'.state (log ++ w'.emitted) := by
  induction reached with
  | refl => exact tracks
  | tail _ move ih => exact ih.move move

theorem initialised {config : RegistryConfig} {clock : Step} {boot : BootRecord}
    {fabric : FabricStore}
    (ran : (RegistryState.initialise config clock boot).exec { fabric := fabric } = (.ok ⟨⟩, s)) :
    Tracks s [] := by
  obtain ⟨-, ran⟩ := Prog.refuseIf_ok ran
  obtain ⟨_, valid, ran⟩ := Prog.ofExcept_ok ran
  obtain ⟨-, ran⟩ := Prog.refuseIf_ok ran
  cases ran
  have policy := ArbiterPolicy.validate_bounded valid
  exact {
    sized := ⟨policy, Nat.zero_le _, Nat.zero_le _, Nat.zero_le _, Nat.zero_le _, Nat.zero_le _,
      Nat.zero_le _, Nat.zero_le _⟩
    sound := ⟨Nat.zero_le _, List.nodup_nil⟩
    grants := rfl
    mirrors := ⟨rfl, rfl, rfl, rfl⟩
    marked := fun _ => le_rfl
    tokens := by simp
    ids := by simp
    incarnations := by simp
    numbered := by simp
    ordered := List.Pairwise.nil
    latest := by simp }

theorem rebuilt (tracks : Tracks s log) : Tracks s.rebuilt log :=
  tracks.withSame { tracks.sized with } rfl rfl rfl (RegistryState.le_foldl_max _ _).1
    (RegistryState.le_foldl_max _ _).1 (RegistryState.le_foldl_max _ _).1 le_rfl

/-- A snapshot brings back a state that tracks the log it was taken at. -/
theorem deserialized {t t' : RegistryState} (tracks : Tracks s log)
    (ran : (RegistryState.deserialize s.serialize).exec t = (.ok ⟨⟩, t')) : Tracks t' log := by
  rcases RegistryState.deserialize_cases tracks.sized ran with
    ⟨-, st, failed⟩ | ⟨fences, lineage, imported, rfl, ⟨-, st, failed⟩ | rfl⟩
  · cases failed
  · cases failed
  obtain ⟨extents, records, -⟩ := FenceTable.importTable_own tracks.sized.records imported
  have sized := tracks.sized
  refine Tracks.rebuilt ⟨⟨sized.policy, sized.domains, ?_, ?_, sized.grants, sized.boots,
    sized.idempotency, sized.interrupts⟩, tracks.sound.withGrants rfl, tracks.grants,
    ⟨extents.trans tracks.mirrors.marks, tracks.mirrors.grants, tracks.mirrors.boots,
      tracks.mirrors.domains⟩, fun e => ?_, tracks.tokens,
    tracks.ids, tracks.incarnations, tracks.numbered, tracks.ordered, tracks.latest⟩
  · have same : fences.extents.size ≤ Limits.maxIndexedExtents := extents ▸ sized.extents
    exact same
  · have same : fences.records.length ≤ Limits.maxFenceRecords := records ▸ sized.records
    exact same
  · have shown : fences.highWater e = s.fences.highWater e := by
      simp only [FenceTable.highWater, FenceTable.find, extents]
    have mark : fences.highWater e ≤ s.tokenCounter := shown ▸ tracks.marked e
    exact mark

/-- Records behind the ones already tracked are applied one by one. -/
theorem replayed {rest : List JournalRecord} (tracks : Tracks s log)
    (ordered : (log ++ rest).Pairwise (·.sequence < ·.sequence))
    (ran : (rest.forM apply).exec s = (.ok ⟨⟩, s')) : Tracks s' (log ++ rest) := by
  induction rest generalizing s log with
  | nil =>
    cases ran
    rwa [List.append_nil]
  | cons record rest ih =>
    rw [Prog.forM_cons] at ran
    obtain ⟨_, s₁, first, ran⟩ := Prog.bind_ok ran
    have later : ∀ x ∈ log, x.sequence < record.sequence := fun x member =>
      (List.pairwise_append.mp ordered).2.2 x member record List.mem_cons_self
    rw [List.append_cons] at ordered ⊢
    exact ih (tracks.accepted later first) ordered ran

end Tracks

namespace History

theorem le_lastSequence {log : List JournalRecord}
    (ordered : log.Pairwise (·.sequence < ·.sequence)) :
    ∀ r ∈ log, r.sequence ≤ lastSequence log := by
  intro r member
  rcases List.eq_nil_or_concat log with rfl | ⟨before, last, rfl⟩
  · cases member
  · rw [List.concat_eq_append] at member ordered ⊢
    rw [lastSequence, List.getLast?_concat, Option.map_some, Option.getD_some]
    rcases List.mem_append.mp member with old | same
    · exact le_of_lt ((List.pairwise_append.mp ordered).2.2 r old last List.mem_cons_self)
    · rw [List.mem_singleton.mp same]

theorem lastSequence_lt {log rest : List JournalRecord}
    (ordered : (log ++ rest).Pairwise (·.sequence < ·.sequence))
    (numbered : ∀ r ∈ rest, r.sequence ≠ 0) : ∀ r ∈ rest, lastSequence log < r.sequence := by
  intro r member
  rcases List.eq_nil_or_concat log with rfl | ⟨before, last, rfl⟩
  · exact UInt64.pos_iff_ne_zero.mpr (numbered r member)
  · rw [List.concat_eq_append] at ordered ⊢
    rw [lastSequence, List.getLast?_concat, Option.map_some, Option.getD_some]
    exact (List.pairwise_append.mp ordered).2.2 last (by simp) r member

/-- Replay skips exactly the covered part. -/
theorem replay_parts {covers : Sequence} {before rest : List JournalRecord}
    (covered : ∀ r ∈ before, r.sequence ≤ covers) (open' : ∀ r ∈ rest, covers < r.sequence)
    (s : RegistryState) : (RegistryState.replay covers (before ++ rest)).exec s =
      (rest.forM RegistryState.apply).exec s := by
  induction before with
  | nil =>
    rw [List.nil_append, RegistryState.replay]
    induction rest generalizing s with
    | nil => rfl
    | cons r rest ih =>
      have above := open' r List.mem_cons_self
      rw [Prog.forM_cons, Prog.forM_cons, if_neg (not_le.mpr above), Prog.exec_bind, Prog.exec_bind]
      have tail := ih fun x member => open' x (List.mem_cons_of_mem r member)
      rcases (RegistryState.apply r).exec s with ⟨result, s'⟩
      cases result with
      | error st => rfl
      | ok u => exact tail s'
  | cons r before ih =>
    have skip := ih fun x member => covered x (List.mem_cons_of_mem r member)
    rw [RegistryState.replay, List.cons_append, Prog.forM_cons,
      if_pos (covered r List.mem_cons_self)]
    exact skip

/-- A snapshot of a state that tracked a leading part of the log. -/
def Saved (c : Checkpoint) (log : List JournalRecord) : Prop :=
  ∃ s before rest, c.blob = s.serialize ∧ log = before ++ rest ∧ c.covers = lastSequence before ∧
    Tracks s before

/-- The last record that a snapshot covers. -/
def covered : Option Checkpoint → Sequence
  | none => 0
  | some c => c.covers

theorem Saved.append {c : Checkpoint} {log : List JournalRecord} (saved : Saved c log)
    (more : List JournalRecord) : Saved c (log ++ more) := by
  obtain ⟨s, before, rest, blob, rfl, covers, tracks⟩ := saved
  exact ⟨s, before, rest ++ more, blob, List.append_assoc _ _ _, covers, tracks⟩

section Replay

variable {log : List JournalRecord} {s t t' : RegistryState}

/-- A fresh registry replays the whole log. -/
theorem replay_tracks (ordered : log.Pairwise (·.sequence < ·.sequence))
    (numbered : ∀ r ∈ log, r.sequence ≠ 0) (fresh : Tracks t [])
    (ran : (RegistryState.replay 0 log).exec t = (.ok ⟨⟩, s)) : Tracks s log := by
  have above : ∀ r ∈ log, (0 : Sequence) < r.sequence := fun r member =>
    UInt64.pos_iff_ne_zero.mpr (numbered r member)
  have skipped : (RegistryState.replay 0 ([] ++ log)).exec t =
      (log.forM RegistryState.apply).exec t := replay_parts (by simp) above t
  rw [List.nil_append] at skipped
  rw [skipped] at ran
  exact fresh.replayed ordered ran

/-- From a snapshot only what is behind it is replayed. -/
theorem restored_tracks {c : Checkpoint} (ordered : log.Pairwise (·.sequence < ·.sequence))
    (numbered : ∀ r ∈ log, r.sequence ≠ 0) (saved : Saved c log)
    (restored : (RegistryState.deserialize c.blob).exec t = (.ok ⟨⟩, t'))
    (ran : (RegistryState.replay c.covers log).exec t' = (.ok ⟨⟩, s)) : Tracks s log := by
  obtain ⟨s₁, before, rest, blob, rfl, covers, tracks⟩ := saved
  rw [blob] at restored
  have rest_numbered : ∀ r ∈ rest, r.sequence ≠ 0 := fun r member =>
    numbered r (List.mem_append_right before member)
  rw [replay_parts (covers ▸ le_lastSequence tracks.ordered)
    (covers ▸ lastSequence_lt ordered rest_numbered) t'] at ran
  exact (tracks.deserialized restored).replayed ordered ran

theorem reload_tracks {config : RegistryConfig} {clock : Step} {boot : BootRecord}
    {base : Option Checkpoint} {fabric : FabricStore}
    (ordered : log.Pairwise (·.sequence < ·.sequence))
    (numbered : ∀ r ∈ log, r.sequence ≠ 0) (saved : ∀ c, base = some c → Saved c log)
    (ran : (RegistryState.reload config clock boot base log).exec { fabric := fabric } =
      (.ok ⟨⟩, s)) : Tracks s log := by
  obtain ⟨_, s₀, begun, ran⟩ := Prog.bind_ok ran
  cases base with
  | none => exact replay_tracks ordered numbered (Tracks.initialised begun) ran
  | some c =>
    obtain ⟨_, s₂, restored, ran⟩ := Prog.bind_ok ran
    rw [Prog.exec_get_bind] at ran
    obtain ⟨-, ran⟩ := Prog.refuseIf_ok ran
    exact restored_tracks ordered numbered (saved c rfl) restored ran

end Replay

/-- A crash keeps the log and the records of some moves of the call in flight. -/
theorem survived_reach {h : History} (sound : h.live.lineage.Sound) (files : Restart) :
    ∃ v, Work.Reach h.work v ∧ h.survived files = h.log ++ v.emitted ∧
      (files.inFlight = none → v.emitted = []) ∧ ∀ op now k, files.inFlight = some (op, now, k) →
        v.emitted <+: (op.after now h.work).emitted := by
  unfold survived
  cases cut : files.inFlight with
  | none => exact ⟨h.work, .refl, (List.append_nil h.log).symm, fun _ => rfl, by simp⟩
  | some flight =>
    obtain ⟨op, now, k⟩ := flight
    have reached := Op.reach (w := h.work) sound now op
    obtain ⟨v, partly, emitted⟩ := Work.Reach.cut reached k (Nat.zero_le k)
    refine ⟨v, partly, by rw [emitted], by simp, ?_⟩
    intro op' now' k' same
    cases same
    exact emitted ▸ List.take_prefix k _

/-- The invariant of every history, with a law of the log that a claim adds. -/
structure Kept (law : List JournalRecord → Prop) (h : History) : Prop where
  tracks : Tracks h.live h.log
  lawful : law h.log
  saved : ∀ c ∈ h.checkpoints, Saved c h.log

/-- The event runs this operation, to its end or until a crash. -/
def Runs (event : Event) (op : Op) (now : Step) : Prop :=
  event = .call op now ∨ ∃ files k, event = .restart files ∧ files.inFlight = some (op, now, k)

section Kept

variable {law : List JournalRecord → Prop} {h h' : History} {event : Event}

theorem Kept.emits (kept : Kept law h) {v : Work} (reached : Work.Reach h.work v) :
    Tracks v.state (h.log ++ v.emitted) := by
  have start : Tracks h.work.state (h.log ++ h.work.emitted) := by
    have tracks := kept.tracks
    rwa [← List.append_nil h.log] at tracks
  exact start.reach reached

theorem Kept.step (kept : Kept law h)
    (logged : ∀ op now v, Runs event op now → Work.Reach h.work v →
      v.emitted <+: (op.after now h.work).emitted → law (h.log ++ v.emitted))
    (stepped : h.step event = some h') : Kept law h' := by
  cases step_cases stepped with
  | called op now =>
    have reached := Op.reach (w := h.work) kept.tracks.sound now op
    exact ⟨kept.emits reached, logged op now _ (.inl rfl) reached List.prefix_rfl,
      fun c member => (kept.saved c member).append _⟩
  | saved =>
    refine ⟨kept.tracks, kept.lawful, fun c member => ?_⟩
    rcases List.mem_append.mp member with old | new
    · exact kept.saved c old
    · rw [List.mem_singleton.mp new]
      exact ⟨h.live, h.log, [], rfl, (List.append_nil _).symm, rfl, kept.tracks⟩
  | rebuilt s fills =>
    refine ⟨?_, kept.lawful, kept.saved⟩
    rcases fills with rfl | rfl
    · exact kept.tracks
    · exact kept.tracks.rebuilt
  | ticked room =>
    exact ⟨kept.tracks.withSame { kept.tracks.sized with } rfl rfl rfl le_rfl le_rfl le_rfl le_rfl,
      kept.lawful, kept.saved⟩
  | reloaded files s ran =>
    have survives : ∃ v, Work.Reach h.work v ∧ h.survived files = h.log ++ v.emitted ∧
        law (h.log ++ v.emitted) := by
      obtain ⟨v, partly, log, short⟩ := survived_reach kept.tracks.sound files
      refine ⟨v, partly, log, ?_⟩
      cases cut : files.inFlight with
      | none =>
        have lawful := kept.lawful
        rwa [short.1 cut, List.append_nil]
      | some flight =>
        obtain ⟨op, now, k⟩ := flight
        exact logged op now v (.inr ⟨files, k, rfl, cut⟩) partly (short.2 op now k cut)
    obtain ⟨v, reached, log, lawful⟩ := survives
    have tracks := kept.emits reached
    rw [log] at ran
    refine ⟨?_, ?_, ?_⟩
    · simp only [log]
      refine reload_tracks tracks.ordered tracks.numbered (fun c found => ?_) ran
      obtain ⟨i, -, here⟩ := Option.bind_eq_some_iff.mp found
      exact (kept.saved c (List.mem_of_getElem? here)).append _
    · simp only [log]
      exact lawful
    · intro c member
      simp only [log]
      exact (kept.saved c member).append _

theorem kept_start {config : RegistryConfig} {clock : Step} {boot : BootRecord}
    {fabric : FabricStore} (empty : law []) (begun : start config clock boot fabric = some h) :
    Kept law h := by
  obtain ⟨s, ran, rfl⟩ := start_ok begun
  exact ⟨Tracks.initialised ran, empty, by simp⟩

/-- A law that the empty log meets and every move keeps holds in every history. -/
theorem Reachable.kept {allowed : History → Event → Prop} (empty : law [])
    (keeps : ∀ log w w', Tracks w.state (log ++ w.emitted) → law (log ++ w.emitted) →
      Work.Move w w' → law (log ++ w'.emitted))
    (reached : Reachable allowed h) : Kept law h := by
  refine reached.invariant (fun _ _ _ _ _ begun => kept_start empty begun) ?_
  intro h event h' kept _ stepped
  refine kept.step (fun op now v _ reach short => ?_) stepped
  clear short
  have begins : Tracks h.work.state (h.log ++ h.work.emitted) ∧ law (h.log ++ h.work.emitted) := by
    have tracks := kept.tracks
    have lawful := kept.lawful
    rw [← List.append_nil h.log] at tracks lawful
    exact ⟨tracks, lawful⟩
  have both : Tracks v.state (h.log ++ v.emitted) ∧ law (h.log ++ v.emitted) := by
    induction reach with
    | refl => exact begins
    | tail _ move ih => exact ⟨ih.1.move move, keeps h.log _ _ ih.1 ih.2 move⟩
  exact both.2

end Kept
end History
end SplitBrainFabric
