import SplitBrainFabric.GrantLife
import Mathlib.Data.List.Pairwise

/-! What the registry can rely on when it gives authority up: every grant is named and
sealed, its domain is registered with its extents, and each of them has a mark. -/

namespace SplitBrainFabric
open Words Decoder

/-- What a reader has checked before it hands an entry out. -/
def Entry.Legible : Entry → Prop
  | .bootBegin boot | .bootEnd boot => boot.node.isEmpty = false
  | .domainDefine d => d.domain.isEmpty = false ∧ d.node.isEmpty = false ∧ d.policy.isEmpty = false
  | .grantOpen g | .grantClose g => g.domain.isEmpty = false ∧ g.scope = g.extents.digest
  | .fence r scope | .extentAdopt r scope => r.domain.isEmpty = false ∧ r.scope = scope.digest
  | .interruptMark mark => mark.domain.isEmpty = false
  | _ => True

theorem JournalRecord.legible {r : JournalRecord} {entry : Entry} (read : r.entry = .ok entry) :
    entry.Legible := by
  have mapped : ∀ {α : Type} {item : Reader.Read α} {P : α → Prop} {f : α → Entry},
      Yields item P → (Reader.decode item r.payload).map f = .ok entry → ∃ a, P a ∧ entry = f a := by
    intro α item P f yields found
    cases decoded : Reader.decode item r.payload with
    | error st => rw [decoded] at found; cases found
    | ok a =>
      rw [decoded] at found
      cases found
      exact ⟨a, yields.whole decoded, rfl⟩
  unfold JournalRecord.entry at read
  cases kind : r.kind with
  | storeHeader | storeIdAssign | stepAdvance | commitRecord =>
    rw [kind] at read; cases read; trivial
  | bootBegin | bootEnd =>
    rw [kind] at read
    obtain ⟨boot, named, rfl⟩ := mapped decodeBootRecord_yields read
    exact named
  | policyDefine =>
    rw [kind] at read
    obtain ⟨p, -, rfl⟩ := mapped decodePolicy_yields read
    trivial
  | domainDefine =>
    rw [kind] at read
    obtain ⟨d, named, rfl⟩ := mapped decodeDomain_yields read
    exact named
  | grantOpen | grantClose =>
    rw [kind] at read
    obtain ⟨g, named, rfl⟩ := mapped decodeGrant_yields read
    exact named
  | fence | extentAdopt =>
    rw [kind] at read
    obtain ⟨p, named, rfl⟩ := mapped decodeFencePayload_yields read
    exact named
  | incarnationAllocate =>
    rw [kind] at read
    obtain ⟨v, -, rfl⟩ := @mapped UInt64 Reader.u64 (fun _ => True) .incarnationAllocate
      (fun _ _ _ _ => trivial) read
    trivial
  | interruptMark =>
    rw [kind] at read
    obtain ⟨mark, named, rfl⟩ := mapped decodeInterrupt_yields read
    exact named

/-- A grant after an entry is a grant from before, perhaps closed, or the one opened. -/
theorem Entry.mem_grants {entry : Entry} {before : List EpochGrant} {g : EpochGrant}
    (member : g ∈ entry.grants before) :
    g ∈ before ∨ (∃ o ∈ before, ∃ state reason now, state ≠ .open ∧ g = o.close state reason now) ∨
      entry = .grantOpen g := by
  cases entry with
  | grantOpen opened =>
    rcases List.mem_append.mp member with old | last
    · exact .inl ((LineageTable.roomFor_sublist before).subset old)
    · rw [List.mem_singleton.mp last]
      exact .inr (.inr rfl)
  | grantClose closed =>
    rcases Entry.grants_close before closed with same | ⟨ends, same⟩
    · exact .inl (same ▸ member)
    · rw [same] at member
      rcases mem_updateFirst member with old | ⟨o, old, -, rfl⟩
      · exact .inl old
      · exact .inr (.inl ⟨o, old, _, _, _, ends, rfl⟩)
  | silent | bootBegin _ | bootEnd _ | policyDefine _ | domainDefine _ | fence _ _
  | extentAdopt _ _ | commitRecord | incarnationAllocate _ | interruptMark _ => exact .inl member

namespace LineageTable

theorem mem_beginBoot {record b : BootRecord} {t : LineageTable}
    (member : b ∈ ((beginBoot record).exec t).2.boots) : b ∈ t.boots ∨ b = record := by
  simp only [beginBoot, Prog.exec_refuseIf, Prog.exec_get_bind] at member
  split at member
  · exact .inl member
  split at member
  · exact .inl member
  · simp only [Prog.exec_modify, bumpGeneration, List.mem_append, List.mem_singleton] at member
    refine member.imp_left fun old => ?_
    split at old
    · exact List.mem_of_mem_tail old
    · exact old

theorem mem_endBoot {boot : BootId} {now : Step} {clean : Bool} {b : BootRecord}
    {t : LineageTable} (member : b ∈ ((endBoot boot now clean).exec t).2.boots) :
    b ∈ t.boots ∨ ∃ old ∈ t.boots, b.node = old.node := by
  rw [endBoot, Prog.exec_get_bind] at member
  split at member
  · exact .inl member
  · simp only [Prog.exec_refuseIf] at member
    split at member
    · exact .inl member
    · rcases mem_updateFirst member with old | ⟨x, old, -, rfl⟩
      · exact .inl old
      · exact .inr ⟨x, old, rfl⟩

end LineageTable

namespace RegistryState

section Enact

variable {s s' : RegistryState} {r : Except Status PUnit} {entry : Entry}

/-- A mark may rise but never goes away. -/
theorem enact_tabled {e : ExtentId} (tabled : (s.fences.find e).isSome = true)
    (ran : (enact entry).exec s = (r, s')) : (s'.fences.find e).isSome = true := by
  have raised : ∀ record l, ((FenceTable.raiseAll record l s.fences.extents).find e).isSome =
      true := by
    intro record l
    rw [FenceTable.find_raiseAll]
    split
    · rfl
    · exact tabled
  cases entry with
  | fence record scope =>
    rcases enact_fence ran with ⟨_, _, rfl⟩ | ⟨st, fences, _, applied, rfl⟩
    · have shown : ((s.fences.applied record scope).find e).isSome = true := by
        rw [FenceTable.find, FenceTable.applied_extents]
        exact raised record _
      exact shown
    · obtain ⟨done, rest, -, -, marks, -⟩ := FenceTable.apply_error applied
      have shown : (fences.find e).isSome = true := by
        rw [FenceTable.find, marks]
        exact raised record done
      exact shown
  | extentAdopt record scope =>
    rcases enact_extentAdopt ran with ⟨_, _, rfl⟩ | ⟨_, rfl⟩
    · have shown : ((s.fences.adopted scope record.token record.fencedEpoch
          record.fencedIncarnation record.supersededGrant record.issuedAt).find e).isSome =
          true := by
        rw [FenceTable.adopted_find]
        split
        · rfl
        · exact tabled
      exact shown
    · exact tabled
  | silent | bootBegin _ | bootEnd _ | policyDefine _ | domainDefine _ | grantOpen _
  | grantClose _ | commitRecord | incarnationAllocate _ | interruptMark _ =>
    rw [enact_fences rfl ran]
    exact tabled

end Enact

/-- What the registry finds behind each of its grants and boots. -/
structure Grounded (s : RegistryState) : Prop where
  named : ∀ g ∈ s.lineage.grants, g.domain.isEmpty = false
  digest : ∀ g ∈ s.lineage.grants, g.scope = g.extents.digest
  filled : ∀ g ∈ s.lineage.grants, g.extents.isEmpty = false
  tabled : ∀ g ∈ s.lineage.grants, ∀ e ∈ g.extents.extents, (s.fences.find e).isSome = true
  registered : ∀ g ∈ s.lineage.grants, ∃ known, s.domains.find g.domain = some known ∧
    known.scope = g.extents
  placed : ∀ b ∈ s.lineage.boots, b.node.isEmpty = false

theorem Grounded.mirrored {s t : RegistryState} (grounded : Grounded t) (mirrors : Mirrors s t) :
    Grounded s where
  named := by rw [mirrors.grants]; exact grounded.named
  digest := by rw [mirrors.grants]; exact grounded.digest
  filled := by rw [mirrors.grants]; exact grounded.filled
  tabled := by
    rw [mirrors.grants]
    intro g member e inside
    have found := grounded.tabled g member e inside
    rwa [FenceTable.find, mirrors.marks]
  registered := by rw [mirrors.grants, mirrors.domains]; exact grounded.registered
  placed := by rw [mirrors.boots]; exact grounded.placed

theorem Mirrors.symm {s t : RegistryState} (mirrors : Mirrors s t) : Mirrors t s :=
  ⟨mirrors.marks.symm, mirrors.grants.symm, mirrors.boots.symm, mirrors.domains.symm⟩

/-- What a new grant must bring for the registry to stay grounded. -/
structure Backed (s : RegistryState) (g : EpochGrant) : Prop where
  filled : g.extents.isEmpty = false
  tabled : ∀ e ∈ g.extents.extents, (s.fences.find e).isSome = true
  registered : ∃ known, s.domains.find g.domain = some known ∧ known.scope = g.extents
  free : ∀ o ∈ s.lineage.grants, o.isOpen = true → o.extents.overlaps g.extents = false

theorem enact_few {s s' : RegistryState} {r : Except Status PUnit} {entry : Entry}
    (few : s.domains.size ≤ Limits.maxDomains) (ran : (enact entry).exec s = (r, s')) :
    s'.domains.size ≤ Limits.maxDomains := by
  cases entry with
  | domainDefine d =>
    rcases enact_domainDefine ran with rfl | ⟨_, room, rfl⟩
    · exact few
    · have one := SortedTable.size_put_le s.domains d
      have bound : (s.domains.put d).size ≤ Limits.maxDomains := by omega
      exact bound
  | silent | bootBegin _ | bootEnd _ | policyDefine _ | grantOpen _ | grantClose _ | fence _ _
  | extentAdopt _ _ | commitRecord | incarnationAllocate _ | interruptMark _ =>
    rw [enact_definitions rfl ran]
    exact few

theorem enact_boots {s s' : RegistryState} {r : Except Status PUnit} {entry : Entry}
    (legible : entry.Legible) (placed : ∀ b ∈ s.lineage.boots, b.node.isEmpty = false)
    (ran : (enact entry).exec s = (r, s')) : ∀ b ∈ s'.lineage.boots, b.node.isEmpty = false := by
  cases entry with
  | bootBegin boot =>
    rw [enact_bootBegin ran]
    intro b member
    rcases LineageTable.mem_beginBoot member with old | rfl
    · exact placed b old
    · exact legible
  | bootEnd boot =>
    rw [enact_bootEnd ran]
    intro b member
    rcases LineageTable.mem_endBoot member with old | ⟨old, inside, same⟩
    · exact placed b old
    · rw [same]
      exact placed old inside
  | grantOpen g =>
    rw [enact, Prog.exec_modify_bind, onLineage_exec] at ran
    have boots := LineageTable.openGrant_boots g s.lineage
    cases ran
    intro b member
    exact placed b (boots ▸ member)
  | grantClose g =>
    rcases enact_grantClose ran with ⟨-, -, -, rfl⟩ | ⟨rfl, -⟩
    · exact placed
    · exact placed
  | silent | policyDefine _ | domainDefine _ | fence _ _ | extentAdopt _ _ | commitRecord
  | incarnationAllocate _ | interruptMark _ =>
    rw [enact_lineage rfl ran]
    exact placed

theorem Grounded.enact {s s' : RegistryState} {r : Except Status PUnit} {entry : Entry}
    (grounded : Grounded s) (sound : s.lineage.Sound) (legible : entry.Legible)
    (backed : ∀ g, entry = .grantOpen g → Backed s g)
    (ran : (RegistryState.enact entry).exec s = (r, s')) : Grounded s' := by
  have same : ∀ g ∈ s'.lineage.grants,
      (∃ o ∈ s.lineage.grants, g.domain = o.domain ∧ g.scope = o.scope ∧ g.extents = o.extents) ∨
        entry = .grantOpen g := by
    intro g member
    obtain ⟨accepted, refused⟩ := enact_grants sound ran
    cases r with
    | error st => exact .inl ⟨g, refused ⟨st, rfl⟩ ▸ member, rfl, rfl, rfl⟩
    | ok u =>
      rw [accepted rfl] at member
      rcases Entry.mem_grants member with old | ⟨o, old, _, _, _, _, rfl⟩ | opened
      · exact .inl ⟨g, old, rfl, rfl, rfl⟩
      · exact .inl ⟨o, old, rfl, rfl, rfl⟩
      · exact .inr opened
  refine ⟨?_, ?_, ?_, ?_, ?_, enact_boots legible grounded.placed ran⟩
  · intro g member
    rcases same g member with ⟨o, old, domain, -, -⟩ | rfl
    · rw [domain]
      exact grounded.named o old
    · exact legible.1
  · intro g member
    rcases same g member with ⟨o, old, -, scope, extents⟩ | rfl
    · rw [scope, extents]
      exact grounded.digest o old
    · exact legible.2
  · intro g member
    rcases same g member with ⟨o, old, -, -, extents⟩ | rfl
    · rw [extents]
      exact grounded.filled o old
    · exact (backed g rfl).filled
  · intro g member e inside
    refine enact_tabled ?_ ran
    rcases same g member with ⟨o, old, -, -, extents⟩ | rfl
    · exact grounded.tabled o old e (extents ▸ inside)
    · exact (backed g rfl).tabled e inside
  · intro g member
    have found : ∃ known, s.domains.find g.domain = some known ∧ known.scope = g.extents := by
      rcases same g member with ⟨o, old, domain, -, extents⟩ | rfl
      · rw [domain, extents]
        exact grounded.registered o old
      · exact (backed g rfl).registered
    obtain ⟨known, found, scope⟩ := found
    exact ⟨known, enact_domains found ran, scope⟩

/-- A registry that can give up whatever authority it has handed out. -/
structure Footing (s : RegistryState) : Prop extends Grounded s where
  sound : s.lineage.Sound
  exclusive : Exclusive s.lineage.grants
  few : s.domains.size ≤ Limits.maxDomains
  marked : ∀ e, s.fences.highWater e ≤ s.tokenCounter
  numbered : ∀ g ∈ s.lineage.grants, g.id ≤ s.grantCounter

theorem Footing.apply {s s' : RegistryState} {r : Except Status PUnit} {record : JournalRecord}
    (footing : Footing s) (backed : ∀ g, record.entry = .ok (.grantOpen g) → Backed s g)
    (ran : (RegistryState.apply record).exec s = (r, s')) : Footing s' := by
  rcases apply_cases ran with ⟨rfl, -, -⟩ | ⟨-, -, ⟨st, -, -, rfl⟩ | ⟨entry, read, enacted⟩⟩
  · exact footing
  · exact { footing with }
  have observed : Footing (s.observe record) := { footing with }
  have grounded := observed.toGrounded.enact observed.sound (JournalRecord.legible read)
    (fun g same => { backed g (same ▸ read) with }) enacted
  have exclusive : Exclusive s'.lineage.grants := by
    obtain ⟨accepted, refused⟩ := enact_grants observed.sound enacted
    cases r with
    | error st =>
      rw [refused ⟨st, rfl⟩]
      exact footing.exclusive
    | ok u =>
      rw [accepted rfl]
      exact observed.exclusive.entry fun g same => (backed g (same ▸ read)).free
  refine { grounded with
    sound := enact_sound observed.sound enacted
    exclusive := exclusive
    few := enact_few observed.few enacted
    marked := enact_marked observed.marked enacted
    numbered := fun g member => ?_ }
  obtain ⟨-, -, ids, newId, -, -⟩ := enact_counters enacted
  obtain ⟨accepted, refused⟩ := enact_grants observed.sound enacted
  cases r with
  | error st => exact (footing.numbered g (refused ⟨st, rfl⟩ ▸ member)).trans ids
  | ok u =>
    rw [accepted rfl] at member
    rcases Entry.mem_grants member with old | ⟨o, old, _, _, _, _, rfl⟩ | rfl
    · exact (footing.numbered g old).trans ids
    · exact (footing.numbered o old).trans ids
    · exact newId

/-- Grants of one domain hold the same extents. -/
theorem Footing.same_extents {s : RegistryState} (footing : Footing s) {g o : EpochGrant}
    (left : g ∈ s.lineage.grants) (right : o ∈ s.lineage.grants) (same : g.domain = o.domain) :
    g.extents = o.extents := by
  obtain ⟨known, found, scope⟩ := footing.registered g left
  obtain ⟨known', found', scope'⟩ := footing.registered o right
  rw [same, found'] at found
  cases found
  rw [← scope, ← scope']

/-- An extent has at most one open grant. -/
theorem Footing.same_of_shared {s : RegistryState} (footing : Footing s) {g o : EpochGrant}
    {e : ExtentId} (left : g ∈ s.lineage.grants) (right : o ∈ s.lineage.grants)
    (active : g.isOpen = true) (active' : o.isOpen = true) (inside : e ∈ g.extents.extents)
    (shared : e ∈ o.extents.extents) : o = g := by
  by_contra other
  have symmetric : Std.Symm fun g o : EpochGrant => g.isOpen = true → o.isOpen = true →
      ∀ e ∈ g.extents.extents, e ∉ o.extents.extents :=
    ⟨fun x y apart active active' e inside shared => apart active' active e shared inside⟩
  exact footing.exclusive.forall right left other active' active e shared inside

/-- A domain has at most one open grant, so there are never more of them than domains. -/
theorem Footing.open_few {s : RegistryState} (footing : Footing s) :
    (s.lineage.grants.filter (·.isOpen)).length ≤ Limits.maxDomains := by
  have distinct : ((s.lineage.grants.filter (·.isOpen)).map (·.domain)).Nodup := by
    rw [List.nodup_iff_pairwise_ne, List.pairwise_map]
    refine (footing.exclusive.filter _).imp_of_mem fun {g o} inLeft inRight apart same => ?_
    obtain ⟨left, active⟩ := List.mem_filter.mp inLeft
    obtain ⟨right, active'⟩ := List.mem_filter.mp inRight
    have extents := footing.same_extents left right same
    obtain ⟨e, inside⟩ := Scope.exists_extent (footing.filled g left)
    exact apart active active' e inside (extents ▸ inside)
  have known : (s.lineage.grants.filter (·.isOpen)).map (·.domain) ⊆
      s.domains.rows.map (·.domain) := by
    intro domain member
    obtain ⟨g, inside, rfl⟩ := List.mem_map.mp member
    obtain ⟨d, found, -⟩ := footing.registered g (List.mem_filter.mp inside).1
    obtain ⟨row, key⟩ := SortedTable.find_eq_some.mp found
    exact List.mem_map.mpr ⟨d, row, key⟩
  have length := (distinct.subperm known).length_le
  rw [List.length_map, List.length_map] at length
  exact length.trans footing.few

/-- The lineage always has room for one more grant. -/
theorem Footing.room {s : RegistryState} (footing : Footing s) :
    s.lineage.grants.length < Limits.maxLineageEntries ∨
      s.lineage.grants.any (!·.isOpen) = true := by
  by_contra full
  rw [not_or, List.any_eq_true] at full
  obtain ⟨long, none⟩ := full
  have all : s.lineage.grants.filter (·.isOpen) = s.lineage.grants := by
    rw [List.filter_eq_self]
    intro g member
    by_contra closed
    exact none ⟨g, member, by simpa using closed⟩
  have few := footing.open_few
  rw [all] at few
  simp only [Limits.maxDomains] at few
  simp only [Limits.maxLineageEntries] at long
  omega

end RegistryState

namespace Work

open RegistryState (Footing Backed bumpGeneration bumpIncarnation)

/-- An adopted scope has its marks. -/
theorem Adoption.backed {s s₁ : RegistryState} {g : EpochGrant} {adopt : JournalRecord}
    (adoption : Adoption s g adopt s₁) : Backed (bumpGeneration s₁) g := by
  obtain ⟨known, found, scope⟩ := adoption.opens.registered
  obtain ⟨now, read⟩ := adoption.read
  have stays := RegistryState.apply_domains found adoption.ran
  have lineage : s₁.lineage = s.lineage := RegistryState.apply_lineage (fun entry said => by
    rw [read] at said
    cases said
    rfl) adoption.ran
  obtain ⟨-, -, entry, same, enacted⟩ := RegistryState.apply_ok adoption.ran
  rw [read] at same
  cases same
  rcases RegistryState.enact_extentAdopt enacted with ⟨-, ready, rfl⟩ | ⟨⟨st, failed⟩, -⟩
  · refine ⟨ready.filled, fun e inside => ?_, ⟨known, stays, scope⟩, fun o member => ?_⟩
    have found : (((s.observe adopt).fences.adopted g.extents (adoptRecord g now).token
        (adoptRecord g now).fencedEpoch (adoptRecord g now).fencedIncarnation
        (adoptRecord g now).supersededGrant (adoptRecord g now).issuedAt).find e).isSome = true := by
      rw [FenceTable.adopted_find, if_pos inside]
      rfl
    exact found
    · have old : o ∈ s.lineage.grants := lineage ▸ member
      exact adoption.opens.free o old
  · cases failed

theorem preserved_footing : Preserved Footing where
  aside := fun _ _ _ _ footing => { footing with }
  counted := fun _ footing => { footing with }
  single := fun s record r s' footing _ sane ran => footing.apply
    (fun g read => absurd (sane _ read) (fun impossible => impossible)) ran
  boot := fun s record r s' footing _ _ boots ran => by
    have bumped : Footing (bumpIncarnation s) := { footing with }
    refine bumped.apply (fun g read => ?_) ran
    obtain ⟨boot, same, -⟩ := boots _ read
    cases same
  grant := fun _ g _ _ _ _ _ _ adoption footing _ reads ran => footing.apply
    (fun g' read => by cases reads _ read; exact adoption.backed) ran

end Work

namespace History

open RegistryState (Footing Grounded)

theorem Tracks.footing {s : RegistryState} {log : List JournalRecord} (tracks : Tracks s log)
    (grounded : Grounded (tablesOf log)) (exclusive : Exclusive (grantsOf log)) : Footing s where
  toGrounded := grounded.mirrored tracks.mirrors
  sound := tracks.sound
  exclusive := tracks.grants ▸ exclusive
  few := tracks.sized.domains
  marked := tracks.marked
  numbered := by
    intro g member
    rw [tracks.grants] at member
    obtain ⟨origin, opened, id, -⟩ := opened_by_log member
    obtain ⟨r, inside, said⟩ := mem_opensOf.mp opened
    have bound := tracks.ids r inside
    rw [said] at bound
    exact id ▸ bound

/-- Every registry that a history reaches stands on its tables. -/
theorem Reachable.footing {allowed : History → Event → Prop} {h : History}
    (reached : Reachable allowed h) : Footing h.live := by
  have empty : Grounded (tablesOf []) := ⟨by simp [tablesOf], by simp [tablesOf],
    by simp [tablesOf], by simp [tablesOf], by simp [tablesOf], by simp [tablesOf]⟩
  have kept : Kept (fun log => Grounded (tablesOf log) ∧ Exclusive (grantsOf log)) h := by
    refine reached.kept ⟨empty, List.Pairwise.nil⟩ fun log w w' tracks lawful move => ?_
    obtain ⟨grounded, exclusive⟩ := lawful
    have footing := Work.preserved_footing.move (Tracks.footing tracks grounded exclusive) move
    have after := tracks.move move
    exact ⟨footing.toGrounded.mirrored after.mirrors.symm, after.grants ▸ footing.exclusive⟩
  exact Tracks.footing kept.tracks kept.lawful.1 kept.lawful.2

end History
end SplitBrainFabric
