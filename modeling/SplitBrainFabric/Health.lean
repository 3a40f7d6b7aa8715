import SplitBrainFabric.RegistryAudit
import SplitBrainFabric.Restart
import SplitBrainFabric.OperationEnds

/-! What of the registry audit holds in every registry that a history reaches, and what
does not: a fence can disown grants that stay open. -/

namespace SplitBrainFabric
open Words RegistryAudit

/-- Every mark is of a named extent and carries a token. -/
def Stamped (t : FenceTable) : Prop :=
  ∀ e state, t.find e = some state → e.isEmpty = false ∧ state.highWaterToken ≠ 0

namespace FenceTable

theorem validateFrom_ok {rows : List ExtentFenceState} {i : Nat} {previous : Option ExtentId}
    (sorted : rows.Pairwise (·.extent < ·.extent))
    (above : ∀ p ∈ previous, ∀ r ∈ rows, p < r.extent)
    (named : ∀ r ∈ rows, r.extent.isEmpty = false ∧ r.highWaterToken ≠ 0) :
    validateFrom i previous rows = .ok () := by
  induction rows generalizing i previous with
  | nil => rfl
  | cons state rest ih =>
    obtain ⟨head, tail⟩ := List.pairwise_cons.mp sorted
    obtain ⟨extent, token⟩ := named state List.mem_cons_self
    have ordered : previous.any (fun p => decide (¬ p < state.extent)) = false := by
      cases previous with
      | none => rfl
      | some p => simp [above p rfl state List.mem_cons_self]
    rw [validateFrom, if_neg (by simp [extent]), if_neg token, if_neg (Bool.eq_false_iff.mp ordered)]
    refine ih tail ?_ fun r member => named r (List.mem_cons_of_mem state member)
    rintro p ⟨⟩ r member
    exact head r member

end FenceTable

theorem Stamped.validate {t : FenceTable} (stamped : Stamped t) : t.validate = .ok () := by
  refine FenceTable.validateFrom_ok t.extents.sorted (by simp) fun r member => ?_
  exact stamped r.extent r (SortedTable.find_mem member)

namespace LineageTable

/-- Epochs rise within a domain, and every grant has a number. -/
structure Rising (grants : List EpochGrant) : Prop where
  epochs : grants.Pairwise fun g o => g.domain = o.domain → g.epoch < o.epoch
  numbered : ∀ g ∈ grants, g.id ≠ 0

theorem checkGrants_ok {wellFormed : EpochGrant → Bool} {earlier grants : List EpochGrant}
    (formed : ∀ g ∈ grants, wellFormed g = true)
    (distinct : ((earlier.reverse ++ grants).map (·.id)).Nodup)
    (epochs : (earlier.reverse ++ grants).Pairwise fun g o => g.domain = o.domain →
      g.epoch < o.epoch)
    (single : (earlier.reverse ++ grants).Pairwise fun g o => g.isOpen = true → o.isOpen = true →
      g.domain ≠ o.domain) : checkGrants wellFormed earlier grants = .ok () := by
  induction grants generalizing earlier with
  | nil => rfl
  | cons g rest ih =>
    have before : ∀ o ∈ earlier, o ∈ earlier.reverse := fun o member => List.mem_reverse.mpr member
    have fresh : earlier.any (fun o => decide (o.id = g.id)) = false := by
      rw [List.any_eq_false]
      intro o member
      rw [List.map_append, List.nodup_append] at distinct
      have apart := distinct.2.2 o.id (List.mem_map.mpr ⟨o, before o member, rfl⟩) g.id (by simp)
      simpa using apart
    have ahead : ¬ g.epoch < ((earlier.find? (·.domain = g.domain)).map (·.epoch)).getD 0 := by
      cases found : earlier.find? (·.domain = g.domain) with
      | none => simp
      | some o =>
        have member := before o (List.mem_of_find?_eq_some found)
        have same : o.domain = g.domain := by simpa using List.find?_some found
        have below := (List.pairwise_append.mp epochs).2.2 o member g (by simp) same
        simpa using le_of_lt below
    have alone : (g.isOpen && earlier.any fun o => o.isOpen && decide (o.domain = g.domain) &&
        decide (o.scope.hex = g.scope.hex)) = false := by
      by_contra shared
      rw [Bool.not_eq_false, Bool.and_eq_true, List.any_eq_true] at shared
      obtain ⟨active, o, member, same⟩ := shared
      simp only [Bool.and_eq_true, decide_eq_true_eq] at same
      exact (List.pairwise_append.mp single).2.2 o (before o member) g (by simp) same.1.1 active
        same.1.2
    have shift : (g :: earlier).reverse ++ rest = earlier.reverse ++ g :: rest := by simp
    rw [checkGrants, if_neg (by simp [formed g List.mem_cons_self]), if_neg (by simp [fresh]),
      if_neg ahead, if_neg (by simp [alone])]
    refine ih (fun o member => formed o (List.mem_cons_of_mem g member)) ?_ ?_ ?_
    · rwa [shift]
    · rwa [shift]
    · rwa [shift]

end LineageTable

namespace RegistryState

open LineageTable (Rising)

variable {s s' : RegistryState} {r : Except Status PUnit} {entry : Entry}

theorem enact_stamped (stamped : Stamped s.fences)
    (fresh : ∀ record scope, entry = .fence record scope → record.token ≠ 0 ∧
      ∀ e, s.fences.highWater e ≤ record.token)
    (ran : (enact entry).exec s = (r, s')) : Stamped s'.fences := by
  cases entry with
  | fence record scope =>
    obtain ⟨set, above⟩ := fresh record scope rfl
    rcases enact_fence ran with ⟨_, _, rfl⟩ | ⟨st, fences, _, applied, rfl⟩
    · intro e state found
      have found : (s.fences.applied record scope).find e = some state := found
      rw [FenceTable.applied_find] at found
      split at found
      · rename_i inside
        cases found
        exact ⟨scope.named e inside, set⟩
      · exact stamped e state found
    · intro e state found
      have found : fences.find e = some state := found
      rw [FenceTable.find, FenceTable.apply_refused above applied] at found
      exact stamped e state found
  | extentAdopt record scope =>
    rcases enact_extentAdopt ran with ⟨_, ready, rfl⟩ | ⟨_, rfl⟩
    · intro e state found
      have found : (s.fences.adopted scope record.token record.fencedEpoch
        record.fencedIncarnation record.supersededGrant record.issuedAt).find e = some state := found
      rw [FenceTable.adopted_find] at found
      split at found
      · rename_i inside
        cases found
        exact ⟨scope.named e inside, ready.set⟩
      · exact stamped e state found
    · exact stamped
  | silent | bootBegin _ | bootEnd _ | policyDefine _ | domainDefine _ | grantOpen _
  | grantClose _ | commitRecord | incarnationAllocate _ | interruptMark _ =>
    rw [enact_fences rfl ran]
    exact stamped

theorem apply_stamped {record : JournalRecord} (stamped : Stamped s.fences)
    (fresh : ∀ fence scope, record.entry = .ok (.fence fence scope) → fence.token ≠ 0 ∧
      ∀ e, s.fences.highWater e ≤ fence.token)
    (ran : (apply record).exec s = (r, s')) : Stamped s'.fences := by
  rcases apply_cases ran with ⟨rfl, -, -⟩ | ⟨-, -, ⟨st, -, -, rfl⟩ | ⟨entry, read, enacted⟩⟩
  · exact stamped
  · exact stamped
  · have observed : Stamped (s.observe record).fences := stamped
    exact enact_stamped observed (fun fence scope same => fresh fence scope (same ▸ read)) enacted

end RegistryState

namespace Work

open RegistryState (Footing bumpGeneration bumpIncarnation)

theorem preserved_stamped : Preserved (fun s => Footing s ∧ Stamped s.fences) where
  aside := fun s hits restarts fabric both =>
    ⟨preserved_footing.aside s hits restarts fabric both.1, both.2⟩
  counted := fun s both => ⟨preserved_footing.counted s both.1, both.2⟩
  single := fun s record r s' both next sane ran => by
    refine ⟨preserved_footing.single s record r s' both.1 next sane ran, ?_⟩
    refine RegistryState.apply_stamped both.2 (fun fence scope read => ?_) ran
    obtain ⟨room, token⟩ := sane _ read
    rw [token]
    exact ⟨succ_ne_zero room, fun e => (both.1.marked e).trans (le_of_lt (lt_succ room))⟩
  boot := fun s record r s' both room next boots ran => by
    refine ⟨preserved_footing.boot s record r s' both.1 room next boots ran, ?_⟩
    have stamped : Stamped (bumpIncarnation s).fences := both.2
    refine RegistryState.apply_stamped stamped (fun fence scope read => ?_) ran
    obtain ⟨boot, same, -⟩ := boots _ read
    cases same
  grant := fun s g adopt s₁ record r s₂ both adoption between next reads ran => by
    refine ⟨preserved_footing.grant s g adopt s₁ record r s₂ both.1 adoption between.1 next reads
      ran, ?_⟩
    refine RegistryState.apply_stamped between.2 (fun fence scope read => ?_) ran
    cases reads _ read

end Work

namespace LineageTable

/-- A new grant stands above everything its domain has. -/
theorem Rising.opened {s : RegistryState} {g : EpochGrant} (rising : Rising s.lineage.grants)
    (fresh : Opens s g) : Rising (roomFor s.lineage.grants ++ [g]) := by
  have above : ∀ o ∈ s.lineage.grants, o.domain = g.domain → o.epoch < g.epoch := by
    intro o member same
    have bound := epoch_le_maxEpoch member
    have room : s.lineage.maxEpoch g.domain ≠ maxWord := by
      intro full
      have wrapped := fresh.epoch
      rw [full] at wrapped
      exact fresh.counted (wrapped.trans succ_maxWord)
    rw [fresh.epoch, ← same]
    exact lt_of_le_of_lt bound (lt_succ (same ▸ room))
  constructor
  · refine List.pairwise_append.mpr ⟨rising.epochs.sublist (roomFor_sublist _),
      List.pairwise_singleton _ _, fun o member x last => ?_⟩
    rw [List.mem_singleton.mp last]
    exact above o ((roomFor_sublist _).subset member)
  · intro o member
    rcases List.mem_append.mp member with old | last
    · exact rising.numbered o ((roomFor_sublist _).subset old)
    · rw [List.mem_singleton.mp last, fresh.id]
      exact succ_ne_zero fresh.idRoom

theorem Rising.close {grants : List EpochGrant} (rising : Rising grants) (g : EpochGrant) :
    Rising ((Entry.grantClose g).grants grants) := by
  rcases Entry.grants_close grants g with same | ⟨-, same⟩
  · rwa [same]
  · rw [same]
    constructor
    · exact pairwise_updateFirst (fun _ _ less => less) (fun _ _ less => less) rising.epochs
    · intro o member
      rcases mem_updateFirst member with old | ⟨x, old, -, rfl⟩
      · exact rising.numbered o old
      · exact rising.numbered x old

end LineageTable

namespace RegistryState

open LineageTable (Rising)

/-- What every history keeps of the audit's demands. -/
structure Healthy (s : RegistryState) : Prop extends Footing s where
  stamped : Stamped s.fences
  rising : Rising s.lineage.grants

theorem Healthy.single {s : RegistryState} (healthy : Healthy s) :
    s.lineage.grants.Pairwise fun g o => g.isOpen = true → o.isOpen = true →
      g.domain ≠ o.domain := by
  refine healthy.exclusive.imp_of_mem fun {g o} left right apart active active' same => ?_
  have extents := healthy.same_extents left right same
  obtain ⟨e, inside⟩ := Scope.exists_extent (healthy.filled g left)
  exact apart active active' e inside (extents ▸ inside)

/-- Two of the audit's demands are not kept by everything a registry does. -/
structure Undisturbed (s : RegistryState) : Prop where
  owners : ∀ g ∈ s.lineage.grants, g.isOpen = true →
    s.fences.incarnationFenced g.incarnation = false
  marks : ∀ g ∈ s.lineage.grants, g.isOpen = true → ∀ e ∈ g.extents.extents,
    s.fences.highWater e ≤ g.fenceToken

theorem Healthy.passes_iff {s : RegistryState} (healthy : Healthy s) :
    Passes s.fences s.lineage ↔ Undisturbed s := by
  constructor
  · exact fun passes => ⟨passes.owners, passes.marks⟩
  · intro undisturbed
    refine ⟨healthy.stamped.validate, ?_, healthy.sound.distinct, ?_, undisturbed.owners, ?_,
      undisturbed.marks⟩
    · exact LineageTable.checkGrants_ok (fun g member => by simpa using healthy.rising.numbered g member)
        healthy.sound.distinct healthy.rising.epochs healthy.single
    · exact healthy.rising.epochs.imp fun less same => le_of_lt (less same)
    · refine (healthy.exclusive.filter _).imp_of_mem fun {g o} left right apart overlapping => ?_
      obtain ⟨e, inside, shared⟩ := (Scope.overlaps_iff _ _).mp overlapping
      exact absurd shared (apart (List.mem_filter.mp left).2 (List.mem_filter.mp right).2 e inside)

end RegistryState

namespace History

open RegistryState (Footing Grounded Healthy)
open LineageTable (Rising)

/-- What every log says of the tables and the grants. -/
structure Lawful (log : List JournalRecord) : Prop where
  grounded : Grounded (tablesOf log)
  exclusive : Exclusive (grantsOf log)
  stamped : Stamped (tablesOf log).fences
  rising : Rising (grantsOf log)

/-- Whatever tracks such a log is healthy. -/
theorem Lawful.healthy {log : List JournalRecord} {s : RegistryState} (lawful : Lawful log)
    (tracks : Tracks s log) : Healthy s := by
  have footing := Tracks.footing tracks lawful.grounded lawful.exclusive
  refine { footing with stamped := fun e state found => ?_, rising := ?_ }
  · rw [FenceTable.find, tracks.mirrors.marks] at found
    exact lawful.stamped e state found
  · rw [tracks.grants]
    exact lawful.rising

/-- A move keeps what every log says. -/
theorem Lawful.move {log : List JournalRecord} {w w' : Work} (lawful : Lawful (log ++ w.emitted))
    (tracks : Tracks w.state (log ++ w.emitted)) (move : Work.Move w w') :
    Lawful (log ++ w'.emitted) := by
  have healthy := lawful.healthy tracks
  obtain ⟨footing, after⟩ := Work.preserved_stamped.move
    ⟨healthy.toFooting, healthy.stamped⟩ move
  have tracked := tracks.move move
  refine ⟨footing.toGrounded.mirrored tracked.mirrors.symm, tracked.grants ▸ footing.exclusive,
    fun e state found => ?_, ?_⟩
  · rw [FenceTable.find, ← tracked.mirrors.marks] at found
    exact after e state found
  · have turnover := tracks.turnover move
    have rising := lawful.rising
    rw [← tracks.grants] at rising turnover
    generalize grantsOf (log ++ w'.emitted) = grants' at turnover ⊢
    generalize opensOf (log ++ w'.emitted) = opens' at turnover
    cases turnover with
    | none => exact rising
    | closed g => exact rising.close g
    | opened fresh ready => exact rising.opened fresh

theorem Lawful.empty : Lawful [] := by
  have empty : Grounded (tablesOf []) := ⟨by simp [tablesOf], by simp [tablesOf],
    by simp [tablesOf], by simp [tablesOf], by simp [tablesOf], by simp [tablesOf]⟩
  have none : Stamped (tablesOf []).fences := fun e state found => by cases found
  exact ⟨empty, List.Pairwise.nil, none, List.Pairwise.nil, by simp [grantsOf]⟩

theorem Reachable.lawful {allowed : History → Event → Prop} {h : History}
    (reached : Reachable allowed h) : Kept Lawful h :=
  reached.kept .empty fun _ _ _ tracks lawful move => lawful.move tracks move

theorem Reachable.healthy {allowed : History → Event → Prop} {h : History}
    (reached : Reachable allowed h) : Healthy h.live := by
  have kept := reached.lawful
  exact kept.lawful.healthy kept.tracks

end History
end SplitBrainFabric
