import SplitBrainFabric.Decisions
import SplitBrainFabric.Lineage
import SplitBrainFabric.Library.KeySort
import SplitBrainFabric.Library.SortedTable
import Mathlib.Data.Prod.Lex

/-! Reconciliation of two diverged grant histories: the merge is keyed by grant id, so
of two entries with one id the local one stays. -/

namespace SplitBrainFabric

namespace Limits

def maxReconcileConflicts : Nat := 1024
def maxReconcileInputs : Nat := 64

end Limits

inductive ReconciliationKind where
  | identical | localAhead | remoteAhead | divergent
  deriving DecidableEq

structure ReconciliationConflict where
  scope : Digest256
  domain : DomainId
  localEpoch : Epoch
  remoteEpoch : Epoch
  localIncarnation : IncarnationId
  remoteIncarnation : IncarnationId
  kind : ReconciliationKind := .divergent
  reason : Reason := .none
  deriving DecidableEq

structure ReconciliationResult where
  status : Status
  outcome : Outcome := .unknown
  mergedHistory : List EpochGrant := []
  conflicts : List ReconciliationConflict := []
  conflictsSurfaced : UInt64 := 0
  conflictsDropped : UInt64 := 0
  requiresOperator : Bool := false

namespace EpochGrant

/-- The comparison made for two entries with one id. -/
def diverges (existing grant : EpochGrant) : Bool :=
  existing.domain != grant.domain || existing.scope != grant.scope ||
    existing.epoch != grant.epoch || existing.incarnation != grant.incarnation ||
    existing.fenceToken != grant.fenceToken

@[simp] theorem diverges_self (g : EpochGrant) : g.diverges g = false := by simp [diverges]

theorem diverges_comm (g h : EpochGrant) : g.diverges h = h.diverges g := by
  simp only [diverges, bne_comm]

/-- The order of the merged history. -/
def historyKey (g : EpochGrant) : Sequence ×ₗ GrantId := toLex (g.registrySequence, g.id)

end EpochGrant

namespace Reconcile

abbrev ById := SortedTable EpochGrant.id

def conflictOf (existing grant : EpochGrant) : ReconciliationConflict where
  scope := existing.scope
  domain := existing.domain
  localEpoch := existing.epoch
  remoteEpoch := grant.epoch
  localIncarnation := existing.incarnation
  remoteIncarnation := grant.incarnation
  kind := .divergent
  reason := .lineageDivergence

/-- The local loop: an id met twice ends it. -/
def insertLocal (byId : ById) : List EpochGrant → Except Status ById
  | [] => .ok byId
  | grant :: rest =>
    if (byId.find grant.id).isSome then .error (.make .corrupt .duplicateEntry grant.id)
    else insertLocal (byId.put grant) rest

structure Merge where
  byId : ById
  conflicts : List ReconciliationConflict := []
  conflictsDropped : UInt64 := 0

/-- One turn of the remote loop. -/
def Merge.take (m : Merge) (grant : EpochGrant) : Merge :=
  match m.byId.find grant.id with
  | none => { m with byId := m.byId.put grant }
  | some existing =>
    if existing.diverges grant then
      if m.conflicts.length < Limits.maxReconcileConflicts then
        { m with conflicts := m.conflicts ++ [conflictOf existing grant] }
      else { m with conflictsDropped := m.conflictsDropped + 1 }
    else m

def Merge.result (m : Merge) : ReconciliationResult where
  mergedHistory := m.byId.rows.insertionSort fun a b => a.historyKey ≤ b.historyKey
  conflicts := m.conflicts
  conflictsSurfaced := UInt64.ofNat m.conflicts.length
  conflictsDropped := m.conflictsDropped
  requiresOperator := !m.conflicts.isEmpty
  status :=
    if m.conflicts.isEmpty then .ok
    else .make .conflict .reconciliationRequired (UInt64.ofNat m.conflicts.length)
  outcome := if m.conflicts.isEmpty then .ok else .conflict

end Reconcile

open Reconcile in
def reconcile (localHistory remoteHistory : List EpochGrant) : ReconciliationResult :=
  if Limits.maxReconcileInputs < localHistory.length ∨
      Limits.maxReconcileInputs < remoteHistory.length then
    { status := .make .exhausted .boundedTableFull
        (UInt64.ofNat (max localHistory.length remoteHistory.length))
      outcome := .exhausted }
  else
    match insertLocal SortedTable.empty localHistory with
    | .error status => { status := status, outcome := .corrupt }
    | .ok byId => (remoteHistory.foldl Merge.take { byId := byId }).result

namespace Reconcile

variable {l r : List EpochGrant} {t t' : ById} {m : Merge} {g h : EpochGrant}

def Unique (l : List EpochGrant) : Prop := (l.map (·.id)).Nodup

instance (l : List EpochGrant) : Decidable (Unique l) := inferInstanceAs (Decidable (List.Nodup _))

theorem Unique.eq (unique : Unique l) (left : g ∈ l) (right : h ∈ l) (same : g.id = h.id) :
    g = h := List.inj_on_of_nodup_map unique left right same

theorem unique_cons : Unique (g :: l) ↔ (∀ h ∈ l, g.id ≠ h.id) ∧ Unique l := by
  unfold Unique
  rw [List.map_cons, List.nodup_cons, List.mem_map]
  constructor
  · rintro ⟨new, later⟩
    exact ⟨fun h member same => new ⟨h, member, same.symm⟩, later⟩
  · rintro ⟨apart, later⟩
    refine ⟨?_, later⟩
    rintro ⟨h, member, same⟩
    exact apart h member same.symm

theorem insertLocal_unique (unique : Unique l) (fresh : ∀ g ∈ l, t.find g.id = none) :
    insertLocal t l = .ok (l.foldl SortedTable.put t) := by
  induction l generalizing t with
  | nil => rfl
  | cons g rest ih =>
    obtain ⟨apart, later⟩ := unique_cons.mp unique
    have still : ∀ h ∈ rest, (t.put g).find h.id = none := by
      intro h member
      rw [SortedTable.find_put_ne t (apart h member)]
      exact fresh h (List.mem_cons_of_mem g member)
    simp only [insertLocal, fresh g List.mem_cons_self]
    exact ih later still

theorem insertLocal_ok (inserted : insertLocal t l = .ok t') : Unique l ∧
    ∀ g ∈ l, t.find g.id = none := by
  induction l generalizing t with
  | nil => exact ⟨List.nodup_nil, nofun⟩
  | cons g rest ih =>
    unfold insertLocal at inserted
    split at inserted
    · cases inserted
    · rename_i absent
      obtain ⟨unique, fresh⟩ := ih inserted
      have apart : ∀ h ∈ rest, g.id ≠ h.id := by
        intro h member same
        have missing := fresh h member
        rw [← same, SortedTable.find_put_self] at missing
        cases missing
      refine ⟨unique_cons.mpr ⟨apart, unique⟩, ?_⟩
      intro h member
      rcases List.mem_cons.mp member with rfl | later
      · simpa using absent
      · rw [← SortedTable.find_put_ne t (apart h later)]
        exact fresh h later

theorem take_conflicts_le (m : Merge) (g : EpochGrant) :
    (m.take g).conflicts.length ≤ m.conflicts.length + 1 := by
  unfold Merge.take
  split
  · exact Nat.le_succ _
  · split
    · split
      · simp
      · exact Nat.le_succ _
    · exact Nat.le_succ _

theorem take_find {k : GrantId} (other : g.id ≠ k) : (m.take g).byId.find k = m.byId.find k := by
  unfold Merge.take
  split
  · exact SortedTable.find_put_ne m.byId other
  · split
    · split <;> rfl
    · rfl

theorem mem_take : h ∈ (m.take g).byId.rows ↔
    h ∈ m.byId.rows ∨ h = g ∧ m.byId.find g.id = none := by
  unfold Merge.take
  split
  · rename_i absent
    have apart : h ∈ m.byId.rows → h.id ≠ g.id := by
      intro member same
      have found := SortedTable.find_mem member
      rw [same, absent] at found
      cases found
    rw [SortedTable.mem_put, absent]
    constructor
    · rintro (rfl | ⟨old, -⟩)
      · exact .inr ⟨rfl, rfl⟩
      · exact .inl old
    · rintro (old | ⟨rfl, -⟩)
      · exact .inr ⟨old, apart old⟩
      · exact .inl rfl
  · rename_i existing found
    rw [found]
    split
    · split <;> simp
    · simp

/-- What the remote loop leaves in the table. -/
theorem mem_foldl_take (unique : Unique r) : h ∈ (r.foldl Merge.take m).byId.rows ↔
    h ∈ m.byId.rows ∨ h ∈ r ∧ m.byId.find h.id = none := by
  induction r generalizing m with
  | nil => simp
  | cons g rest ih =>
    obtain ⟨apart, later⟩ := unique_cons.mp unique
    rw [List.foldl_cons, ih later, mem_take]
    constructor
    · rintro ((old | ⟨rfl, absent⟩) | ⟨member, absent⟩)
      · exact .inl old
      · exact .inr ⟨List.mem_cons_self, absent⟩
      · rw [take_find (apart h member)] at absent
        exact .inr ⟨List.mem_cons_of_mem g member, absent⟩
    · rintro (old | ⟨member, absent⟩)
      · exact .inl (.inl old)
      · rcases List.mem_cons.mp member with rfl | member
        · exact .inl (.inr ⟨rfl, absent⟩)
        · exact .inr ⟨member, (take_find (apart h member)).trans absent⟩

/-- The remote entry has an entry with its id to disagree with. -/
def Disputed (t : ById) (h : EpochGrant) : Bool := (t.find h.id).any (·.diverges h)

theorem take_disputed (disputed : Disputed m.byId g = true)
    (room : m.conflicts.length < Limits.maxReconcileConflicts) :
    (m.take g).conflicts.length = m.conflicts.length + 1 ∧
      (m.take g).conflictsDropped = m.conflictsDropped := by
  unfold Disputed at disputed
  unfold Merge.take
  split
  · rename_i absent
    simp [absent] at disputed
  · rename_i existing found
    rw [found] at disputed
    have differ : existing.diverges g = true := disputed
    simp [differ, room]

theorem take_agreed (agreed : Disputed m.byId g = false) :
    (m.take g).conflicts = m.conflicts ∧ (m.take g).conflictsDropped = m.conflictsDropped := by
  unfold Disputed at agreed
  unfold Merge.take
  split
  · exact ⟨rfl, rfl⟩
  · rename_i existing found
    rw [found] at agreed
    have equal : existing.diverges g = false := agreed
    simp [equal]

/-- Every disputed entry is counted, as long as the list of conflicts has room. -/
theorem foldl_take_conflicts (unique : Unique r)
    (room : m.conflicts.length + r.length ≤ Limits.maxReconcileConflicts) :
    (r.foldl Merge.take m).conflicts.length =
        m.conflicts.length + r.countP (Disputed m.byId) ∧
      (r.foldl Merge.take m).conflictsDropped = m.conflictsDropped := by
  induction r generalizing m with
  | nil => exact ⟨rfl, rfl⟩
  | cons g rest ih =>
    obtain ⟨apart, later⟩ := unique_cons.mp unique
    have longer := take_conflicts_le m g
    simp only [List.length_cons] at room
    obtain ⟨counted, dropped⟩ := ih (m := m.take g) later (by omega)
    have others : rest.countP (Disputed (m.take g).byId) = rest.countP (Disputed m.byId) := by
      apply List.countP_congr
      intro h member
      rw [Disputed, Disputed, take_find (apart h member)]
    rw [List.foldl_cons, counted, dropped, others]
    cases disputed : Disputed m.byId g with
    | true =>
      obtain ⟨more, kept⟩ := take_disputed disputed (by omega)
      rw [more, kept, List.countP_cons_of_pos disputed]
      exact ⟨by omega, rfl⟩
    | false =>
      obtain ⟨same, kept⟩ := take_agreed disputed
      rw [same, kept, List.countP_cons_of_neg (by simp [disputed])]
      exact ⟨rfl, rfl⟩

/-- Bounded histories, each with unique ids. -/
structure Admissible (l r : List EpochGrant) : Prop where
  localBound : l.length ≤ Limits.maxReconcileInputs
  remoteBound : r.length ≤ Limits.maxReconcileInputs
  localUnique : Unique l
  remoteUnique : Unique r

def TooLarge (l r : List EpochGrant) : Prop :=
  Limits.maxReconcileInputs < l.length ∨ Limits.maxReconcileInputs < r.length

theorem Admissible.not_tooLarge (admissible : Admissible l r) : ¬ TooLarge l r := by
  rintro (large | large)
  · exact Nat.not_lt.mpr admissible.localBound large
  · exact Nat.not_lt.mpr admissible.remoteBound large

theorem reconcile_tooLarge (large : TooLarge l r) :
    (reconcile l r).outcome = .exhausted ∧ (reconcile l r).conflictsSurfaced = 0 ∧
      (reconcile l r).conflictsDropped = 0 := by
  unfold TooLarge at large
  unfold reconcile
  rw [if_pos large]
  exact ⟨rfl, rfl, rfl⟩

theorem reconcile_repeated (small : ¬ TooLarge l r) (repeated : ¬ Unique l) :
    (reconcile l r).outcome = .corrupt ∧ (reconcile l r).conflictsSurfaced = 0 ∧
      (reconcile l r).conflictsDropped = 0 := by
  unfold TooLarge at small
  unfold reconcile
  rw [if_neg small]
  cases inserted : insertLocal SortedTable.empty l with
  | error status => exact ⟨rfl, rfl, rfl⟩
  | ok byId => exact absurd (insertLocal_ok inserted).1 repeated

theorem reconcile_unique (small : ¬ TooLarge l r) (unique : Unique l) :
    reconcile l r = (r.foldl Merge.take { byId := SortedTable.ofList l }).result := by
  have inserted := insertLocal_unique (t := SortedTable.empty) unique fun _ _ => rfl
  unfold TooLarge at small
  unfold reconcile
  rw [if_neg small, inserted]
  rfl

theorem mem_table (unique : Unique l) : g ∈ (SortedTable.ofList l : ById).rows ↔ g ∈ l :=
  (SortedTable.rows_ofList unique).mem_iff

theorem find_table (unique : Unique l) {k : GrantId} :
    (SortedTable.ofList l : ById).find k = some g ↔ g ∈ l ∧ g.id = k := by
  rw [SortedTable.find_eq_some, mem_table unique]

theorem find_table_none (unique : Unique l) {k : GrantId} :
    (SortedTable.ofList l : ById).find k = none ↔ ∀ g ∈ l, g.id ≠ k := by
  rw [Option.eq_none_iff_forall_not_mem]
  constructor
  · exact fun absent g member same => absent g ((find_table unique).mpr ⟨member, same⟩)
  · intro apart g found
    obtain ⟨member, same⟩ := (find_table unique).mp found
    exact apart g member same

theorem disputed_iff (unique : Unique l) : Disputed (SortedTable.ofList l) h = true ↔
    ∃ g ∈ l, g.id = h.id ∧ g.diverges h = true := by
  rw [Disputed, Option.any_eq_true]
  constructor
  · rintro ⟨g, found, differ⟩
    obtain ⟨member, same⟩ := (find_table unique).mp found
    exact ⟨g, member, same, differ⟩
  · rintro ⟨g, member, same, differ⟩
    exact ⟨g, (find_table unique).mpr ⟨member, same⟩, differ⟩

/-- The merged history has every local entry, and the remote ones whose id is new. -/
theorem mem_merged (admissible : Admissible l r) : g ∈ (reconcile l r).mergedHistory ↔
    g ∈ l ∨ g ∈ r ∧ ∀ e ∈ l, e.id ≠ g.id := by
  rw [reconcile_unique admissible.not_tooLarge admissible.localUnique, Merge.result,
    List.mem_insertionSort, mem_foldl_take admissible.remoteUnique,
    mem_table admissible.localUnique, find_table_none admissible.localUnique]

theorem merged_ordered (admissible : Admissible l r) :
    (reconcile l r).mergedHistory.Pairwise fun g h => g.registrySequence ≤ h.registrySequence := by
  rw [reconcile_unique admissible.not_tooLarge admissible.localUnique]
  refine (KeySort.pairwise_insertionSort _).imp ?_
  intro g h below
  rcases Prod.Lex.le_iff.mp below with less | ⟨equal, -⟩
  · exact le_of_lt less
  · exact le_of_eq equal

/-- The disputes are counted in full, so the outcome tells whether there is one. -/
theorem reconcile_counts (small : ¬ TooLarge l r) (left : Unique l) (right : Unique r) :
    let disputes := r.countP (Disputed (SortedTable.ofList l))
    (reconcile l r).conflictsSurfaced = UInt64.ofNat disputes ∧
      (reconcile l r).conflictsDropped = 0 ∧
      (reconcile l r).outcome = if disputes = 0 then .ok else .conflict := by
  have short : r.length ≤ Limits.maxReconcileInputs := Nat.not_lt.mp fun h => small (.inr h)
  have room : r.length ≤ Limits.maxReconcileConflicts := short.trans (by decide)
  obtain ⟨counted, dropped⟩ := foldl_take_conflicts (m := { byId := SortedTable.ofList l }) right
    (by simpa using room)
  simp only [List.length_nil, Nat.zero_add] at counted
  rw [reconcile_unique small left]
  refine ⟨congrArg UInt64.ofNat counted, dropped, ?_⟩
  simp only [Merge.result, List.isEmpty_iff_length_eq_zero, counted]

theorem outcome_ok_iff (admissible : Admissible l r) : (reconcile l r).outcome = .ok ↔
    ∀ g ∈ l, ∀ h ∈ r, g.id = h.id → g.diverges h = false := by
  obtain ⟨-, -, outcome⟩ := reconcile_counts admissible.not_tooLarge admissible.localUnique
    admissible.remoteUnique
  have decided : (reconcile l r).outcome = .ok ↔
      r.countP (Disputed (SortedTable.ofList l)) = 0 := by
    rw [outcome]
    split
    · rename_i none
      exact ⟨fun _ => none, fun _ => rfl⟩
    · rename_i some
      exact ⟨nofun, fun none => absurd none some⟩
  rw [decided, List.countP_eq_zero]
  constructor
  · intro agreed g left h right same
    cases differ : g.diverges h with
    | false => rfl
    | true =>
      exact absurd ((disputed_iff admissible.localUnique).mpr ⟨g, left, same, differ⟩)
        (agreed h right)
  · intro agreed h right disputed
    obtain ⟨g, left, same, differ⟩ := (disputed_iff admissible.localUnique).mp disputed
    rw [agreed g left h right same] at differ
    cases differ

/-- Disputes pair the entries of the two sides, so each side counts the same number. -/
theorem disputes_comm (left : Unique l) (right : Unique r) :
    r.countP (Disputed (SortedTable.ofList l)) = l.countP (Disputed (SortedTable.ofList r)) := by
  have ids : ((r.filter (Disputed (SortedTable.ofList l))).map (·.id)).Perm
      ((l.filter (Disputed (SortedTable.ofList r))).map (·.id)) := by
    apply (List.perm_ext_iff_of_nodup ?_ ?_).mpr
    · intro k
      simp only [List.mem_map, List.mem_filter, disputed_iff left, disputed_iff right]
      constructor
      · rintro ⟨h, ⟨inRight, g, inLeft, same, differ⟩, rfl⟩
        exact ⟨g, ⟨inLeft, h, inRight, same.symm, h.diverges_comm g ▸ differ⟩, same⟩
      · rintro ⟨g, ⟨inLeft, h, inRight, same, differ⟩, rfl⟩
        exact ⟨h, ⟨inRight, g, inLeft, same.symm, g.diverges_comm h ▸ differ⟩, same⟩
    · exact right.sublist (List.filter_sublist.map _)
    · exact left.sublist (List.filter_sublist.map _)
  simpa [List.countP_eq_length_filter] using ids.length_eq

/-- No disagreement is left between the two sides, or inside the merged history. -/
structure Agreed (l r merged : List EpochGrant) : Prop where
  equal : ∀ g ∈ l, ∀ h ∈ r, g.id = h.id → g = h
  epochs : ∀ g ∈ merged, ∀ h ∈ merged, g.domain = h.domain → g.epoch = h.epoch →
    g.incarnation = h.incarnation
  extents : ∀ g ∈ merged, ∀ h ∈ merged, g.isOpen = true → h.isOpen = true →
    g.incarnation ≠ h.incarnation → g.extents.overlaps h.extents = false

/-- A disagreement the remote loop does not look at: a field it does not compare, or a
pair of grants it never puts side by side because their ids differ. -/
inductive Overlooked (g h : EpochGrant) : Prop
  | field (same : g.id = h.id) (agree : g.diverges h = false) (differ : g ≠ h)
  | epoch (apart : g.id ≠ h.id) (domain : g.domain = h.domain) (epoch : g.epoch = h.epoch)
      (other : g.incarnation ≠ h.incarnation)
  | extent (apart : g.id ≠ h.id) (left : g.isOpen = true) (right : h.isOpen = true)
      (other : g.incarnation ≠ h.incarnation) (overlap : g.extents.overlaps h.extents = true)

theorem mem_merged_of_equal (admissible : Admissible l r)
    (equal : ∀ g ∈ l, ∀ h ∈ r, g.id = h.id → g = h) :
    g ∈ (reconcile l r).mergedHistory ↔ g ∈ l ∨ g ∈ r := by
  rw [mem_merged admissible]
  constructor
  · exact Or.imp_right fun fresh => fresh.1
  · rintro (inLeft | inRight)
    · exact .inl inLeft
    · by_cases shared : ∃ e ∈ l, e.id = g.id
      · obtain ⟨e, member, same⟩ := shared
        exact .inl (equal e member g inRight same ▸ member)
      · push Not at shared
        exact .inr ⟨inRight, shared⟩

/-- Shared ids that agree in every field make the union a history with one entry an id. -/
theorem eq_of_union (admissible : Admissible l r)
    (equal : ∀ g ∈ l, ∀ h ∈ r, g.id = h.id → g = h) (left : g ∈ l ∨ g ∈ r) (right : h ∈ l ∨ h ∈ r)
    (same : g.id = h.id) : g = h := by
  rcases left with left | left
  · rcases right with right | right
    · exact admissible.localUnique.eq left right same
    · exact equal g left h right same
  · rcases right with right | right
    · exact (equal h right g left same.symm).symm
    · exact admissible.remoteUnique.eq left right same

theorem agreed_iff (admissible : Admissible l r)
    (unsurfaced : ∀ g ∈ l, ∀ h ∈ r, g.id = h.id → g.diverges h = false) :
    Agreed l r (reconcile l r).mergedHistory ↔
      ∀ g ∈ l ++ r, ∀ h ∈ l ++ r, ¬ Overlooked g h := by
  constructor
  · intro agreed g left h right overlooked
    rw [List.mem_append] at left right
    have left' := (mem_merged_of_equal admissible agreed.equal).mpr left
    have right' := (mem_merged_of_equal admissible agreed.equal).mpr right
    cases overlooked with
    | field same agree differ => exact differ (eq_of_union admissible agreed.equal left right same)
    | epoch apart domain epoch other => exact other (agreed.epochs g left' h right' domain epoch)
    | extent apart leftOpen rightOpen other overlap =>
      have clear := agreed.extents g left' h right' leftOpen rightOpen other
      rw [overlap] at clear
      cases clear
  · intro clear
    have equal : ∀ g ∈ l, ∀ h ∈ r, g.id = h.id → g = h := by
      intro g left h right same
      by_contra differ
      exact clear g (List.mem_append_left r left) h (List.mem_append_right l right)
        (.field same (unsurfaced g left h right same) differ)
    have apart : ∀ g ∈ (reconcile l r).mergedHistory, ∀ h ∈ (reconcile l r).mergedHistory,
        g.incarnation ≠ h.incarnation → g ∈ l ++ r ∧ h ∈ l ++ r ∧ g.id ≠ h.id := by
      intro g left h right other
      rw [mem_merged_of_equal admissible equal] at left right
      refine ⟨List.mem_append.mpr left, List.mem_append.mpr right, fun same => ?_⟩
      exact other (congrArg _ (eq_of_union admissible equal left right same))
    refine ⟨equal, ?_, ?_⟩
    · intro g left h right domain epoch
      by_contra other
      obtain ⟨left', right', differ⟩ := apart g left h right other
      exact clear g left' h right' (.epoch differ domain epoch other)
    · intro g left h right leftOpen rightOpen other
      obtain ⟨left', right', differ⟩ := apart g left h right other
      cases overlap : g.extents.overlaps h.extents with
      | false => rfl
      | true => exact absurd (.extent differ leftOpen rightOpen other overlap) (clear g left' h right')

/-- An `Ok` says that the histories agree, unless the disagreement is one that the loop
does not look at. -/
theorem surfaces_iff (admissible : Admissible l r) :
    ((reconcile l r).outcome = .ok → Agreed l r (reconcile l r).mergedHistory) ↔
      (∃ g ∈ l, ∃ h ∈ r, g.id = h.id ∧ g.diverges h = true) ∨
        ∀ g ∈ l ++ r, ∀ h ∈ l ++ r, ¬ Overlooked g h := by
  by_cases surfaced : ∃ g ∈ l, ∃ h ∈ r, g.id = h.id ∧ g.diverges h = true
  · have refused : (reconcile l r).outcome ≠ .ok := by
      obtain ⟨g, left, h, right, same, differ⟩ := surfaced
      intro ok
      rw [(outcome_ok_iff admissible).mp ok g left h right same] at differ
      cases differ
    exact ⟨fun _ => .inl surfaced, fun _ ok => absurd ok refused⟩
  · have unsurfaced : ∀ g ∈ l, ∀ h ∈ r, g.id = h.id → g.diverges h = false := by
      intro g left h right same
      by_contra differ
      exact surfaced ⟨g, left, h, right, same, by simpa using differ⟩
    have ok := (outcome_ok_iff admissible).mpr unsurfaced
    rw [← agreed_iff admissible unsurfaced]
    constructor
    · exact fun agreed => .inr (agreed ok)
    · rintro (surfaced' | agreed) -
      · exact absurd surfaced' surfaced
      · exact agreed

def extentP : Scope := Scope.single (Id.make [112]) (by decide)

/-- A grant of domain `d` in epoch one over the extent `p`. -/
def sampleGrant (id : GrantId) (incarnation : IncarnationId) (state : GrantState) : EpochGrant where
  id := id
  domain := Id.make [100]
  scope := extentP.digest
  extents := extentP
  epoch := 1
  incarnation := incarnation
  boot := incarnation
  fenceToken := incarnation
  state := state
  registrySequence := id

theorem admissible_pair (g h : EpochGrant) : Admissible [g] [h] where
  localBound := Nat.succ_le_of_lt (by decide)
  remoteBound := Nat.succ_le_of_lt (by decide)
  localUnique := List.nodup_singleton _
  remoteUnique := List.nodup_singleton _

/-- A grant that was fenced, and the next one that was. -/
def sampleLocal : List EpochGrant :=
  [sampleGrant 1 2 .fenced, { sampleGrant 2 3 .fenced with epoch := 2 }]

/-- The other side knows of the first of them, and of one that is open. -/
def sampleRemote : List EpochGrant :=
  [sampleGrant 1 2 .fenced, { sampleGrant 3 4 .open with epoch := 3 }]

theorem admissible_sample : Admissible sampleLocal sampleRemote where
  localBound := by decide
  remoteBound := by decide
  localUnique := by decide
  remoteUnique := by decide

theorem surfaces_iff_shared : (reconcile sampleLocal sampleRemote).outcome = .ok ∧
    (((reconcile sampleLocal sampleRemote).outcome = .ok →
      Agreed sampleLocal sampleRemote (reconcile sampleLocal sampleRemote).mergedHistory) ↔
      (∃ g ∈ sampleLocal, ∃ h ∈ sampleRemote, g.id = h.id ∧ g.diverges h = true) ∨
        ∀ g ∈ sampleLocal ++ sampleRemote, ∀ h ∈ sampleLocal ++ sampleRemote,
          ¬ Overlooked g h) :=
  ⟨by decide +kernel, surfaces_iff admissible_sample⟩

/-- Two open grants of one domain, epoch and extent, held by different incarnations. -/
theorem surfaces_fails : ¬ ∀ l r : List EpochGrant, Admissible l r →
    (reconcile l r).outcome = .ok → Agreed l r (reconcile l r).mergedHistory := by
  intro claim
  have admissible := admissible_pair (sampleGrant 1 2 .open) (sampleGrant 2 3 .open)
  have ok : (reconcile [sampleGrant 1 2 .open] [sampleGrant 2 3 .open]).outcome = .ok := by
    rw [outcome_ok_iff admissible]
    intro g left h right same
    rw [List.mem_singleton] at left right
    subst left
    subst right
    cases same
  have agreed := claim _ _ admissible ok
  have left := (mem_merged admissible).mpr (.inl (List.mem_singleton_self _))
  have right : sampleGrant 2 3 .open ∈
      (reconcile [sampleGrant 1 2 .open] [sampleGrant 2 3 .open]).mergedHistory := by
    refine (mem_merged admissible).mpr (.inr ⟨List.mem_singleton_self _, ?_⟩)
    intro e member same
    rw [List.mem_singleton] at member
    subst member
    cases same
  exact absurd (agreed.epochs _ left _ right rfl rfl) (by decide)

/-- Nothing of either side is lost exactly if no id carries two different entries. -/
theorem preserves_iff (admissible : Admissible l r) :
    ((∀ g, g ∈ (reconcile l r).mergedHistory ↔ g ∈ l ∨ g ∈ r) ∧
      (reconcile l r).mergedHistory.Pairwise
        fun g h => g.registrySequence ≤ h.registrySequence) ↔
      ∀ g ∈ l, ∀ h ∈ r, g.id = h.id → g = h := by
  constructor
  · rintro ⟨union, -⟩ g left h right same
    rcases (mem_merged admissible).mp ((union h).mpr (.inr right)) with kept | ⟨-, fresh⟩
    · exact admissible.localUnique.eq left kept same
    · exact absurd same (fresh g left)
  · exact fun equal =>
      ⟨fun g => mem_merged_of_equal admissible equal, merged_ordered admissible⟩

theorem preserves_iff_shared :
    (reconcile sampleLocal sampleRemote).mergedHistory.map (·.id) = [1, 2, 3] ∧
    ((∀ g, g ∈ (reconcile sampleLocal sampleRemote).mergedHistory ↔
        g ∈ sampleLocal ∨ g ∈ sampleRemote) ∧
      (reconcile sampleLocal sampleRemote).mergedHistory.Pairwise
        (fun g h => g.registrySequence ≤ h.registrySequence) ↔
      ∀ g ∈ sampleLocal, ∀ h ∈ sampleRemote, g.id = h.id → g = h) :=
  ⟨by decide +kernel, preserves_iff admissible_sample⟩

/-- The remote side has fenced a grant that the local side still holds open. -/
theorem preserves_fails : ¬ ∀ l r : List EpochGrant, Admissible l r →
    (∀ g, g ∈ (reconcile l r).mergedHistory ↔ g ∈ l ∨ g ∈ r) ∧
      (reconcile l r).mergedHistory.Pairwise
        fun g h => g.registrySequence ≤ h.registrySequence := by
  intro claim
  have admissible := admissible_pair (sampleGrant 1 2 .open) (sampleGrant 1 2 .fenced)
  have union := (claim _ _ admissible).1 (sampleGrant 1 2 .fenced)
  rcases (mem_merged admissible).mp (union.mpr (.inr (List.mem_singleton_self _))) with kept | fresh
  · have same := congrArg EpochGrant.state (List.mem_singleton.mp kept)
    cases same
  · exact fresh.2 _ (List.mem_singleton_self _) rfl

def Mirrored (l r : List EpochGrant) : Prop :=
  (reconcile l r).outcome = (reconcile r l).outcome ∧
    (reconcile l r).conflictsSurfaced = (reconcile r l).conflictsSurfaced ∧
    (reconcile l r).conflictsDropped = (reconcile r l).conflictsDropped

theorem accepted_of_unique (small : ¬ TooLarge l r) (unique : Unique l) :
    (reconcile l r).outcome ≠ .corrupt := by
  rw [reconcile_unique small unique]
  simp only [Merge.result]
  split
  · exact nofun
  · exact nofun

/-- The sides can be exchanged unless exactly one of them repeats an id: only the local
side is checked for that. -/
theorem symmetric_iff (l r : List EpochGrant) :
    Mirrored l r ↔ TooLarge l r ∨ (Unique l ↔ Unique r) := by
  by_cases large : TooLarge l r
  · obtain ⟨outcome, surfaced, dropped⟩ := reconcile_tooLarge large
    obtain ⟨outcome', surfaced', dropped'⟩ := reconcile_tooLarge large.symm
    have same : Mirrored l r :=
      ⟨outcome.trans outcome'.symm, surfaced.trans surfaced'.symm, dropped.trans dropped'.symm⟩
    exact ⟨fun _ => .inl large, fun _ => same⟩
  · have large' : ¬ TooLarge r l := fun h => large h.symm
    by_cases left : Unique l
    · by_cases right : Unique r
      · obtain ⟨surfaced, dropped, outcome⟩ := reconcile_counts large left right
        obtain ⟨surfaced', dropped', outcome'⟩ := reconcile_counts large' right left
        have count := disputes_comm left right
        have same : Mirrored l r := by
          refine ⟨?_, ?_, dropped.trans dropped'.symm⟩
          · rw [outcome, outcome', count]
          · rw [surfaced, surfaced', count]
        exact ⟨fun _ => .inr ⟨fun _ => right, fun _ => left⟩, fun _ => same⟩
      · have corrupt := (reconcile_repeated large' right).1
        constructor
        · exact fun same => absurd (same.1.trans corrupt) (accepted_of_unique large left)
        · rintro (h | both)
          · exact absurd h large
          · exact absurd (both.mp left) right
    · obtain ⟨outcome, surfaced, dropped⟩ := reconcile_repeated large left
      by_cases right : Unique r
      · constructor
        · exact fun same => absurd (same.1.symm.trans outcome) (accepted_of_unique large' right)
        · rintro (h | both)
          · exact absurd h large
          · exact absurd (both.mpr right) left
      · obtain ⟨outcome', surfaced', dropped'⟩ := reconcile_repeated large' right
        have same : Mirrored l r :=
          ⟨outcome.trans outcome'.symm, surfaced.trans surfaced'.symm, dropped.trans dropped'.symm⟩
        exact ⟨fun _ => .inr ⟨fun h => absurd h left, fun h => absurd h right⟩, fun _ => same⟩

/-- One entry sent twice is refused on the local side and taken on the remote side. -/
theorem symmetric_fails : ¬ ∀ l r : List EpochGrant, Mirrored l r := by
  intro claim
  have same := (claim [sampleGrant 1 2 .open, sampleGrant 1 2 .open] []).1
  have small : ¬ TooLarge [sampleGrant 1 2 .open, sampleGrant 1 2 .open] [] := by
    rintro (large | large)
    · exact absurd large (by decide)
    · exact absurd large (by decide)
  have repeated : ¬ Unique [sampleGrant 1 2 .open, sampleGrant 1 2 .open] := by decide
  have corrupt := (reconcile_repeated small repeated).1
  exact accepted_of_unique (fun large => small large.symm) List.nodup_nil (same.symm.trans corrupt)

end Reconcile
end SplitBrainFabric
