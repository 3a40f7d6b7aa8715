import SplitBrainFabric.LineageRuns

/-! Which epochs are opened. `open_grant` compares with the highest epoch that is still
retained, and lets an equal one pass: an epoch is opened again after its grant has been
closed, and any epoch of a domain after its grants have been evicted. -/

namespace SplitBrainFabric
open Words Runs

namespace LineageTable

theorem maxEpochOf_lt_iff {grants : List EpochGrant} {d : DomainId} {bound : Epoch}
    (set : bound ≠ 0) :
    maxEpochOf grants d < bound ↔ ∀ g ∈ grants, g.domain = d → g.epoch < bound := by
  have general : ∀ (l : List EpochGrant) (start : Epoch), l.foldl (fun highest g =>
        if g.domain = d ∧ highest < g.epoch then g.epoch else highest) start < bound ↔
      start < bound ∧ ∀ g ∈ l, g.domain = d → g.epoch < bound := by
    intro l
    induction l with
    | nil => simp
    | cons g rest ih =>
      intro start
      rw [List.foldl_cons, ih, List.forall_mem_cons, ← and_assoc]
      refine and_congr_left fun _ => ?_
      split
      · rename_i taken
        exact ⟨fun below => ⟨taken.2.trans below, fun _ => below⟩, fun both => both.2 taken.1⟩
      · rename_i kept
        refine ⟨fun below => ⟨below, fun same => ?_⟩, fun both => both.1⟩
        exact lt_of_le_of_lt (not_lt.mp fun above => kept ⟨same, above⟩) below
  have positive : 0 < bound := UInt64.pos_iff_ne_zero.mpr set
  exact (general grants 0).trans (and_iff_right positive)

/-- What an opening evicts. -/
def victim (t : LineageTable) : List EpochGrant :=
  if t.grants.length < Limits.maxLineageEntries then [] else (t.grants.find? (!·.isOpen)).toList

theorem perm_eraseP {α : Type} (p : α → Bool) (l : List α) :
    (l.eraseP p ++ (l.find? p).toList).Perm l := by
  induction l with
  | nil => exact .nil
  | cons x rest ih =>
    by_cases hit : p x = true
    · rw [List.eraseP_cons_of_pos hit, List.find?_cons_of_pos hit]
      exact List.perm_append_singleton x rest
    · rw [List.eraseP_cons_of_neg hit, List.find?_cons_of_neg hit]
      exact ih.cons x

theorem roomFor_victim (t : LineageTable) : (roomFor t.grants ++ t.victim).Perm t.grants := by
  unfold roomFor victim
  split
  · rw [List.append_nil]
  · exact perm_eraseP _ t.grants

end LineageTable

inductive GrantCall where
  | openGrant (g : EpochGrant)
  | closeGrant (id : GrantId) (state : GrantState) (reason : Reason) (now : Step)

/-- A lineage with the grants it has ever accepted, oldest first, and those it has evicted. -/
structure Openings where
  table : LineageTable := {}
  accepted : List EpochGrant := []
  evicted : List EpochGrant := []

namespace Openings

def after (o : Openings) : GrantCall → Openings
  | .openGrant g => match (LineageTable.openGrant g).exec o.table with
    | (.ok _, t) => ⟨t, o.accepted ++ [g], o.evicted ++ o.table.victim⟩
    | (.error _, t) => { o with table := t }
  | .closeGrant id state reason now =>
    { o with table := ((LineageTable.closeGrant id state reason now).exec o.table).2 }

/-- In every domain each accepted epoch is above all accepted before it. -/
def Ascending (o : Openings) : Prop :=
  o.accepted.Pairwise fun g later => g.domain = later.domain → g.epoch < later.epoch

/-- An opening whose epoch is not the highest retained one of its domain, and is above
every epoch of it that was evicted. -/
def Fresh (o : Openings) : GrantCall → Prop
  | .openGrant g => o.table.Openable g → g.epoch ≠ o.table.maxEpoch g.domain ∧
      LineageTable.maxEpochOf o.evicted g.domain < g.epoch
  | .closeGrant .. => True

def numbers (grants : List EpochGrant) : List (DomainId × Epoch) :=
  grants.map fun g => (g.domain, g.epoch)

/-- What was accepted is retained or evicted. -/
structure Accounted (o : Openings) : Prop where
  sound : o.table.Sound
  whole : (numbers o.accepted).Perm (numbers (o.table.grants ++ o.evicted))

variable {o : Openings} {g : EpochGrant}

theorem numbers_below {l l' : List EpochGrant} {d : DomainId} {bound : Epoch}
    (same : (numbers l).Perm (numbers l')) :
    (∀ x ∈ l, x.domain = d → x.epoch < bound) ↔ ∀ x ∈ l', x.domain = d → x.epoch < bound := by
  have pairs : ∀ l : List EpochGrant, (∀ x ∈ l, x.domain = d → x.epoch < bound) ↔
      ∀ n ∈ numbers l, n.1 = d → n.2 < bound := fun l => by simp [numbers]
  rw [pairs, pairs]
  exact forall_congr' fun n => by rw [same.mem_iff]

theorem after_open (accounted : o.Accounted) (ready : o.table.Openable g) :
    o.after (.openGrant g) =
      ⟨o.table.opened g, o.accepted ++ [g], o.evicted ++ o.table.victim⟩ := by
  rw [after, LineageTable.openGrant_exec accounted.sound.bounded ready]

theorem after_refused (accounted : o.Accounted) (unready : ¬ o.table.Openable g) :
    o.after (.openGrant g) = o := by
  rcases ran : (LineageTable.openGrant g).exec o.table with ⟨r, t'⟩
  rw [after, ran]
  cases r with
  | ok u => exact absurd (LineageTable.openGrant_ok accounted.sound.bounded ran).1 unready
  | error st =>
    obtain rfl := LineageTable.openGrant_failsClean accounted.sound.bounded st t' trivial ran
    rfl

theorem Accounted.after (accounted : o.Accounted) (c : GrantCall) : (o.after c).Accounted := by
  cases c with
  | openGrant g =>
    by_cases ready : o.table.Openable g
    · rw [after_open accounted ready]
      refine ⟨accounted.sound.opened ready, ?_⟩
      have placed : (o.table.grants ++ o.evicted ++ [g]).Perm
          (LineageTable.roomFor o.table.grants ++ [g] ++ (o.evicted ++ o.table.victim)) := by
        refine ((o.table.roomFor_victim.symm.append_right o.evicted).append_right [g]).trans ?_
        grind
      have grown := accounted.whole.append_right (numbers [g])
      simp only [numbers, ← List.map_append] at grown ⊢
      exact grown.trans (placed.map _)
    · rw [after_refused accounted ready]
      exact accounted
  | closeGrant id state reason now =>
    rcases ran : (LineageTable.closeGrant id state reason now).exec o.table with ⟨r, t'⟩
    rw [Openings.after, ran]
    cases r with
    | ok u =>
      obtain ⟨-, -, rfl⟩ := LineageTable.closeGrant_ok ran
      refine ⟨accounted.sound.closed, ?_⟩
      have numbered : (o.table.closed id state reason now).grants.map (fun g => (g.domain, g.epoch)) =
          o.table.grants.map fun g => (g.domain, g.epoch) := by
        rw [LineageTable.closed_grants]
        refine updateFirst_map _ (fun g => ?_) o.table.grants
        rfl
      have whole := accounted.whole
      unfold numbers at whole ⊢
      rw [List.map_append] at whole ⊢
      rwa [numbered]
    | error st =>
      obtain rfl := LineageTable.closeGrant_failsClean st t' trivial ran
      exact accounted

theorem ascending_open (accounted : o.Accounted) (ready : o.table.Openable g) :
    (o.after (.openGrant g)).Ascending ↔ o.Ascending ∧ o.Fresh (.openGrant g) := by
  have retained : (∀ x ∈ o.table.grants, x.domain = g.domain → x.epoch < g.epoch) ↔
      g.epoch ≠ o.table.maxEpoch g.domain := by
    rw [← LineageTable.maxEpochOf_lt_iff ready.epoch]
    exact ⟨fun below => ne_of_gt below, fun other => lt_of_le_of_ne ready.monotone other.symm⟩
  have above : (∀ x ∈ o.accepted, x.domain = g.domain → x.epoch < g.epoch) ↔
      o.Fresh (.openGrant g) := by
    rw [numbers_below accounted.whole, Fresh, forall_prop_of_true ready, ← retained,
      LineageTable.maxEpochOf_lt_iff ready.epoch]
    simp only [List.forall_mem_append]
  rw [after_open accounted ready, ← above]
  simp [Ascending, List.pairwise_append]

theorem ascending_after (accounted : o.Accounted) (c : GrantCall) :
    (o.after c).Ascending ↔ o.Ascending ∧ o.Fresh c := by
  cases c with
  | openGrant g =>
    by_cases ready : o.table.Openable g
    · exact ascending_open accounted ready
    · rw [after_refused accounted ready]
      exact (and_iff_left fun opens => absurd opens ready).symm
  | closeGrant id state reason now => exact (and_iff_left trivial).symm

/-- In a run every accepted epoch is above those its domain had before exactly when no
opening carries the highest retained one, or one not above what was evicted. -/
theorem ascending_iff (calls : List GrantCall) :
    (run after {} calls).Ascending ↔ Each after Fresh {} calls := by
  have keeps : ∀ o c, Accounted o → Accounted (after o c) := fun _ c accounted => accounted.after c
  have start : Accounted {} := ⟨LineageTable.wellKept_empty.sound, .nil⟩
  have exact' : ∀ o c, Accounted o → ((after o c).Ascending ↔ o.Ascending ∧ o.Fresh c) :=
    fun _ c accounted => ascending_after accounted c
  have empty : Ascending {} := List.Pairwise.nil
  exact (run_iff_each keeps exact' start calls).trans (and_iff_right empty)

section Reopened

def reopenedGrant (id : GrantId) (incarnation : IncarnationId) (token : FenceToken) : EpochGrant :=
  { id := id, domain := Id.make [100], epoch := 1, incarnation := incarnation, fenceToken := token }

/-- The grant of an epoch is closed, and another process opens the same epoch. -/
theorem epoch_reopened : ¬ ∀ calls : List GrantCall, (run after {} calls).Ascending := by
  intro ascending
  have rises := ascending [.openGrant (reopenedGrant 1 2 1), .closeGrant 1 .fenced .none 5,
    .openGrant (reopenedGrant 2 6 2)]
  have both : (run after {} [.openGrant (reopenedGrant 1 2 1), .closeGrant 1 .fenced .none 5,
      .openGrant (reopenedGrant 2 6 2)]).accepted = [reopenedGrant 1 2 1, reopenedGrant 2 6 2] := by
    decide
  rw [Ascending, both, List.pairwise_pair] at rises
  exact absurd (rises rfl) (by decide)

end Reopened

end Openings
end SplitBrainFabric
