import SplitBrainFabric.FenceRuns

/-! Who owns an extent. `adopt` checks its whole scope before it writes; `apply` writes as
it goes and compares tokens only, so a fence at the very token of an extent takes it from
its owner. -/

namespace SplitBrainFabric
open Words Runs

namespace FenceCall

/-- An owner or a grant changes only under a higher token, or for the owner itself. -/
def MovesUp (c : FenceCall) (t : FenceTable) : Prop :=
  ∀ e old new, t.find e = some old → (t.after c).find e = some new →
    new.ownerIncarnation ≠ old.ownerIncarnation ∨ new.ownerGrant ≠ old.ownerGrant →
    old.highWaterToken < new.highWaterToken ∨ c.incarnation = old.ownerIncarnation

/-- A call at the token of an extent of somebody else is refused. -/
def Yields (c : FenceCall) (t : FenceTable) : Prop :=
  ∀ e ∈ c.scope.extents, ∀ old, t.find e = some old → old.highWaterToken = c.token →
    old.ownerIncarnation ≠ c.incarnation → ∃ st, (c.program.exec t).1 = .error st

def Upward (t : FenceTable) (c : FenceCall) : Prop := c.MovesUp t ∧ c.Yields t

/-- The extent is not at the token of the call, or the call is made for its owner. -/
def Rightful (c : FenceCall) (t : FenceTable) (e : ExtentId) : Prop :=
  ∀ old, t.find e = some old → old.highWaterToken = c.token → old.ownerIncarnation = c.incarnation

/-- Or the record names nobody, and the grant it names is the one that is there. -/
def Harmless (record : FenceRecord) (t : FenceTable) (e : ExtentId) : Prop :=
  ∀ old, t.find e = some old → old.highWaterToken = record.token →
    old.ownerIncarnation = record.fencedIncarnation ∨
      record.fencedIncarnation = 0 ∧ old.ownerGrant = record.supersededGrant

/-- What an `apply` has to meet: all of its scope is rightfully its own if it goes through,
and what it gets past before it is refused is left as it was. -/
def Respects (t : FenceTable) : FenceCall → Prop
  | .adopt .. => True
  | .apply record scope =>
    (t.Fenceable record scope → ∀ e ∈ scope.extents, (FenceCall.apply record scope).Rightful t e) ∧
      (scope.isEmpty = false → record.token ≠ 0 →
        t.extents.size + scope.size ≤ Limits.maxIndexedExtents →
        ∀ e ∈ t.passed record scope.extents, Harmless record t e)

section Adopt

variable {scope : Scope} {token : FenceToken} {epoch : Epoch} {incarnation : IncarnationId}
  {grant : GrantId} {now : Step}

theorem adopt_upward (t : FenceTable) :
    Upward t (.adopt scope token epoch incarnation grant now) := by
  rcases ran : (FenceTable.adopt scope token epoch incarnation grant now).exec t with ⟨r, t'⟩
  have after : t.after (.adopt scope token epoch incarnation grant now) = t' := congrArg Prod.snd ran
  cases r with
  | error st =>
    obtain rfl := FenceTable.adopt_failsClean st t' trivial ran
    refine ⟨?_, fun _ _ _ _ _ _ => ⟨st, congrArg Prod.fst ran⟩⟩
    intro e old new found found' moved
    rw [after, found] at found'
    cases found'
    rcases moved with owner | grant
    · exact absurd rfl owner
    · exact absurd rfl grant
  | ok u =>
    obtain ⟨ready, rfl⟩ := FenceTable.adopt_ok ran
    constructor
    · intro e old new found found' moved
      rw [after, FenceTable.adopted_find] at found'
      split at found'
      · rename_i member
        cases found'
        obtain ⟨below, owner⟩ := ready.admits e member old found
        rcases lt_or_eq_of_le below with less | same
        · exact .inl less
        · exact .inr (owner same).symm
      · rw [found] at found'
        cases found'
        rcases moved with owner | grant
        · exact absurd rfl owner
        · exact absurd rfl grant
    · intro e member old found same differ
      exact absurd ((ready.admits e member old found).2 same) differ

end Adopt

section Apply

variable {t : FenceTable} {record : FenceRecord} {scope : Scope}

/-- Raising an extent that is not above the token is harmless exactly if its owner keeps it. -/
theorem raised_up_iff {e : ExtentId} {old : ExtentFenceState}
    (below : old.highWaterToken ≤ record.token) :
    ((FenceTable.raisedMark record e (some old)).ownerIncarnation ≠ old.ownerIncarnation ∨
        (FenceTable.raisedMark record e (some old)).ownerGrant ≠ old.ownerGrant →
      old.highWaterToken < record.token ∨ record.fencedIncarnation = old.ownerIncarnation) ↔
    (old.highWaterToken = record.token → old.ownerIncarnation = record.fencedIncarnation ∨
      record.fencedIncarnation = 0 ∧ old.ownerGrant = record.supersededGrant) := by
  by_cases same : old.highWaterToken = record.token
  · have level : ¬ old.highWaterToken < record.token := same ▸ lt_irrefl _
    by_cases owner : old.ownerIncarnation = record.fencedIncarnation
    · simp [owner]
    · have other : ¬ record.fencedIncarnation = old.ownerIncarnation := fun h => owner h.symm
      by_cases nobody : record.fencedIncarnation = 0
      · by_cases grant : old.ownerGrant = record.supersededGrant
        · simp [FenceTable.raisedMark, nobody, grant]
        · have moved : ¬ record.supersededGrant = old.ownerGrant := fun h => grant h.symm
          rw [nobody] at owner other
          simp [FenceTable.raisedMark, same, other, owner, nobody, grant, moved]
      · simp [FenceTable.raisedMark, same, other, owner, nobody]
  · have less : old.highWaterToken < record.token := lt_of_le_of_ne below same
    simp [same, less]

/-- The marks of an `apply` that writes a list of extents. -/
theorem movesUp_iff {written : List ExtentId}
    (writes : (FenceCall.apply record scope).Writes t (t.after (.apply record scope)) written) :
    (FenceCall.apply record scope).MovesUp t ↔ ∀ e ∈ written, Harmless record t e := by
  have below : ∀ e ∈ written, ∀ old, t.find e = some old → old.highWaterToken ≤ record.token := by
    intro e member old found
    have mark := writes.above e member
    rwa [FenceTable.highWater, found] at mark
  constructor
  · intro up e member old found
    have marked := writes.marks e
    rw [if_pos member, found] at marked
    exact (raised_up_iff (below e member old found)).mp (up e old _ found marked)
  · intro harmless e old new found found'
    rw [writes.marks] at found'
    split at found'
    · rename_i member
      rw [found] at found'
      cases found'
      exact (raised_up_iff (below e member old found)).mpr (harmless e member old found)
    · rw [found] at found'
      cases found'
      rintro (owner | grant)
      · exact absurd rfl owner
      · exact absurd rfl grant

theorem apply_upward_iff (t : FenceTable) (record : FenceRecord) (scope : Scope) :
    Upward t (.apply record scope) ↔ Respects t (.apply record scope) := by
  rcases ran : (FenceTable.apply record scope).exec t with ⟨r, t'⟩
  have after : t.after (.apply record scope) = t' := congrArg Prod.snd ran
  cases r with
  | ok u =>
    have ready := (FenceTable.apply_ok ran).1
    have writes : (FenceCall.apply record scope).Writes t (t.after (.apply record scope))
        scope.extents := after ▸ writes_of_ok ran
    have whole : t.passed record scope.extents = scope.extents := FenceTable.passed_all ready.admits
    rw [Upward, movesUp_iff writes, Respects, whole]
    constructor
    · rintro ⟨harmless, yields⟩
      refine ⟨fun _ e member old found same => ?_, fun _ _ _ => harmless⟩
      by_contra differ
      obtain ⟨st, refused⟩ := yields e member old found same differ
      have accepted : ((FenceTable.apply record scope).exec t).1 = .ok ⟨⟩ := congrArg Prod.fst ran
      rw [program, accepted] at refused
      cases refused
    · rintro ⟨rightful, harmless⟩
      refine ⟨harmless ready.filled ready.set ready.room, ?_⟩
      intro e member old found same differ
      exact absurd (rightful ready e member old found same) differ
  | error st =>
    have unready : ¬ t.Fenceable record scope := by
      intro ready
      rw [FenceTable.apply_exec ready] at ran
      cases ran
    have yields : (FenceCall.apply record scope).Yields t :=
      fun _ _ _ _ _ _ => ⟨st, congrArg Prod.fst ran⟩
    rw [Upward, and_iff_left yields, Respects, and_iff_right fun ready => absurd ready unready]
    rcases FenceTable.apply_stops ran with ⟨door, rfl⟩ | ⟨filled, set, ⟨full, rfl⟩ | ⟨room, rfl⟩⟩
    · have writes : (FenceCall.apply record scope).Writes t' (t'.after (.apply record scope)) [] :=
        .nothing (congrArg FenceTable.extents after)
      rw [movesUp_iff writes]
      refine ⟨fun _ filled set => ?_, fun _ e member => absurd member List.not_mem_nil⟩
      rcases door with empty | unset
      · rw [filled] at empty
        cases empty
      · exact absurd unset set
    · have writes : (FenceCall.apply record scope).Writes t (t.after (.apply record scope)) [] :=
        .nothing (by rw [after]; exact t.dropOldest_extents)
      rw [movesUp_iff writes]
      refine ⟨fun _ _ _ room => absurd full (not_lt.mpr room), ?_⟩
      exact fun _ e member => absurd member List.not_mem_nil
    · have marks : ∀ e, (t.after (.apply record scope)).find e =
          if e ∈ t.passed record scope.extents then
            some (FenceTable.raisedMark record e (t.find e)) else t.find e := by
        rw [after]
        exact FenceTable.find_raiseAll record _ t.extents
      have writes : (FenceCall.apply record scope).Writes t (t.after (.apply record scope))
          (t.passed record scope.extents) :=
        ⟨fun e member => (FenceTable.mem_passed member).1,
          fun e member => (FenceTable.mem_passed member).2, fun _ => set, marks⟩
      rw [movesUp_iff writes]
      exact ⟨fun harmless _ _ _ => harmless, fun harmless => harmless filled set room⟩

end Apply

end FenceCall

namespace FenceTable

open FenceCall (Upward Respects)

/-- In a run ownership moves only upward exactly when every `apply` of it takes nothing
at its own token from somebody else. -/
theorem ownership_upward_iff (calls : List FenceCall) :
    Each after Upward {} calls ↔ Each after Respects {} calls := by
  have step : ∀ t c, True → (Upward t c ↔ Respects t c) := by
    intro t c _
    cases c with
    | adopt scope token epoch incarnation grant now =>
      exact ⟨fun _ => trivial, fun _ => FenceCall.adopt_upward t⟩
    | apply record scope => exact FenceCall.apply_upward_iff t record scope
  exact each_congr (fun _ _ _ _ => trivial) step trivial

section Taken

theorem taken_named : (Id.make [120] : ExtentId).isEmpty = false := by decide

def takenScope : Scope := Scope.single (Id.make [120]) taken_named

/-- A fence at the token under which incarnation nine holds the extent; it names another. -/
def takenFence : FenceCall :=
  .apply { token := 5, domain := Id.make [100], fencedEpoch := 1, fencedIncarnation := 10 } takenScope

theorem taken_at_token : ¬ ∀ calls : List FenceCall, Each after Upward {} calls := by
  intro upward
  obtain ⟨-, ⟨up, -⟩, -⟩ := upward [.adopt takenScope 5 1 9 1 1, takenFence]
  rcases up (Id.make [120]) ⟨Id.make [120], 5, 1, 9, 1, 1⟩ ⟨Id.make [120], 5, 1, 10, 0, 0⟩
    (by decide) (by decide) (.inl (by decide)) with higher | owner
  · exact absurd higher (by decide)
  · exact absurd owner (by decide)

end Taken

end FenceTable
end SplitBrainFabric
