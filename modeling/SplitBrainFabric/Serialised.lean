import SplitBrainFabric.LateWriters
import SplitBrainFabric.Library.Tenures

/-! A registry seen as an exclusive lock: open grants are the tenures it holds, and the
commits it acknowledges are the writes. Restarts and crashes only end tenures, so the writes
of the whole history are in order, whatever the effect boundary does. -/

namespace SplitBrainFabric
open Words Tenures

/-- A grant as a tenure of its extents. -/
def grantTerms : Terms EpochGrant ExtentId FenceToken where
  covers g := { e | e ∈ g.extents.extents }
  token := EpochGrant.fenceToken

/-- The lock that a journal leaves. -/
def lockOf (log : List JournalRecord) (written : List EpochGrant) : Lock EpochGrant FenceToken where
  held := { g | g ∈ grantsOf log ∧ g.isOpen = true }
  spent := { k | ∃ r ∈ log, r.said.token = k }
  written := written

theorem grantTerms_disjoint {g o : EpochGrant} :
    Disjoint (grantTerms.covers g) (grantTerms.covers o) ↔ g.extents.overlaps o.extents = false := by
  rw [Set.disjoint_left, ← Bool.not_eq_true, Scope.overlaps_iff]
  constructor
  · rintro apart ⟨e, inside, shared⟩
    exact apart inside shared
  · exact fun apart e inside shared => apart ⟨e, inside, shared⟩

section Moves

variable {log log' : List JournalRecord} {written : List EpochGrant}

/-- Grants that closed or went, and tokens that were spent. -/
theorem lockOf_shrinks (fewer : ∀ g ∈ grantsOf log', g.isOpen = true → g ∈ grantsOf log)
    (grows : log <+: log') : Steps grantTerms (lockOf log written) (lockOf log' written) := by
  have ended : Tenures.Step grantTerms (lockOf log written)
      { lockOf log written with held := (lockOf log' written).held } :=
    .ended fun g held => ⟨fewer g held.1 held.2, held.2⟩
  refine .tail (.single ended) (.spent ?_)
  rintro k ⟨r, member, spent⟩
  exact ⟨r, grows.subset member, spent⟩

/-- A grant that opened above every token of the log, over what evictions left. -/
theorem lockOf_opens {g : EpochGrant} (active : g.isOpen = true)
    (grants : grantsOf log' = LineageTable.roomFor (grantsOf log) ++ [g])
    (above : ∀ r ∈ log, r.said.token < g.fenceToken)
    (free : ∀ o ∈ grantsOf log, o.isOpen = true → o.extents.overlaps g.extents = false)
    (grows : log <+: log') (logged : ∃ r ∈ log', r.said.token = g.fenceToken) :
    Steps grantTerms (lockOf log written) (lockOf log' written) := by
  have left : ∀ o ∈ LineageTable.roomFor (grantsOf log), o ∈ grantsOf log := fun o member =>
    (LineageTable.roomFor_sublist (grantsOf log)).subset member
  have ended : Tenures.Step grantTerms (lockOf log written) { lockOf log written with
      held := { o | o ∈ LineageTable.roomFor (grantsOf log) ∧ o.isOpen = true } } :=
    .ended fun o held => ⟨left o held.1, held.2⟩
  have held : insert g { o | o ∈ LineageTable.roomFor (grantsOf log) ∧ o.isOpen = true } =
      (lockOf log' written).held := by
    ext o
    simp only [lockOf, grants, Set.mem_insert_iff, Set.mem_ofPred_eq, List.mem_append,
      List.mem_singleton]
    constructor
    · rintro (rfl | ⟨member, active⟩)
      · exact ⟨.inr rfl, active⟩
      · exact ⟨.inl member, active⟩
    · rintro ⟨member | rfl, active⟩
      · exact .inr ⟨member, active⟩
      · exact .inl rfl
  have granted : Tenures.Step grantTerms { lockOf log written with
      held := { o | o ∈ LineageTable.roomFor (grantsOf log) ∧ o.isOpen = true } }
      { lockOf log written with
        held := (lockOf log' written).held
        spent := insert g.fenceToken (lockOf log written).spent } := by
    rw [← held]
    refine .granted (t := g) ?_ fun o member => ?_
    · rintro k ⟨r, member, rfl⟩
      exact above r member
    · exact grantTerms_disjoint.mpr (free o (left o member.1) member.2)
  refine .tail (.tail (.single ended) granted) (.spent ?_)
  rintro k (rfl | ⟨r, member, spent⟩)
  · exact logged
  · exact ⟨r, grows.subset member, spent⟩

/-- Every move of an operation is some steps of the lock. -/
theorem Tracks.lock_move {w w' : Work} (tracks : Tracks w.state (log ++ w.emitted))
    (move : Work.Move w w') :
    Steps grantTerms (lockOf (log ++ w.emitted) written) (lockOf (log ++ w'.emitted) written) := by
  have grows : log ++ w.emitted <+: log ++ w'.emitted :=
    (List.prefix_append_right_inj log).mpr move.emitted
  have turnover := tracks.turnover move
  generalize grants : grantsOf (log ++ w'.emitted) = grants' at turnover
  generalize opens : opensOf (log ++ w'.emitted) = opens' at turnover
  cases turnover with
  | none => exact lockOf_shrinks (fun g member _ => grants ▸ member) grows
  | closed g =>
    refine lockOf_shrinks (fun o member active => ?_) grows
    rw [grants] at member
    rcases Entry.grants_close (grantsOf (log ++ w.emitted)) g with same | ⟨ends, same⟩
    · rwa [same] at member
    · rw [same] at member
      rcases mem_updateFirst member with old | ⟨_, _, _, rfl⟩
      · exact old
      · exact absurd (EpochGrant.isOpen_iff.mp active) ends
  | @opened g fresh ready =>
    refine lockOf_opens (EpochGrant.isOpen_iff.mpr fresh.isOpen) grants (fun r member => ?_)
      (fun o member active => fresh.free o (tracks.grants ▸ member) active) grows ?_
    · rw [fresh.token]
      exact lt_of_le_of_lt (tracks.tokens r member) (lt_succ fresh.tokenRoom)
    · obtain ⟨r, member, said⟩ := mem_opensOf.mp
        (show g ∈ opensOf (log ++ w'.emitted) by rw [opens]; simp)
      exact ⟨r, member, by rw [said]; rfl⟩

theorem Tracks.lock_reach {w w' : Work} (tracks : Tracks w.state (log ++ w.emitted))
    (reached : Work.Reach w w') :
    Steps grantTerms (lockOf (log ++ w.emitted) written) (lockOf (log ++ w'.emitted) written) := by
  induction reached with
  | refl => exact .refl
  | tail before move ih => exact ih.trans ((tracks.reach before).lock_move move)

end Moves

namespace History

variable {h h' : History} {event : Event}

/-- Every event leaves the log as some moves of an operation leave it. -/
theorem log_moves {law : List JournalRecord → Prop} (kept : Kept law h)
    (stepped : h.step event = some h') :
    ∃ v, Work.Reach h.work v ∧ h'.log = h.log ++ v.emitted := by
  have idle : ∃ v, Work.Reach h.work v ∧ h.log = h.log ++ v.emitted :=
    ⟨h.work, .refl, (List.append_nil h.log).symm⟩
  cases step_cases stepped with
  | called op now => exact ⟨_, Op.reach (w := h.work) kept.tracks.sound now op, rfl⟩
  | saved => exact idle
  | rebuilt s fills => exact idle
  | ticked room => exact idle
  | reloaded files s ran =>
    obtain ⟨v, partly, log, -⟩ := survived_reach kept.tracks.sound files
    exact ⟨v, partly, log⟩

/-- The commit that an event acknowledges, with the grant that it was made under. -/
def acknowledged (h : History) : Event → List (EpochGrant × CommitRequest)
  | .call (.commit request io) now =>
    match ((Work.commit request now io).exec h.work).1 with
    | .ok _ => (h.live.lineage.find request.grant).toList.map (·, request)
    | .error _ => []
  | _ => []

theorem acknowledged_holds {x : EpochGrant × CommitRequest} (member : x ∈ h.acknowledged event) :
    h.acknowledged event = [x] ∧ Work.Holds h.live x.2 x.1 := by
  unfold acknowledged at member ⊢
  split at member
  · rename_i request io now
    rcases ran : (Work.commit request now io).exec h.work with ⟨r, w⟩
    simp only [ran] at member ⊢
    cases r with
    | error refusal => cases member
    | ok response =>
      obtain ⟨-, g, holds⟩ := Work.commit_held ran
      have found : h.live.lineage.find request.grant = some g := holds.found
      simp only [found, Option.toList_some, List.map_cons, List.map_nil,
        List.mem_singleton] at member ⊢
      subst member
      exact ⟨rfl, holds⟩
  · cases member

end History

/-- A history with the commits acknowledged in it, oldest first. -/
structure Chronicle where
  history : History
  effects : List (EpochGrant × CommitRequest) := []

namespace Chronicle

open History (start servedStart sampleDomain sampleAllocation firstCommit)

variable {c c' : Chronicle} {event : Event}

def step (c : Chronicle) (event : Event) : Option Chronicle :=
  (c.history.step event).map fun h => {
    history := h
    effects := c.effects ++ c.history.acknowledged event }

/-- Any number of events of any kind from a fresh registry. -/
def Reachable (c : Chronicle) : Prop := ∃ config clock boot fabric h,
  start config clock boot fabric = some h ∧
    Relation.ReflTransGen (Runs.Turn step fun _ _ => True) { history := h } c

def lock (c : Chronicle) : Lock EpochGrant FenceToken :=
  lockOf c.history.log (c.effects.map (·.1))

theorem step_cases (stepped : c.step event = some c') : c.history.step event = some c'.history ∧
    c'.effects = c.effects ++ c.history.acknowledged event := by
  obtain ⟨h, moved, rfl⟩ := Option.map_eq_some_iff.mp stepped
  exact ⟨moved, rfl⟩

/-- An acknowledged commit is a write of its grant, and then its operation moves on. -/
theorem simulates {law : List JournalRecord → Prop} (kept : History.Kept law c.history)
    (stepped : c.step event = some c') : Steps grantTerms c.lock c'.lock := by
  obtain ⟨moved, effects⟩ := step_cases stepped
  obtain ⟨v, reached, log⟩ := History.log_moves kept moved
  have writes : Steps grantTerms c.lock (lockOf c.history.log (c'.effects.map (·.1))) := by
    rw [effects, List.map_append]
    rcases List.eq_nil_or_concat (c.history.acknowledged event) with none | ⟨_, x, some⟩
    · rw [none, List.map_nil, List.append_nil]
      exact .refl
    · have member : x ∈ c.history.acknowledged event := by
        rw [some]
        simp
      obtain ⟨one, holds⟩ := History.acknowledged_holds member
      rw [one]
      refine .single (.wrote (t := x.1) ⟨?_, holds.active⟩)
      rw [← kept.tracks.grants]
      exact (LineageTable.find_some holds.found).1
  have tracks := kept.emits .refl
  have before : c.history.log ++ c.history.work.emitted = c.history.log := List.append_nil _
  have moves : Steps grantTerms (lockOf _ (c'.effects.map (·.1))) _ := tracks.lock_reach reached
  rw [before, ← log] at moves
  exact writes.trans moves

theorem Reachable.history (reached : c.Reachable) :
    History.Reachable (fun _ _ => True) c.history := by
  obtain ⟨config, clock, boot, fabric, h, begun, run⟩ := reached
  refine ⟨config, clock, boot, fabric, h, begun, ?_⟩
  induction run with
  | refl => exact .refl
  | tail _ last ih =>
    obtain ⟨event, -, stepped⟩ := last
    exact ih.tail ⟨event, trivial, (step_cases stepped).1⟩

theorem Reachable.kept (reached : c.Reachable) : History.Kept Increasing c.history :=
  reached.history.kept List.Pairwise.nil fun _ _ _ tracks increasing move =>
    tracks.increasing increasing move

theorem Reachable.locked (reached : c.Reachable) :
    Steps grantTerms { held := ∅, spent := ∅, written := [] } c.lock := by
  obtain ⟨config, clock, boot, fabric, h, begun, run⟩ := reached
  have started : ({ held := ∅, spent := ∅, written := [] } : Lock EpochGrant FenceToken) =
      lock { history := h } := by
    obtain ⟨s, -, rfl⟩ := History.start_ok begun
    simp [lock, lockOf, grantsOf]
  rw [started]
  induction run with
  | refl => exact .refl
  | tail before last ih =>
    obtain ⟨event, -, stepped⟩ := last
    have kept := Reachable.kept ⟨config, clock, boot, fabric, h, begun, before⟩
    exact ih.trans (simulates kept stepped)

/-- A registry refines an exclusive lock: whatever happens to it, its journal is that of a
lock that starts with nothing, its open grants are what this lock holds, and each further
event takes the lock on by its own moves. -/
theorem refines_lock (c : Chronicle) (reached : c.Reachable) :
    Steps grantTerms { held := ∅, spent := ∅, written := [] } c.lock ∧
      c.lock.held = { g | g ∈ c.history.live.lineage.grants ∧ g.isOpen = true } ∧
      ∀ event c', c.step event = some c' → Steps grantTerms c.lock c'.lock := by
  refine ⟨reached.locked, ?_, fun event c' stepped => simulates reached.kept stepped⟩
  rw [reached.kept.tracks.grants]
  rfl

/-- Two coordinators on one domain: the second takes it over from the first. -/
def handedOver : Option Chronicle := servedStart.bind fun h =>
  Runs.guarded step (fun _ _ => true) { history := h } [
    .call (.defineDomain (sampleDomain 100 120)) 1, .call .allocateIncarnation 2,
    .call .allocateIncarnation 3, .call (.allocateEpoch (sampleAllocation 100 120 1 1)) 4,
    .call (.commit (firstCommit 1 1 1 1) .done) 5,
    .call (.allocateEpoch (sampleAllocation 100 120 2 1)) 6,
    .call (.commit (firstCommit 1 1 1 1) .done) 7, .call (.commit (firstCommit 2 2 2 3) .done) 8]

theorem handedOver_reachable {c : Chronicle} (ran : handedOver = some c) : c.Reachable := by
  obtain ⟨h, begun, ran⟩ := Option.bind_eq_some_iff.mp ran
  exact ⟨_, _, _, _, h, begun, Runs.guarded_turns (fun _ _ _ => trivial) ran⟩

theorem refines_lock_handed : ∃ c : Chronicle, c.Reachable ∧ c.effects.length = 2 ∧
    Steps grantTerms { held := ∅, spent := ∅, written := [] } c.lock ∧
      c.lock.held = { g | g ∈ c.history.live.lineage.grants ∧ g.isOpen = true } ∧
      ∀ event c', c.step event = some c' → Steps grantTerms c.lock c'.lock := by
  have evaluated : handedOver.map (·.effects.length) = some 2 := by decide +kernel
  obtain ⟨c, ran, two⟩ := Option.map_eq_some_iff.mp evaluated
  exact ⟨c, handedOver_reachable ran, two, refines_lock c (handedOver_reachable ran)⟩

/-- What an acknowledged commit says of its grant, and the opening of that grant. -/
structure Entered (log : List JournalRecord) (x : EpochGrant × CommitRequest) : Prop where
  extents : x.1.extents = x.2.scope
  token : x.1.fenceToken = x.2.fenceToken
  id : x.1.id = x.2.grant
  opened : ∃ g ∈ opensOf log, g.id = x.2.grant ∧ g.extents = x.2.scope ∧
    g.fenceToken = x.2.fenceToken

theorem Entered.grow {log log' : List JournalRecord} {x : EpochGrant × CommitRequest}
    (entered : Entered log x) (grows : log <+: log') : Entered log' x := by
  obtain ⟨extents, token, id, g, member, same⟩ := entered
  obtain ⟨more, rfl⟩ := grows
  refine ⟨extents, token, id, g, ?_, same⟩
  rw [opensOf_append]
  exact List.mem_append_left _ member

theorem Reachable.entered (reached : c.Reachable) :
    ∀ x ∈ c.effects, Entered c.history.log x := by
  obtain ⟨config, clock, boot, fabric, h, begun, run⟩ := reached
  induction run with
  | refl => simp
  | tail before last ih =>
    obtain ⟨event, -, stepped⟩ := last
    obtain ⟨moved, effects⟩ := step_cases stepped
    have grows := History.log_grows moved
    rw [effects]
    intro x member
    rcases List.mem_append.mp member with old | new
    · exact (ih x old).grow grows
    · obtain ⟨-, holds⟩ := History.acknowledged_holds new
      obtain ⟨held, id⟩ := LineageTable.find_some holds.found
      have kept := Reachable.kept ⟨config, clock, boot, fabric, h, begun, before⟩
      rw [kept.tracks.grants] at held
      obtain ⟨g, opened, _, _, _, same⟩ := closed_from_log held
      have entered : Entered _ x := ⟨holds.extents, holds.token, id, g, opened,
        by rw [← id, same]; rfl, by rw [← holds.extents, same]; rfl,
        by rw [← holds.token, same]; rfl⟩
      exact entered.grow grows

/-- The commits of one grant are on one scope under one token. -/
theorem Entered.same_grant {log : List JournalRecord} {x y : EpochGrant × CommitRequest}
    (increasing : Increasing log) (first : Entered log x) (second : Entered log y)
    (same : x.2.grant = y.2.grant) :
    x.2.scope = y.2.scope ∧ x.2.fenceToken = y.2.fenceToken := by
  obtain ⟨-, -, -, g, opened, id, extents, token⟩ := first
  obtain ⟨-, -, -, g', opened', id', extents', token'⟩ := second
  have distinct : ((opensOf log).map (·.id)).Nodup :=
    List.Pairwise.map _ (fun _ _ less => ne_of_lt less.1) increasing
  have unique : g = g' :=
    List.inj_on_of_nodup_map distinct opened opened' (by rw [id, id', same])
  exact ⟨by rw [← extents, ← extents', unique], by rw [← token, ← token', unique]⟩

/-- The order of the writes of a lock, as an order of the commits. -/
theorem Reachable.ordered (reached : c.Reachable) :
    c.effects.Pairwise (fun x y => x.2.scope.overlaps y.2.scope = true →
      x.2.fenceToken < y.2.fenceToken ∨
        x.2.fenceToken = y.2.fenceToken ∧ x.2.grant = y.2.grant) := by
  have lawful : Lawful grantTerms c.lock := (lawful_start ∅).steps reached.locked
  have entered := reached.entered
  have pairs := List.pairwise_map.mp lawful.ordered
  refine pairs.imp_of_mem fun {x y} first second behind overlap => ?_
  have left := entered x first
  have right := entered y second
  rcases behind with same | apart | below
  · exact .inr ⟨by rw [← left.token, ← right.token, same], by rw [← left.id, ← right.id, same]⟩
  · rw [grantTerms_disjoint, left.extents, right.extents, overlap] at apart
    cases apart
  · rw [← left.token, ← right.token]
    exact .inl below

/-- The commits that a registry acknowledges in its whole history, through every restart, are
in the order of their tokens wherever two of them share an extent, one token is one grant,
and between two commits of one grant nobody else is acknowledged on its extents. -/
theorem effects_serialised (c : Chronicle) (reached : c.Reachable) :
    c.effects.Pairwise (fun x y => x.2.scope.overlaps y.2.scope = true →
      x.2.fenceToken < y.2.fenceToken ∨ x.2.fenceToken = y.2.fenceToken ∧ x.2.grant = y.2.grant) ∧
    ∀ before x between y after, c.effects = before ++ x :: (between ++ y :: after) →
      x.2.grant = y.2.grant → ∀ z ∈ between, x.2.scope.overlaps z.2.scope = true →
        z.2.grant = x.2.grant := by
  have entered := reached.entered
  have increasing : Increasing c.history.log := reached.kept.lawful
  have ordered := reached.ordered
  refine ⟨ordered, fun before x between y after split same z member overlap => ?_⟩
  have inside : x ∈ c.effects ∧ y ∈ c.effects := by rw [split]; simp
  obtain ⟨scope, token⟩ := (entered x inside.1).same_grant increasing (entered y inside.2) same
  rw [split] at ordered
  obtain ⟨first, rest⟩ := List.pairwise_cons.mp (List.pairwise_append.mp ordered).2.1
  rcases first z (List.mem_append_left _ member) overlap with below | ⟨-, grant⟩
  · have shared : z.2.scope.overlaps y.2.scope = true := by
      obtain ⟨e, here, there⟩ := (Scope.overlaps_iff _ _).mp overlap
      exact (Scope.overlaps_iff _ _).mpr ⟨e, there, scope ▸ here⟩
    have later := (List.pairwise_append.mp rest).2.2 z member y List.mem_cons_self shared
    rcases later with above | ⟨-, grant⟩
    · exact absurd (below.trans (token ▸ above)) (lt_irrefl _)
    · rw [grant, same]
  · exact grant.symm

theorem effects_serialised_handed : ∃ c : Chronicle, c.Reachable ∧
    c.effects.map (·.2.fenceToken) = [1, 3] ∧
    c.effects.Pairwise (fun x y => x.2.scope.overlaps y.2.scope = true →
      x.2.fenceToken < y.2.fenceToken ∨ x.2.fenceToken = y.2.fenceToken ∧ x.2.grant = y.2.grant) := by
  have evaluated : handedOver.map (·.effects.map (·.2.fenceToken)) = some [1, 3] := by
    decide +kernel
  obtain ⟨c, ran, tokens⟩ := Option.map_eq_some_iff.mp evaluated
  exact ⟨c, handedOver_reachable ran, tokens, (effects_serialised c (handedOver_reachable ran)).1⟩

end Chronicle
end SplitBrainFabric
