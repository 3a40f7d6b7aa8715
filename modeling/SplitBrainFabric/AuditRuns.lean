import SplitBrainFabric.Health
import SplitBrainFabric.Retirement
import SplitBrainFabric.Capacity
import SplitBrainFabric.Replay
import SplitBrainFabric.OperationFrames

/-! Runs of a registry whose every audit is clean. A call disturbs the audit when it takes
an incarnation, or the extents, from under a grant that it leaves open. -/

namespace SplitBrainFabric
open Words

namespace RegistryState

open LineageTable (mem_openGrants)
open Work (Affords Fits Pending)

variable {s s' : RegistryState} {named : EpochGrant → Bool} {l : List EpochGrant}

/-- An open grant that stays loses its incarnation. -/
def Disowns (s : RegistryState) (named : EpochGrant → Bool) (l : List EpochGrant) : Prop :=
  s.fences.fencedIncarnations.size < Limits.maxFenceRecords ∧
    ∃ g ∈ l, named g = true ∧ ∃ o ∈ s.lineage.openGrants, o.incarnation = g.incarnation ∧ o ∉ l

/-- Not even the first of these grants can be given up, or all of them can, and no other
loses its incarnation with them. -/
def Spares (s : RegistryState) (named : EpochGrant → Bool) (l : List EpochGrant) : Prop :=
  (∃ g ∈ l.head?, ¬ (Affords s 1 1 ∧ Fits s g.extents)) ∨
    (Affords s (2 * l.length) l.length ∧ ∀ g ∈ l, Fits s g.extents) ∧ ¬ Disowns s named l

theorem Undisturbed.congr (undisturbed : Undisturbed s) (lineage : s'.lineage = s.lineage)
    (fences : s'.fences = s.fences) : Undisturbed s' where
  owners := by rw [lineage, fences]; exact undisturbed.owners
  marks := by rw [lineage, fences]; exact undisturbed.marks

theorem Undisturbed.givenUp (undisturbed : Undisturbed s) (footing : Footing s)
    (held : ∀ g ∈ l, g ∈ s.lineage.grants ∧ g.isOpen = true) (keeps : ¬ Disowns s named l)
    (given : GivenUp named l s s') : Undisturbed s' where
  owners o member active := by
    obtain ⟨old, other⟩ := given.opens o member active
    have stays : o ∉ l := fun inside => other o inside rfl
    have free := undisturbed.owners o old active
    by_contra fenced
    rw [Bool.not_eq_false] at fenced
    rcases given.disowned o.incarnation fenced with before | ⟨room, g, inside, flag, same⟩
    · rw [free] at before
      cases before
    · exact keeps ⟨room, g, inside, flag, o, mem_openGrants.mpr ⟨old, active⟩, same.symm, stays⟩
  marks o member active e inside := by
    obtain ⟨old, other⟩ := given.opens o member active
    rcases given.marks e with same | ⟨g, here, shared⟩
    · rw [same]
      exact undisturbed.marks o old active e inside
    · obtain ⟨left, active'⟩ := held g here
      have same := footing.same_of_shared left old active' active shared inside
      exact absurd (congrArg EpochGrant.id same) (other g here)

/-- What leaves authority alone leaves the audit alone. -/
theorem Undisturbed.idle (undisturbed : Undisturbed s) (given : GivenUp named [] s s') :
    Undisturbed s' where
  owners o member active := by
    obtain ⟨old, -⟩ := given.opens o member active
    by_contra fenced
    rw [Bool.not_eq_false] at fenced
    rcases given.disowned o.incarnation fenced with before | ⟨-, g, inside, -⟩
    · rw [undisturbed.owners o old active] at before
      cases before
    · cases inside
  marks o member active e inside := by
    obtain ⟨old, -⟩ := given.opens o member active
    rcases given.marks e with same | ⟨g, here, -⟩
    · rw [same]
      exact undisturbed.marks o old active e inside
    · cases here

/-- Marks outside the scope stay, no incarnation is fenced, no grant is new. -/
structure Adopts (scope : Scope) (s s' : RegistryState) : Prop where
  grants : s'.lineage.grants = s.lineage.grants
  incarnations : ∀ i, s'.fences.incarnationFenced i = s.fences.incarnationFenced i
  marks : ∀ e, e ∉ scope.extents → s'.fences.highWater e = s.fences.highWater e

theorem Undisturbed.adopts {scope : Scope} (undisturbed : Undisturbed s) (adopts : Adopts scope s s')
    (free : ∀ o ∈ s.lineage.grants, o.isOpen = true → o.extents.overlaps scope = false) :
    Undisturbed s' where
  owners o member active := by
    rw [adopts.grants] at member
    rw [adopts.incarnations]
    exact undisturbed.owners o member active
  marks o member active e inside := by
    rw [adopts.grants] at member
    have outside := Scope.outside_of_apart (free o member active) inside
    rw [adopts.marks e outside]
    exact undisturbed.marks o member active e inside

end RegistryState

namespace Work

open RegistryState (Footing Undisturbed Disowns Spares Adopts enact)

variable {w w' : Work} {now : Step} {g : EpochGrant} {named : EpochGrant → Bool}

/-- Kinds of record that leave the fences and the grants alone. -/
def asideKinds : List RecordKind :=
  [.domainDefine, .policyDefine, .incarnationAllocate, .commitRecord]

theorem enact_aside {s s' : RegistryState} {record : JournalRecord} {entry : Entry}
    {r : Except Status PUnit} (aside : record.kind ∈ asideKinds) (read : record.entry = .ok entry)
    (ran : (enact entry).exec s = (r, s')) : s'.lineage = s.lineage ∧ s'.fences = s.fences := by
  have made : ∀ {α : Type} {x : Except Status α} {f : α → Entry}, x.map f = .ok entry →
      ∃ a, entry = f a := by
    intro α x f read
    cases x with
    | ok a => cases read; exact ⟨a, rfl⟩
    | error st => cases read
  unfold JournalRecord.entry at read
  simp only [asideKinds, List.mem_cons, List.not_mem_nil, or_false] at aside
  have same : entry.avoidsLineage = true ∧ entry.avoidsFences = true := by
    rcases aside with kind | kind | kind | kind
    · rw [kind] at read
      obtain ⟨d, rfl⟩ := made read
      exact ⟨rfl, rfl⟩
    · rw [kind] at read
      obtain ⟨p, rfl⟩ := made read
      exact ⟨rfl, rfl⟩
    · rw [kind] at read
      obtain ⟨i, rfl⟩ := made read
      exact ⟨rfl, rfl⟩
    · rw [kind] at read
      cases read
      exact ⟨rfl, rfl⟩
  exact ⟨RegistryState.enact_lineage same.1 ran, RegistryState.enact_fences same.2 ran⟩

theorem apply_aside {s s' : RegistryState} {record : JournalRecord} {r : Except Status PUnit}
    (aside : record.kind ∈ asideKinds) (ran : (RegistryState.apply record).exec s = (r, s')) :
    s'.lineage = s.lineage ∧ s'.fences = s.fences := by
  rcases RegistryState.apply_cases ran with ⟨rfl, -⟩ | ⟨-, -, ⟨_, -, -, rfl⟩ | ⟨entry, read, enacted⟩⟩
  · exact ⟨rfl, rfl⟩
  · exact ⟨rfl, rfl⟩
  · obtain ⟨lineage, fences⟩ := enact_aside aside read enacted
    exact ⟨lineage, fences⟩

theorem frame_aside {kinds : List RecordKind} (aside : ∀ kind ∈ kinds, kind ∈ asideKinds)
    (lineage : LineageTable) (fences : FenceTable) :
    Frame now kinds fun w => w.state.lineage = lineage ∧ w.state.fences = fences := by
  refine ⟨fun kind member payload status => .of_run fun w r w' before ran => ?_,
    fun _ _ _ _ same => same⟩
  obtain ⟨same, same'⟩ := before
  have kept : w'.state.lineage = w.state.lineage ∧ w'.state.fences = w.state.fences := by
    rcases emit_cases ran with ⟨s, -, rfl, applied⟩ | ⟨st, s, -, rfl, applied⟩
    · obtain ⟨lineage, fences⟩ := apply_aside (aside kind member) applied
      exact ⟨lineage, fences⟩
    · obtain ⟨lineage, fences⟩ := apply_aside (aside kind member) applied
      exact ⟨lineage, fences⟩
  exact ⟨kept.1.trans same, kept.2.trans same'⟩

/-- An operation that neither fences nor opens. -/
theorem after_aside_same (w : Work) (now : Step) {op : Op}
    (aside : ∀ kind ∈ op.kinds, kind ∈ asideKinds) :
    (op.after now w).state.lineage = w.state.lineage ∧
      (op.after now w).state.fences = w.state.fences := by
  have frame : Frame now op.kinds fun v => v.state.lineage = w.state.lineage ∧
      v.state.fences = w.state.fences := frame_aside aside w.state.lineage w.state.fences
  exact Op.keeps (w := w) frame (fun _ _ _ => onFabric_keeps fun _ _ before => before) ⟨rfl, rfl⟩

theorem after_aside {op : Op} (aside : ∀ kind ∈ op.kinds, kind ∈ asideKinds)
    (undisturbed : Undisturbed w.state) : Undisturbed (op.after now w).state := by
  obtain ⟨lineage, fences⟩ := after_aside_same w now aside
  exact undisturbed.congr lineage fences

/-- A loop that gives up open grants. -/
theorem foldlM_undisturbed {ε β : Type} {turn : β → EpochGrant → Prog ε Work β}
    (gives : Gives named turn) (retires : Retires 2 turn) {l : List EpochGrant} {b : β}
    {r : Except ε β} (footing : Footing w.state) (undisturbed : Undisturbed w.state)
    (pending : Pending l w.state.lineage) (spares : Spares w.state named l)
    (ran : (l.foldlM turn b).exec w = (r, w')) :
    Undisturbed w'.state ∧ ((∃ b', r = .ok b') → GivenUp named l w.state w'.state) := by
  rcases spares with ⟨g, first, lacks⟩ | ⟨⟨affords, fits⟩, keeps⟩
  · obtain ⟨⟨e, rfl⟩, none⟩ := foldlM_balks gives footing pending first lacks ran
    exact ⟨undisturbed.idle none, by rintro ⟨_, ⟨⟩⟩⟩
  · obtain ⟨-, given⟩ := foldlM_through gives retires footing pending affords fits ran
    exact ⟨undisturbed.givenUp footing pending.open' keeps given, fun _ => given⟩

theorem release_undisturbed {request : ReleaseRequest} (footing : Footing w.state)
    (undisturbed : Undisturbed w.state)
    (spares : ∀ g ∈ w.state.lineage.find request.grant, g.isOpen = true →
      Spares w.state (fun _ => true) [g]) :
    Undisturbed ((release request now).exec w).2.state := by
  rcases ran : (release request now).exec w with ⟨r, w'⟩
  cases release_releases ran with
  | refused refusal idle => exact undisturbed
  | held found active released =>
    have member := (LineageTable.find_some found).1
    have ended := (release_ends footing found active ran).ok_iff fun stuck => stuck.2
    obtain ⟨through, balks⟩ := surrender_gives (by decide) footing member active released
    rcases spares _ found active with ⟨first, ⟨⟩, lacks⟩ | ⟨⟨affords, fits⟩, keeps⟩
    · exact undisturbed.idle (balks lacks).2
    · have given := through (ended.mpr ⟨affords, fits _ (List.mem_singleton_self _)⟩)
      refine undisturbed.givenUp footing (fun o inside => ?_) keeps given
      rw [List.mem_singleton.mp inside]
      exact ⟨member, active⟩

/-- A fence without a grant hurts no open grant. -/
def Passing (s : RegistryState) (request : FenceRequest) : Prop :=
  ∀ o ∈ s.lineage.openGrants, o.extents.overlaps request.scope = false ∧
    (s.fences.fencedIncarnations.size < Limits.maxFenceRecords → o.incarnation ≠ request.incarnation)

theorem fenced_undisturbed {request : FenceRequest} {cause : Reason}
    (undisturbed : Undisturbed w.state) (passing : Passing w.state request) :
    Undisturbed (w.fenced request.domain request.scope request.epoch request.incarnation 0 cause true
      now).state := by
  have fences : (w.fenced request.domain request.scope request.epoch request.incarnation 0 cause true
      now).state.fences = w.state.fences.applied (w.fenceRecord request.domain request.scope
        request.epoch request.incarnation 0 cause true now) request.scope := rfl
  constructor
  · intro o member active
    have member : o ∈ w.state.lineage.grants := member
    obtain ⟨-, apart⟩ := passing o (LineageTable.mem_openGrants.mpr ⟨member, active⟩)
    have free := undisturbed.owners o member active
    by_contra disowned
    rw [Bool.not_eq_false, fences, FenceTable.incarnationFenced,
      FenceTable.applied_fencedIncarnations] at disowned
    rcases FenceTable.noteIncarnation_fenced disowned with old | ⟨room, same⟩
    · rw [free] at old
      cases old
    · exact apart room same.symm
  · intro o member active e inside
    have member : o ∈ w.state.lineage.grants := member
    obtain ⟨apart, -⟩ := passing o (LineageTable.mem_openGrants.mpr ⟨member, active⟩)
    have outside := Scope.outside_of_apart apart inside
    rw [fences, FenceTable.applied_highWater, if_neg outside]
    exact undisturbed.marks o member active e inside

theorem fence_undisturbed {request : FenceRequest} (footing : Footing w.state)
    (undisturbed : Undisturbed w.state)
    (alone : w.state.lineage.openGrants.filter (fencedBy request) = [] → Affords w.state 1 1 →
      Fits w.state request.scope → Names w.state request.domain request.scope →
      Passing w.state request)
    (spares : Names w.state request.domain request.scope →
      Spares w.state (fun _ => true) (w.state.lineage.openGrants.filter (fencedBy request))) :
    Undisturbed ((fence request now).exec w).2.state := by
  rcases ran : (fence request now).exec w with ⟨r, w'⟩
  cases fence_fences ran with
  | refused refusal fails => exact undisturbed
  | alone names unmatched fenced =>
    rcases fenceScope_cases names.named names.filled footing.marked fenced with
      ⟨affords, fits, rfl, rfl⟩ | ⟨⟨st, rfl⟩, -⟩
    · exact fenced_undisturbed undisturbed (alone unmatched affords fits names)
    · have none : GivenUp (fun _ => true) [] w.state w'.state :=
        fenceScope_refused footing.marked fenced
      exact undisturbed.idle none
  | matched names some' looped =>
    have pending := (pending_openGrants footing.sound).sublist
      (List.filter_sublist (p := fencedBy request))
    exact (foldlM_undisturbed (fenceGrant_gives request now) (fenceGrant_retires request now)
      footing undisturbed pending (spares names) looped).1

section Opening

variable {request : AllocateEpochRequest}

/-- The adoption of a scope, however it ends. -/
theorem adopt_adopts {r : Except Status PUnit}
    (ran : (emit .extentAdopt (encodeFencePayload (adoptRecord g now) g.extents) .ok now).exec w =
      (r, w')) : Adopts g.extents w.state w'.state := by
  have applied : ∀ {s r}, (RegistryState.apply (w.nextRecord .extentAdopt (encodeFencePayload
      (adoptRecord g now) g.extents) .ok now)).exec w.state = (r, s) →
      Adopts g.extents w.state s := by
    intro s r applied
    rcases RegistryState.apply_cases applied with ⟨rfl, -⟩ | ⟨-, -, ⟨_, -, -, rfl⟩ |
      ⟨entry, read, enacted⟩⟩
    · exact ⟨rfl, fun _ => rfl, fun _ _ => rfl⟩
    · exact ⟨rfl, fun _ => rfl, fun _ _ => rfl⟩
    · rw [adopt_entry read] at enacted
      rcases RegistryState.enact_extentAdopt enacted with ⟨-, -, rfl⟩ | ⟨-, rfl⟩
      · refine ⟨rfl, fun _ => rfl, fun e outside => ?_⟩
        exact (FenceTable.adopted_highWater e).trans (if_neg outside)
      · exact ⟨rfl, fun _ => rfl, fun _ _ => rfl⟩
  rcases emit_cases ran with ⟨s, -, rfl, accepted⟩ | ⟨st, s, -, rfl, refused⟩
  · obtain ⟨grants, incarnations, marks⟩ := applied accepted
    exact ⟨grants, incarnations, marks⟩
  · obtain ⟨grants, incarnations, marks⟩ := applied refused
    exact ⟨grants, incarnations, marks⟩

/-- A grant that was refused leaves nothing. -/
theorem open_refused {st : Status} (sound : w.state.lineage.Sound)
    (ran : (emit .grantOpen (encodeGrant g) .ok now).exec w = (.error st, w')) :
    w'.state.lineage = w.state.lineage ∧ w'.state.fences = w.state.fences := by
  rcases emit_cases ran with ⟨_, done, -⟩ | ⟨_, s, -, rfl, applied⟩
  · cases done
  rcases RegistryState.apply_cases applied with ⟨rfl, -⟩ | ⟨-, -, ⟨_, -, -, rfl⟩ |
    ⟨entry, read, enacted⟩⟩
  · exact ⟨rfl, rfl⟩
  · exact ⟨rfl, rfl⟩
  · rw [read_back (agrees_grant g) read] at enacted
    have bounded : (RegistryState.observe (w.nextRecord .grantOpen (encodeGrant g) .ok now)
      w.state).lineage.Bounded := sound.bounded
    rcases RegistryState.enact_grantOpen bounded enacted with ⟨done, -⟩ | ⟨-, rfl⟩
    · cases done
    · exact ⟨rfl, rfl⟩

/-- A fresh grant that is refused has at most adopted its scope. -/
theorem openFresh_adopts {st : Status} (sound : w.state.lineage.Sound)
    (ran : (openFresh request now).exec w = (.error st, w')) :
    Adopts request.scope w.state w'.state := by
  have nothing : Adopts request.scope w.state w.state := ⟨rfl, fun _ => rfl, fun _ _ => rfl⟩
  rw [openFresh, Prog.exec_get_bind, Prog.exec_refuseIf] at ran
  split at ran
  · cases ran
    exact nothing
  rw [Prog.exec_refuseIf] at ran
  split at ran
  · cases ran
    exact nothing
  rw [Prog.exec_bind] at ran
  rcases adopted : (emit .extentAdopt (encodeFencePayload (adoptRecord (w.freshGrant request now)
    now) (w.freshGrant request now).extents) .ok now).exec w with ⟨result, w₁⟩
  have after : Adopts request.scope w.state w₁.state := adopt_adopts adopted
  have same : (w.freshGrant request now).extents = request.scope := rfl
  rw [same] at adopted
  rw [adopted] at ran
  cases result with
  | error refusal =>
    cases ran
    exact after
  | ok u =>
    simp only [Prog.exec_bind] at ran
    rcases last : (emit .grantOpen (encodeGrant (w.freshGrant request now)) .ok now).exec w₁ with
      ⟨result, w₂⟩
    rw [last] at ran
    cases result with
    | ok u => cases ran
    | error refusal =>
      cases ran
      obtain ⟨lineage, fences⟩ := open_refused (sound.withGrants after.grants) last
      refine ⟨?_, fun i => ?_, fun e outside => ?_⟩
      · rw [lineage, after.grants]
      · rw [fences, after.incarnations]
      · rw [fences, after.marks e outside]

theorem opening_grants {o : EpochGrant} (member : o ∈ ((w.adopting (w.freshGrant request now)
    now).opening (w.freshGrant request now) now).state.lineage.grants) :
    o ∈ w.state.lineage.grants ∨ o = w.freshGrant request now := by
  rcases List.mem_append.mp member with old | last
  · exact .inl ((LineageTable.roomFor_sublist _).subset old)
  · exact .inr (List.mem_singleton.mp last)

theorem opening_highWater (e : ExtentId) : ((w.adopting (w.freshGrant request now) now).opening
    (w.freshGrant request now) now).state.fences.highWater e =
      if e ∈ request.scope.extents then w.state.tokenCounter + 1
      else w.state.fences.highWater e := FenceTable.adopted_highWater e

theorem openFresh_undisturbed {r : Except Status EpochGrant} (footing : Footing w.state)
    (undisturbed : Undisturbed w.state) (names : Names w.state request.domain request.scope)
    (incarnation : request.incarnation ≠ 0)
    (unfenced : w.state.fences.incarnationFenced request.incarnation = false)
    (free : ∀ o ∈ w.state.lineage.grants, o.isOpen = true →
      o.extents.overlaps request.scope = false)
    (ran : (openFresh request now).exec w = (r, w')) : Undisturbed w'.state := by
  rcases openFresh_cases footing names incarnation free ran with
    ⟨-, -, -, -, rfl⟩ | ⟨⟨st, rfl⟩, -⟩
  · have owners : ∀ i, ((w.adopting (w.freshGrant request now) now).opening
        (w.freshGrant request now) now).state.fences.incarnationFenced i =
        w.state.fences.incarnationFenced i := fun i => FenceTable.adopted_incarnationFenced i
    constructor
    · intro o member active
      rw [owners]
      rcases opening_grants member with old | rfl
      · exact undisturbed.owners o old active
      · exact unfenced
    · intro o member active e inside
      rw [opening_highWater]
      rcases opening_grants member with old | rfl
      · have outside := Scope.outside_of_apart (free o old active) inside
        rw [if_neg outside]
        exact undisturbed.marks o old active e inside
      · rw [if_pos (show e ∈ request.scope.extents from inside)]
        exact le_rfl
  · exact undisturbed.adopts (openFresh_adopts footing.sound ran) free

/-- An allocation disowns the incarnations it supersedes, not its own. -/
def superseded (request : AllocateEpochRequest) (g : EpochGrant) : Bool :=
  Decidable.decide (g.incarnation ≠ request.incarnation)

theorem allocateEpoch_undisturbed (footing : Footing w.state) (undisturbed : Undisturbed w.state)
    (spares : Admissible w.state request → request.boot ≠ 0 →
      w.repeatedAttempt request = none →
      Spares w.state (superseded request) (overlapped w.state request)) :
    Undisturbed ((allocateEpoch request now).exec w).2.state := by
  rcases ran : (allocateEpoch request now).exec w with ⟨r, w'⟩
  have given : ∀ {r w₁}, w.repeatedAttempt request = none → Admissible w.state request →
      request.boot ≠ 0 → (w.state.lineage.openGrants.forM (supersede request now)).exec w =
        (r, w₁) → Undisturbed w₁.state ∧ ((∃ u, r = .ok u) → GivenUp (superseded request)
          (overlapped w.state request) w.state w₁.state) := by
    intro r w₁ fresh admissible boot looped
    rw [supersede_forM, Prog.forM_eq_foldlM] at looped
    have pending := (pending_openGrants footing.sound).sublist
      (List.filter_sublist (p := fun g => g.extents.overlaps request.scope))
    exact foldlM_undisturbed (displace_gives request now) (displace_retires request now) footing
      undisturbed pending (spares admissible boot fresh) looped
  cases allocateEpoch_allocates ran with
  | refused refusal fails => exact undisturbed
  | repeated admissible boot found => exact undisturbed.congr rfl rfl
  | stuck admissible boot fresh looped => exact (given fresh admissible boot looped).1
  | cleared admissible boot fresh looped opened =>
    rename_i result w₁
    obtain ⟨after, given⟩ := given fresh admissible boot looped
    obtain ⟨reached, free⟩ := supersede_clears footing.sound looped
    have unfenced : w₁.state.fences.incarnationFenced request.incarnation = false := by
      by_contra fenced
      rw [Bool.not_eq_false] at fenced
      rcases (given ⟨_, rfl⟩).disowned request.incarnation fenced with old | ⟨-, g, -, flag, same⟩
      · rw [admissible.unfenced] at old
        cases old
      · exact of_decide_eq_true flag same
    exact openFresh_undisturbed (preserved_footing.reach footing reached) after
      (admissible.names reached)
      admissible.incarnation unfenced free opened

end Opening

/-- A recovery that succeeds leaves nothing open. -/
theorem recoverAfterRestart_closes (footing : Footing w.state)
    (ran : (recoverAfterRestart now).exec w = (.ok ⟨⟩, w')) :
    ∀ o ∈ w'.state.lineage.grants, o.isOpen = false := by
  rw [recoverAfterRestart, Prog.exec_get_bind] at ran
  obtain ⟨_, w₁, ended, ran⟩ := Prog.bind_ok ran
  rw [Prog.exec_get_bind] at ran
  obtain ⟨_, w₂, looped, opened⟩ := Prog.bind_ok ran
  have reached : Reach w w₁ :=
    (Prog.Ensures.forM (fun _ => Reach w) (fun record _ => endBootRecord_spec now w record)
      w.state.lineage.boots).either .refl ended
  have footing₁ := preserved_footing.reach footing reached
  rw [Prog.forM_eq_foldlM] at looped
  have given := foldlM_givenUp (interruptGrant_gives now) (interruptGrant_retires now) footing₁
    (pending_openGrants footing₁.sound) looped
  have grants : w'.state.lineage.grants = w₂.state.lineage.grants := by
    rw [openBoot, Prog.exec_get_bind] at opened
    obtain ⟨-, opened⟩ := Prog.refuseIf_ok opened
    rw [Prog.exec_modify_bind, Prog.exec_get_bind] at opened
    obtain ⟨entry, s, read, enacted, rfl⟩ := emit_ok opened
    rw [read_back (agrees_bootRecord _) read] at enacted
    have began := RegistryState.enact_bootBegin enacted
    have same : s.lineage.grants = w₂.state.lineage.grants := by
      rw [began]
      exact LineageTable.beginBoot_grants _ _
    exact same
  intro o member
  rw [grants] at member
  cases active : o.isOpen with
  | false => rfl
  | true =>
    obtain ⟨old, other⟩ := given.opens o member active
    exact absurd rfl (other o (LineageTable.mem_openGrants.mpr ⟨old, active⟩))

end Work

namespace RegistryState

open Work (Affords Fits Names)

theorem Undisturbed.of_closed {s : RegistryState}
    (closed : ∀ o ∈ s.lineage.grants, o.isOpen = false) : Undisturbed s where
  owners o member active := by rw [closed o member] at active; cases active
  marks o member active := by rw [closed o member] at active; cases active

/-- When a call leaves the audit clean. -/
def Harmless (s : RegistryState) : Op → Prop
  | .release request => ∀ g ∈ s.lineage.find request.grant, g.isOpen = true →
      Spares s (fun _ => true) [g]
  | .fence request => Names s request.domain request.scope →
      Spares s (fun _ => true) (s.lineage.openGrants.filter (Work.fencedBy request)) ∧
      (s.lineage.openGrants.filter (Work.fencedBy request) = [] → Affords s 1 1 →
        Fits s request.scope → Work.Passing s request)
  | .allocateEpoch request => Work.Admissible s request → request.boot ≠ 0 →
      ({ state := s } : Work).repeatedAttempt request = none →
      Spares s (Work.superseded request) (Work.overlapped s request)
  | .recoverAfterRestart => s.incarnationCounter ≠ maxWord ∧
      Affords s ((Work.unended s).length + 3 * s.lineage.openGrants.length + 1)
        s.lineage.openGrants.length ∧ ∀ g ∈ s.lineage.openGrants, Fits s g.extents
  | .defineDomain _ | .definePolicy _ | .allocateIncarnation | .decide _ _ | .commit _ _ => True

instance decidableAffords (s : RegistryState) (records tokens : Nat) :
    Decidable (Affords s records tokens) :=
  decidable_of_iff (s.registrySequence.toNat + records ≤ maxWord.toNat ∧
    s.tokenCounter.toNat + tokens ≤ maxWord.toNat) ⟨fun h => ⟨h.1, h.2⟩, fun h => ⟨h.1, h.2⟩⟩

instance decidableFits (s : RegistryState) (scope : Scope) : Decidable (Fits s scope) :=
  inferInstanceAs (Decidable (_ ≤ _))

instance decidableDisowns (s : RegistryState) (named : EpochGrant → Bool) (l : List EpochGrant) :
    Decidable (Disowns s named l) :=
  inferInstanceAs (Decidable (_ ∧ ∃ g ∈ l, _ ∧ ∃ o ∈ _, _ ∧ _))

instance decidableSpares (s : RegistryState) (named : EpochGrant → Bool) (l : List EpochGrant) :
    Decidable (Spares s named l) :=
  inferInstanceAs (Decidable ((∃ g ∈ l.head?, _) ∨ _))

end RegistryState

namespace History

open RegistryState (Footing Harmless Spares Undisturbed)

/-- Everything but a restart is taken as it comes, a call when it is harmless. -/
def Permitted (h : History) : Event → Prop
  | .call op _ => Harmless h.live op
  | .restart _ => False
  | .checkpoint | .rebuild | .tick => True

/-- The states of a registry between one open and the next. -/
inductive Served : History → Prop
  | start {config : RegistryConfig} {clock : Step} {boot : BootRecord} {fabric : FabricStore}
    {h : History} (begun : start config clock boot fabric = some h) : Served h
  | turn {h h' : History} (served : Served h) (turn : Turn Permitted h h') : Served h'
  | reopen {h : History} {files : Restart} {point : Option Nat} {w : Work} (served : Served h)
    (opened : h.reopened files point = (.ok ⟨⟩, w)) : Served (h.resumed files w)

theorem Served.reachable {h : History} (served : Served h) : Reachable (fun _ _ => True) h := by
  induction served with
  | start begun => exact ⟨_, _, _, _, _, begun, .refl⟩
  | turn _ turn reached =>
    obtain ⟨event, -, stepped⟩ := turn
    exact reached.turns (.single ⟨event, trivial, stepped⟩)
  | reopen _ opened reached => exact reached.resumed opened

theorem Served.turns {h h' : History} (served : Served h)
    (run : Relation.ReflTransGen (Turn Permitted) h h') : Served h' := by
  induction run with
  | refl => exact served
  | tail _ last ih => exact ih.turn last

theorem called_undisturbed {h : History} {op : Op} {now : Step}
    (reached : Reachable (fun _ _ => True) h) (undisturbed : Undisturbed h.live)
    (harmless : Harmless h.live op) : Undisturbed (h.called op now).live := by
  have footing : Footing h.work.state := reached.footing
  cases op with
  | release request => exact Work.release_undisturbed footing undisturbed harmless
  | fence request =>
    exact Work.fence_undisturbed footing undisturbed
      (fun matched affords fits names => (harmless names).2 matched affords fits)
      fun names => (harmless names).1
  | allocateEpoch request => exact Work.allocateEpoch_undisturbed footing undisturbed harmless
  | recoverAfterRestart =>
    obtain ⟨room, whole⟩ := harmless
    have runs : ∃ w', (Work.recoverAfterRestart now).exec h.work = (.ok ⟨⟩, w') :=
      (Work.recoverAfterRestart_ok_iff footing reached.placed room).mpr whole
    obtain ⟨w', ran⟩ := runs
    have same : (h.called .recoverAfterRestart now).live = w'.state :=
      congrArg (fun p => p.2.state) ran
    rw [same]
    exact .of_closed (Work.recoverAfterRestart_closes footing ran)
  | defineDomain d => exact Work.after_aside (w := h.work) (by simp [Op.kinds, Work.asideKinds]) undisturbed
  | definePolicy p => exact Work.after_aside (w := h.work) (by simp [Op.kinds, Work.asideKinds]) undisturbed
  | allocateIncarnation => exact Work.after_aside (w := h.work) (by simp [Op.kinds, Work.asideKinds]) undisturbed
  | decide request sorting =>
    exact Work.after_aside (w := h.work) (by simp [Op.kinds, Work.asideKinds]) undisturbed
  | commit request io => exact Work.after_aside (w := h.work) (by simp [Op.kinds, Work.asideKinds]) undisturbed

theorem turn_undisturbed {h h' : History} (reached : Reachable (fun _ _ => True) h)
    (undisturbed : Undisturbed h.live) (turn : Turn Permitted h h') : Undisturbed h'.live := by
  obtain ⟨event, permitted, stepped⟩ := turn
  cases step_cases stepped with
  | called op now => exact called_undisturbed reached undisturbed permitted
  | saved => exact undisturbed
  | reloaded files s ran => exact permitted.elim
  | rebuilt s fills =>
    rcases fills with rfl | rfl
    · exact undisturbed
    · exact undisturbed.congr rfl rfl
  | ticked room => exact undisturbed.congr rfl rfl

theorem start_ungranted {config : RegistryConfig} {clock : Step} {boot : BootRecord}
    {fabric : FabricStore} {h : History} (begun : start config clock boot fabric = some h) :
    h.live.lineage.grants = [] := by
  obtain ⟨s, ran, rfl⟩ := start_ok begun
  rw [RegistryState.initialise_ok ran]

/-- Every registry of such a run passes its audit. -/
theorem audit_clean (h : History) (served : Served h) : (auditRegistryState h.live).findings = [] := by
  have undisturbed : Undisturbed h.live := by
    induction served with
    | start begun =>
      exact .of_closed (by simp [start_ungranted begun])
    | turn served turn before => exact turn_undisturbed served.reachable before turn
    | reopen served opened _ =>
      obtain ⟨h', turns, recovered, -⟩ := reopened_parts opened
      have footing : Footing h'.work.state := (served.reachable.turns turns).footing
      exact .of_closed (Work.recoverAfterRestart_closes footing recovered)
  exact (RegistryAudit.passes_iff_empty h.live).mpr
    (served.reachable.healthy.passes_iff.mpr undisturbed)

/-- The checks a sample run makes before its calls. -/
def sparing (h : History) : Event → Bool
  | .call (.release request) _ => (h.live.lineage.find request.grant).all fun g =>
      decide (Spares h.live (fun _ => true) [g])
  | .call (.allocateEpoch request) _ =>
    decide (Spares h.live (Work.superseded request) (Work.overlapped h.live request))
  | .call (.defineDomain _) _ | .call .allocateIncarnation _ => true
  | _ => false

theorem sparing_permitted (h : History) (event : Event) (checked : sparing h event = true) :
    Permitted h event := by
  cases event with
  | checkpoint | restart _ | rebuild | tick => cases checked
  | call op now =>
    cases op with
    | release request =>
      intro g found active
      have found : h.live.lineage.find request.grant = some g := found
      simp only [sparing, found, Option.all_some, decide_eq_true_eq] at checked
      exact checked
    | allocateEpoch request => exact fun _ _ _ => of_decide_eq_true checked
    | defineDomain _ | allocateIncarnation => trivial
    | _ => cases checked

/-- Two grants of two incarnations, one of them released. -/
theorem audit_clean_sample : ∃ h, Served h ∧ h.live.lineage.grants.any (·.isOpen) = true ∧
    (auditRegistryState h.live).findings = [] := by
  have evaluated : (sampleStart.bind (guarded sparing · [
      .call (.defineDomain (sampleDomain 100 120)) 1, .call (.defineDomain (sampleDomain 101 121)) 2,
      .call .allocateIncarnation 3, .call .allocateIncarnation 4,
      .call (.allocateEpoch (sampleAllocation 100 120 1 1)) 5,
      .call (.allocateEpoch (sampleAllocation 101 121 2 1)) 6,
      .call (.release { grant := 1 }) 7])).map (·.live.lineage.grants.any (·.isOpen)) =
      some true := by
    decide +kernel
  obtain ⟨h, ran, active⟩ := Option.map_eq_some_iff.mp evaluated
  obtain ⟨h₀, begun, ran⟩ := Option.bind_eq_some_iff.mp ran
  have served : Served h := (Served.start begun).turns (guarded_turns sparing_permitted ran)
  exact ⟨h, served, active, audit_clean h served⟩

def isCall : Event → Bool
  | .call _ _ => true
  | _ => false

/-- A run of calls alone need not stay clean: one incarnation holds two domains, and the
release of one grant fences the owner of the other. -/
theorem audit_finds_released : ¬ ∀ h,
    Reachable (fun _ event => ∃ op now, event = .call op now) h →
      (auditRegistryState h.live).findings = [] := by
  intro clean
  let events : List Event := [
    .call (.defineDomain (sampleDomain 100 120)) 1, .call (.defineDomain (sampleDomain 101 121)) 2,
    .call .allocateIncarnation 3, .call (.allocateEpoch (sampleAllocation 100 120 1 1)) 4,
    .call (.allocateEpoch (sampleAllocation 101 121 1 2)) 5, .call (.release { grant := 1 }) 6]
  have evaluated : (sampleStart.bind (guarded (fun _ event => isCall event) · events)).map
      (fun h => (auditRegistryState h.live).findings.isEmpty) = some false := by
    decide +kernel
  obtain ⟨h, ran, found⟩ := Option.map_eq_some_iff.mp evaluated
  obtain ⟨h₀, begun, ran⟩ := Option.bind_eq_some_iff.mp ran
  have first : Reachable (fun _ event => ∃ op now, event = .call op now) h₀ :=
    ⟨_, _, _, _, h₀, begun, .refl⟩
  have reached := first.turns (guarded_turns (fun _ event checked => ?_) ran)
  · rw [clean h reached] at found
    cases found
  · cases event with
    | call op now => exact ⟨op, now, rfl⟩
    | checkpoint | restart _ | rebuild | tick => cases checked

end History
end SplitBrainFabric
