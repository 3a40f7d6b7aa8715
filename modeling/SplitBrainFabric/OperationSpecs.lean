import SplitBrainFabric.Trace

/-! Every operation is a sequence of moves, and an operation that succeeds has left the
record its answer speaks of. -/

namespace SplitBrainFabric
open Words Decoder

namespace Work

open RegistryState (apply bumpIncarnation bumpGeneration)

section Emits

variable {w w' : Work} {kind : RecordKind} {payload : Bytes} {status : Status} {now : Step}

theorem emit_move {r : Except Status PUnit}
    (sane : ∀ entry, (w.nextRecord kind payload status now).entry = .ok entry → Sane w.state entry)
    (ran : (emit kind payload status now).exec w = (r, w')) : Move w w' := by
  rcases emit_cases ran with ⟨s, -, rfl, applied⟩ | ⟨st, s, -, rfl, applied⟩
  · exact .kept rfl sane applied
  · exact .lost rfl sane applied

/-- An accepted record was read and enacted. -/
theorem emit_ok (ran : (emit kind payload status now).exec w = (.ok ⟨⟩, w')) :
    ∃ entry s, (w.nextRecord kind payload status now).entry = .ok entry ∧
      (RegistryState.enact entry).exec
        (w.state.observe (w.nextRecord kind payload status now)) = (.ok ⟨⟩, s) ∧
      w' = w.kept (w.nextRecord kind payload status now) s := by
  rcases emit_cases ran with ⟨s, -, rfl, applied⟩ | ⟨st, s, failed, -⟩
  · obtain ⟨-, -, entry, read, enacted⟩ := RegistryState.apply_ok applied
    exact ⟨entry, s, read, enacted, rfl⟩
  · cases failed

theorem emit_lineage {r : Except Status PUnit}
    (avoids : ∀ entry, (w.nextRecord kind payload status now).entry = .ok entry →
      entry.avoidsLineage = true)
    (ran : (emit kind payload status now).exec w = (r, w')) :
    w'.state.lineage = w.state.lineage := by
  rcases emit_cases ran with ⟨s, -, rfl, applied⟩ | ⟨st, s, -, rfl, applied⟩
  · have same := RegistryState.apply_lineage avoids applied
    exact same
  · exact RegistryState.apply_lineage avoids applied

end Emits

section Parts

variable {w w' : Work} {now : Step} {g : EpochGrant}

theorem fence_entry {record : FenceRecord} {scope : Scope} {status : Status} {entry : Entry}
    (read : (w.nextRecord .fence (encodeFencePayload record scope) status now).entry = .ok entry) :
    entry = .fence record scope :=
  read_back (f := fun p : FenceRecord × Scope => .fence p.1 p.2)
    (agrees_fencePayload record scope) read

theorem close_entry {status : Status} {entry : Entry}
    (read : (w.nextRecord .grantClose (encodeGrant g) status now).entry = .ok entry) :
    entry = .grantClose g :=
  read_back (agrees_grant g) read

/-- Somewhere along the way a fence took the token after the last one. -/
def Minted (w : Work) (token : FenceToken) (w' : Work) : Prop :=
  ∃ w₁ record s fence scope, Reach w w₁ ∧ w₁.state.tokenCounter ≠ maxWord ∧
    token = w₁.state.tokenCounter + 1 ∧ record.entry = .ok (.fence fence scope) ∧
    fence.token = token ∧ Move w₁ (w₁.kept record s) ∧ Reach (w₁.kept record s) w'

theorem Minted.reach {token : FenceToken} {w'' : Work} (minted : Minted w token w')
    (further : Reach w' w'') : Minted w token w'' := by
  obtain ⟨w₁, record, s, fence, scope, before, room, next, read, same, move, after⟩ := minted
  exact ⟨w₁, record, s, fence, scope, before, room, next, read, same, move, after.trans further⟩

theorem Minted.after {token : FenceToken} {w₀ : Work} (before : Reach w₀ w)
    (minted : Minted w token w') : Minted w₀ token w' := by
  obtain ⟨w₁, record, s, fence, scope, first, room, next, read, same, move, after⟩ := minted
  exact ⟨w₁, record, s, fence, scope, before.trans first, room, next, read, same, move, after⟩

theorem fenceScope_spec {domain : DomainId} {scope : Scope} {epoch : Epoch}
    {incarnation : IncarnationId} {superseded : GrantId} {cause : Reason} {fenceIncarnation : Bool}
    {r : Except Status FenceToken}
    (ran : (fenceScope domain scope epoch incarnation superseded cause fenceIncarnation now).exec w =
      (r, w')) :
    Reach w w' ∧ w'.state.lineage = w.state.lineage ∧ ∀ token, r = .ok token → Minted w token w' := by
  rw [fenceScope, Prog.exec_get_bind, Prog.exec_refuseIf] at ran
  by_cases full : w.state.tokenCounter = maxWord
  · rw [if_pos full] at ran
    cases ran
    exact ⟨.refl, rfl, by rintro _ ⟨⟩⟩
  rw [if_neg full, Prog.exec_bind] at ran
  rcases emitted : (emit .fence (encodeFencePayload (w.fenceRecord domain scope epoch incarnation
    superseded cause fenceIncarnation now) scope) (.make .fenced cause
      (w.fenceRecord domain scope epoch incarnation superseded cause fenceIncarnation now).token)
    now).exec w with ⟨result, w₁⟩
  have move : Move w w₁ := by
    refine emit_move (fun entry read => ?_) emitted
    rw [fence_entry read]
    exact ⟨full, rfl⟩
  have lineage : w₁.state.lineage = w.state.lineage := by
    refine emit_lineage (fun entry read => ?_) emitted
    rw [fence_entry read]
    rfl
  rw [emitted] at ran
  cases result with
  | error st => cases ran; exact ⟨move.reach, lineage, by rintro _ ⟨⟩⟩
  | ok u =>
    obtain ⟨entry, s, read, -, same⟩ := emit_ok emitted
    rw [fence_entry read] at read
    cases ran
    refine ⟨move.reach, lineage, ?_⟩
    rintro token ⟨⟩
    rw [same] at move ⊢
    exact ⟨w, _, s, _, scope, .refl, full, rfl, read, rfl, move, .refl⟩

/-- Closing an open grant succeeds exactly when its record does. -/
theorem closeGrant_spec {state : GrantState} {reason : Reason} {r : Except Status PUnit}
    (sound : w.state.lineage.Sound) (ends : state ≠ .open) (member : g ∈ w.state.lineage.grants)
    (active : g.isOpen = true) (ran : (closeGrant g state reason now).exec w = (r, w')) :
    Reach w w' ∧
      (r = .ok ⟨⟩ → w'.state.lineage = w.state.lineage.closed g.id state reason now) := by
  rw [closeGrant, Prog.exec_get_bind] at ran
  refine ⟨(emit_move (fun entry read => ?_) ran).reach, ?_⟩
  · rw [close_entry read]
    exact ends
  · rintro rfl
    obtain ⟨entry, s, read, enacted, rfl⟩ := emit_ok ran
    rw [close_entry read] at enacted
    rcases RegistryState.enact_grantClose enacted with ⟨-, -, -, rfl⟩ | ⟨-, stuck⟩
    · rfl
    · exact absurd (stuck g (sound.find_eq member) (EpochGrant.isOpen_iff.mp active)) ends

/-- Grants still to be closed by a loop: all open, no two alike. -/
structure Pending (rest : List EpochGrant) (t : LineageTable) : Prop where
  sound : t.Sound
  open' : ∀ g ∈ rest, g ∈ t.grants ∧ g.isOpen = true
  distinct : (rest.map (·.id)).Nodup

theorem pending_openGrants {t : LineageTable} (sound : t.Sound) : Pending t.openGrants t := by
  refine ⟨sound, fun g member => LineageTable.mem_openGrants.mp member, ?_⟩
  have perm : (t.openGrants.map (·.id)).Perm ((t.grants.filter (·.isOpen)).map (·.id)) :=
    (List.perm_insertionSort _ _).map _
  exact perm.nodup_iff.mpr (sound.distinct.sublist (List.filter_sublist.map _))

theorem Pending.sublist {t : LineageTable} {rest rest' : List EpochGrant} (pending : Pending rest t)
    (sub : rest'.Sublist rest) : Pending rest' t :=
  ⟨pending.sound, fun g member => pending.open' g (sub.subset member),
    pending.distinct.sublist (sub.map _)⟩

theorem Pending.tail {t : LineageTable} {rest : List EpochGrant} (pending : Pending (g :: rest) t) :
    Pending rest t := pending.sublist (List.sublist_cons_self g rest)

theorem Pending.head_ne {t : LineageTable} {rest : List EpochGrant} {o : EpochGrant}
    (pending : Pending (g :: rest) t) (later : o ∈ rest) : o.id ≠ g.id := by
  intro same
  have apart := (List.nodup_cons.mp pending.distinct).1
  exact apart (List.mem_map.mpr ⟨o, later, same⟩)

theorem Pending.closed {t : LineageTable} {rest : List EpochGrant} {state : GrantState}
    {reason : Reason} (pending : Pending (g :: rest) t) :
    Pending rest (t.closed g.id state reason now) := by
  refine ⟨pending.sound.closed, fun o later => ?_, pending.tail.distinct⟩
  obtain ⟨member, active⟩ := pending.tail.open' o later
  exact ⟨LineageTable.mem_closed_other member (pending.head_ne later), active⟩

/-- A fence for an open grant and its closing, the pair every retirement consists of. -/
theorem retire_spec {domain : DomainId} {scope : Scope} {epoch : Epoch}
    {incarnation : IncarnationId} {superseded : GrantId} {cause reason : Reason}
    {fenceIncarnation : Bool} {state : GrantState} {rest : List EpochGrant}
    {r : Except Status PUnit} (ends : state ≠ .open)
    (pending : Pending (g :: rest) w.state.lineage)
    (ran : (do
      let _ ← fenceScope domain scope epoch incarnation superseded cause fenceIncarnation now
      closeGrant g state reason now : Prog Status Work PUnit).exec w = (r, w')) :
    Reach w w' ∧
      (r = .ok ⟨⟩ → w'.state.lineage = w.state.lineage.closed g.id state reason now) := by
  rw [Prog.exec_bind] at ran
  rcases fenced : (fenceScope domain scope epoch incarnation superseded cause fenceIncarnation
    now).exec w with ⟨result, w₁⟩
  rw [fenced] at ran
  obtain ⟨reached, lineage, -⟩ := fenceScope_spec fenced
  cases result with
  | error st => cases ran; exact ⟨reached, fun h => by cases h⟩
  | ok token =>
    obtain ⟨member, active⟩ := pending.open' g List.mem_cons_self
    rw [← lineage] at member
    obtain ⟨closedOff, result⟩ := closeGrant_spec (lineage ▸ pending.sound) ends member active ran
    rw [lineage] at result
    exact ⟨reached.trans closedOff, result⟩

end Parts

section Allocation

variable {w w' : Work} {request : AllocateEpochRequest} {now : Step} {g : EpochGrant}

/-- Every open grant that overlaps the request is still to come. -/
def Clearing (request : AllocateEpochRequest) (w₀ : Work) (rest : List EpochGrant) (w : Work) :
    Prop :=
  Reach w₀ w ∧ Pending rest w.state.lineage ∧ ∀ o ∈ w.state.lineage.grants, o.isOpen = true →
    o.extents.overlaps request.scope = true → o ∈ rest

theorem supersede_spec (w₀ : Work) (g : EpochGrant) (rest : List EpochGrant) :
    Prog.Ensures (Clearing request w₀ (g :: rest)) (supersede request now g)
      (fun _ => Clearing request w₀ rest) (fun _ => Reach w₀) := by
  refine Prog.Ensures.intro ?_ ?_
  · rintro w u w' ⟨reached, pending, complete⟩ ran
    unfold supersede at ran
    by_cases overlaps : g.extents.overlaps request.scope = true
    · rw [if_pos overlaps] at ran
      obtain ⟨moved, lineage⟩ := retire_spec (by decide) pending ran
      have closed := lineage rfl
      refine ⟨reached.trans moved, closed ▸ pending.closed, ?_⟩
      intro o member active touching
      rw [closed] at member
      obtain ⟨inside, _⟩ := pending.open' g List.mem_cons_self
      obtain ⟨old, other⟩ := pending.sound.open_of_closed (by decide)
        ⟨g, pending.sound.find_eq inside⟩ member active
      rcases List.mem_cons.mp (complete o old active touching) with rfl | later
      · exact absurd rfl other
      · exact later
    · rw [if_neg overlaps] at ran
      cases ran
      refine ⟨reached, pending.tail, ?_⟩
      intro o member active touching
      rcases List.mem_cons.mp (complete o member active touching) with rfl | later
      · exact absurd touching overlaps
      · exact later
  · rintro w st w' ⟨reached, pending, complete⟩ ran
    unfold supersede at ran
    by_cases overlaps : g.extents.overlaps request.scope = true
    · rw [if_pos overlaps] at ran
      exact reached.trans (retire_spec (by decide) pending ran).1
    · rw [if_neg overlaps] at ran
      cases ran

theorem clear_spec (request : AllocateEpochRequest) (now : Step) (w₀ : Work) (sound : w₀.state.lineage.Sound) :
    Prog.Ensures (fun w => w = w₀) (w₀.state.lineage.openGrants.forM (supersede request now))
      (fun _ => Clearing request w₀ []) (fun _ => Reach w₀) := by
  have loop : Prog.Ensures (Clearing request w₀ w₀.state.lineage.openGrants)
      (w₀.state.lineage.openGrants.forM (supersede request now))
      (fun _ => Clearing request w₀ []) (fun _ => Reach w₀) :=
    Prog.Ensures.forM (Clearing request w₀) (supersede_spec w₀) w₀.state.lineage.openGrants
  refine loop.consequence ?_ (fun _ _ h => h) (fun _ _ h => h)
  rintro w rfl
  refine ⟨.refl, pending_openGrants sound, ?_⟩
  intro o member active _
  exact LineageTable.mem_openGrants.mpr ⟨member, active⟩

/-- A grant was opened: the records of its adoption and of itself are the last two. -/
def Opened (w : Work) (g : EpochGrant) (w' : Work) : Prop :=
  ∃ adopt record s₁ s₂, Adoption w.state g adopt s₁ ∧ record.sequence = s₁.registrySequence + 1 ∧
    record.entry = .ok (.grantOpen g) ∧
    (apply record).exec (bumpGeneration s₁) = (.ok ⟨⟩, s₂) ∧
    w' = (w.kept adopt s₁).kept record s₂

theorem Opened.move (opened : Opened w g w') : Move w w' := by
  obtain ⟨adopt, record, s₁, s₂, adoption, next, read, ran, rfl⟩ := opened
  exact .opened adoption next read ran

theorem adopt_spec {r : Except Status PUnit} (opens : Opens w.state g)
    (ran : (emit .extentAdopt (encodeFencePayload (adoptRecord g now) g.extents) .ok now).exec w =
      (r, w')) :
    Move w w' ∧ (r = .ok ⟨⟩ → ∃ adopt s₁, w' = w.kept adopt s₁ ∧ Adoption w.state g adopt s₁) := by
  have reads : ∀ entry, (w.nextRecord .extentAdopt
      (encodeFencePayload (adoptRecord g now) g.extents) .ok now).entry = .ok entry →
      entry = .extentAdopt (adoptRecord g now) g.extents := fun entry read =>
    read_back (f := fun p : FenceRecord × Scope => .extentAdopt p.1 p.2)
      (agrees_fencePayload _ _) read
  refine ⟨emit_move (fun entry read => ?_) ran, ?_⟩
  · rw [reads entry read]
    exact ⟨g, now, opens, rfl, rfl⟩
  · rintro rfl
    obtain ⟨entry, _, read, -, -⟩ := emit_ok ran
    rw [reads entry read] at read
    rcases emit_cases ran with ⟨s₁, -, rfl, applied⟩ | ⟨_, _, failed, -⟩
    · exact ⟨_, s₁, rfl, opens, rfl, ⟨now, read⟩, applied⟩
    · cases failed

theorem openAdopted_spec {adopt : JournalRecord} {s₁ : RegistryState} {r : Except Status PUnit}
    (adoption : Adoption w.state g adopt s₁)
    (ran : (emit .grantOpen (encodeGrant g) .ok now).exec (w.kept adopt s₁) = (r, w')) :
    Reach w w' ∧ (r = .ok ⟨⟩ → Opened w g w') := by
  have reads : ∀ entry, ((w.kept adopt s₁).nextRecord .grantOpen (encodeGrant g) .ok now).entry =
      .ok entry → entry = .grantOpen g := fun entry read => read_back (agrees_grant g) read
  rcases emit_cases ran with ⟨s₂, rfl, rfl, applied⟩ | ⟨st, s₂, rfl, rfl, applied⟩
  · obtain ⟨entry, _, read, -, -⟩ := emit_ok ran
    rw [reads entry read] at read
    have opened : Opened w g _ := ⟨adopt, _, s₁, s₂, adoption, rfl, read, applied, rfl⟩
    exact ⟨opened.move.reach, fun _ => opened⟩
  · exact ⟨(Move.openLost adoption rfl reads applied).reach, fun h => by cases h⟩

theorem openFresh_spec {r : Except Status EpochGrant} (named : request.domain.isEmpty = false)
    (registered : ∃ known, w.state.domains.find request.domain = some known ∧
      known.scope = request.scope)
    (free : ∀ o ∈ w.state.lineage.grants, o.isOpen = true →
      o.extents.overlaps request.scope = false)
    (ran : (openFresh request now).exec w = (r, w')) :
    Reach w w' ∧ ∀ g, r = .ok g → g = w.freshGrant request now ∧ Opened w g w' := by
  rw [openFresh, Prog.exec_get_bind, Prog.exec_refuseIf] at ran
  by_cases noEpoch : w.state.lineage.maxEpoch request.domain + 1 = 0
  · rw [if_pos noEpoch] at ran
    cases ran
    exact ⟨.refl, by rintro _ ⟨⟩⟩
  rw [if_neg noEpoch, Prog.exec_refuseIf] at ran
  by_cases full : w.state.tokenCounter = maxWord ∨ w.state.grantCounter = maxWord
  · rw [if_pos full] at ran
    cases ran
    exact ⟨.refl, by rintro _ ⟨⟩⟩
  rw [if_neg full] at ran
  have opens : Opens w.state (w.freshGrant request now) :=
    ⟨fun h => full (.inl h), fun h => full (.inr h), rfl, rfl, rfl, noEpoch, rfl, rfl, named,
      registered, free⟩
  have scope : request.scope = (w.freshGrant request now).extents := rfl
  rw [scope] at ran
  generalize w.freshGrant request now = g at opens ran ⊢
  rw [Prog.exec_bind] at ran
  rcases adopted : (emit .extentAdopt (encodeFencePayload (adoptRecord g now) g.extents) .ok
    now).exec w with ⟨result, w₁⟩
  rw [adopted] at ran
  obtain ⟨first, kept⟩ := adopt_spec opens adopted
  cases result with
  | error st => cases ran; exact ⟨first.reach, by rintro _ ⟨⟩⟩
  | ok u =>
    obtain ⟨adopt, s₁, rfl, adoption⟩ := kept rfl
    simp only [Prog.exec_bind] at ran
    rcases opened : (emit .grantOpen (encodeGrant g) .ok now).exec (w.kept adopt s₁) with
      ⟨result, w₂⟩
    rw [opened] at ran
    obtain ⟨reached, done⟩ := openAdopted_spec adoption opened
    cases result with
    | error st => cases ran; exact ⟨reached, by rintro _ ⟨⟩⟩
    | ok u =>
      cases ran
      refine ⟨reached, ?_⟩
      intro g' same
      cases same
      exact ⟨rfl, done rfl⟩

theorem checkScope_state {ρ : Type} {answer : Status → ρ} {v : Work} {domain : DomainId}
    {scope : Scope} {r : Except ρ PUnit}
    (ran : (checkScope answer v domain scope).exec w = (r, w')) : w' = w ∧
      (r = .ok ⟨⟩ → ∃ known, v.state.domains.find domain = some known ∧ known.scope = scope) := by
  unfold checkScope at ran
  cases found : v.state.domains.find domain with
  | none => rw [found] at ran; cases ran; exact ⟨rfl, fun h => by cases h⟩
  | some known =>
    rw [found] at ran
    simp only [Prog.refuseIf, Prog.exec_ite, Prog.exec_throw, Prog.exec_pure] at ran
    split at ran
    · cases ran; exact ⟨rfl, fun h => by cases h⟩
    · rename_i same
      cases ran
      exact ⟨rfl, fun _ => ⟨known, rfl, not_not.mp same⟩⟩

/-- What a fence request and an allocation must name. -/
structure Names (s : RegistryState) (domain : DomainId) (scope : Scope) : Prop where
  named : domain.isEmpty = false
  filled : scope.isEmpty = false
  registered : ∃ known, s.domains.find domain = some known ∧ known.scope = scope

theorem checkScope_runs {ρ : Type} {answer : Status → ρ} {domain : DomainId} {scope : Scope}
    (names : Names w.state domain scope) :
    (checkScope answer w domain scope).exec w = (.ok ⟨⟩, w) := by
  obtain ⟨known, found, same⟩ := names.registered
  rw [checkScope, found]
  simp only [Prog.refuseIf, same, ne_eq, not_true_eq_false, if_false, Prog.exec_pure]

/-- What a request to allocate must bring. -/
structure Admissible (s : RegistryState) (request : AllocateEpochRequest) : Prop where
  named : request.domain.isEmpty = false
  filled : request.scope.isEmpty = false
  incarnation : request.incarnation ≠ 0
  registered : ∃ known, s.domains.find request.domain = some known ∧ known.scope = request.scope
  unfenced : s.fences.incarnationFenced request.incarnation = false
  issued : request.incarnation ≤ s.incarnationCounter
  current : s.boot.incarnation < request.incarnation

theorem admitAllocation_state {r : Except AllocateEpochResponse PUnit}
    (ran : (admitAllocation w request).exec w = (r, w')) :
    w' = w ∧ (r = .ok ⟨⟩ → Admissible w.state request) := by
  simp only [admitAllocation, Prog.exec_refuseIf] at ran
  split at ran
  · cases ran; exact ⟨rfl, fun h => by cases h⟩
  rename_i named
  split at ran
  · cases ran; exact ⟨rfl, fun h => by cases h⟩
  rename_i filled
  split at ran
  · cases ran; exact ⟨rfl, fun h => by cases h⟩
  rename_i identified
  rw [Prog.exec_bind] at ran
  rcases checked : (checkScope (fun st => ({ status := st } : AllocateEpochResponse)) w
    request.domain request.scope).exec w with ⟨result, w₁⟩
  rw [checked] at ran
  obtain ⟨rfl, registered⟩ := checkScope_state checked
  cases result with
  | error st => cases ran; exact ⟨rfl, fun h => by cases h⟩
  | ok u =>
    simp only [Prog.exec_refuseIf] at ran
    split at ran
    · cases ran; exact ⟨rfl, fun h => by cases h⟩
    rename_i unfenced
    simp only [Prog.refuseIf, Prog.exec_ite, Prog.exec_throw, Prog.exec_pure] at ran
    split at ran
    · cases ran; exact ⟨rfl, fun h => by cases h⟩
    rename_i current
    cases ran
    refine ⟨rfl, fun _ => ⟨by simpa using named, by simpa using filled,
      fun h => identified (.inl h), registered rfl, by simpa using unfenced, ?_, ?_⟩⟩
    · exact not_lt.mp fun h => current (.inl h)
    · exact not_le.mp fun h => current (.inr h)

theorem admitAllocation_boot (ran : (admitAllocation w request).exec w = (.ok ⟨⟩, w')) :
    request.boot ≠ 0 := by
  obtain ⟨-, ran⟩ := Prog.refuseIf_ok ran
  obtain ⟨-, ran⟩ := Prog.refuseIf_ok ran
  obtain ⟨identified, -⟩ := Prog.refuseIf_ok ran
  exact fun zero => identified (.inr zero)

theorem admitAllocation_runs (admissible : Admissible w.state request) (boot : request.boot ≠ 0) :
    (admitAllocation w request).exec w = (.ok ⟨⟩, w) := by
  obtain ⟨named, filled, incarnation, registered, unfenced, issued, current⟩ := admissible
  have numbered : ¬ (request.incarnation = 0 ∨ request.boot = 0) := by tauto
  have fresh : ¬ (w.state.incarnationCounter < request.incarnation ∨
      request.incarnation ≤ w.state.boot.incarnation) := by
    rintro (above | below)
    · exact absurd issued (not_le.mpr above)
    · exact absurd current (not_lt.mpr below)
  have names : Names w.state request.domain request.scope := ⟨named, filled, registered⟩
  rw [admitAllocation, Prog.exec_refuseIf, if_neg (by simp [named]), Prog.exec_refuseIf,
    if_neg (by simp [filled]), Prog.exec_refuseIf, if_neg numbered,
    Prog.exec_bind_ok (checkScope_runs names), Prog.exec_refuseIf, if_neg (by simp [unfenced]),
    Prog.refuseIf, if_neg fresh]
  rfl

/-- How an allocation comes to its answer: a check fails, the attempt is a repeated one, the
grants it overlaps cannot all be retired, or it comes to its own grant. -/
inductive Allocates (request : AllocateEpochRequest) (now : Step) (w : Work) :
    Except AllocateEpochResponse AllocateEpochResponse → Work → Prop
  | refused (refusal : AllocateEpochResponse)
      (fails : ¬ (Admissible w.state request ∧ request.boot ≠ 0)) :
      Allocates request now w (.error refusal) w
  | repeated {g : EpochGrant} (admissible : Admissible w.state request) (boot : request.boot ≠ 0)
      (found : w.repeatedAttempt request = some g) :
      Allocates request now w (.ok (w.allocation now g))
        (w.update fun s => { s with idempotencyHits := s.idempotencyHits + 1 })
  | stuck {st : Status} {w' : Work} (admissible : Admissible w.state request)
      (boot : request.boot ≠ 0) (fresh : w.repeatedAttempt request = none)
      (looped : (w.state.lineage.openGrants.forM (supersede request now)).exec w =
        (.error st, w')) : Allocates request now w (.error { status := st }) w'
  | cleared {r : Except Status EpochGrant} {w₁ w' : Work} (admissible : Admissible w.state request)
      (boot : request.boot ≠ 0) (fresh : w.repeatedAttempt request = none)
      (looped : (w.state.lineage.openGrants.forM (supersede request now)).exec w = (.ok ⟨⟩, w₁))
      (opened : (openFresh request now).exec w₁ = (r, w')) :
      Allocates request now w ((r.mapError fun st => { status := st }).map (w'.allocation now)) w'

theorem allocateEpoch_allocates {r : Except AllocateEpochResponse AllocateEpochResponse}
    (ran : (allocateEpoch request now).exec w = (r, w')) : Allocates request now w r w' := by
  rw [allocateEpoch, Prog.exec_get_bind, Prog.exec_bind] at ran
  rcases admitted : (admitAllocation w request).exec w with ⟨result, w₀⟩
  rw [admitted] at ran
  obtain ⟨rfl, admissible⟩ := admitAllocation_state admitted
  cases result with
  | error refusal =>
    cases ran
    refine .refused refusal fun holds => ?_
    rw [admitAllocation_runs holds.1 holds.2] at admitted
    cases admitted
  | ok u =>
    have boot := admitAllocation_boot admitted
    cases attempt : w₀.repeatedAttempt request with
    | some g =>
      simp only [attempt] at ran
      cases ran
      exact .repeated (admissible rfl) boot attempt
    | none =>
      simp only [attempt] at ran
      rw [Prog.exec_bind, Prog.exec_mapError] at ran
      rcases looped : (w₀.state.lineage.openGrants.forM (supersede request now)).exec w₀ with
        ⟨result, w₁⟩
      rw [looped] at ran
      cases result with
      | error st =>
        cases ran
        exact .stuck (admissible rfl) boot attempt looped
      | ok u =>
        simp only [Except.mapError] at ran
        rw [Prog.exec_bind, Prog.exec_mapError] at ran
        rcases opened : (openFresh request now).exec w₁ with ⟨result, w₂⟩
        rw [opened] at ran
        have whole := Allocates.cleared (admissible rfl) boot attempt looped opened
        cases result with
        | error st => cases ran; exact whole
        | ok g => cases ran; exact whole

/-- Nothing that overlaps the request is open any more. -/
theorem supersede_clears (sound : w.state.lineage.Sound)
    (looped : (w.state.lineage.openGrants.forM (supersede request now)).exec w = (.ok ⟨⟩, w')) :
    Reach w w' ∧ ∀ o ∈ w'.state.lineage.grants, o.isOpen = true →
      o.extents.overlaps request.scope = false := by
  have cleared := clear_spec request now w sound w rfl
  rw [looped] at cleared
  obtain ⟨reached, -, complete⟩ := cleared
  refine ⟨reached, fun o member active => ?_⟩
  cases touching : o.extents.overlaps request.scope with
  | false => rfl
  | true => cases complete o member active touching

/-- The requested scope stays the registered one. -/
theorem Admissible.names (admissible : Admissible w.state request) (reached : Reach w w') :
    Names w'.state request.domain request.scope := by
  obtain ⟨known, found, scope⟩ := admissible.registered
  have stays := (preserved_registered request.domain known).reach found reached
  exact ⟨admissible.named, admissible.filled, known, stays, scope⟩

/-- A fresh allocation: the overlapping grants are retired, then one is opened. -/
theorem allocateEpoch_spec {r : Except AllocateEpochResponse AllocateEpochResponse}
    (sound : w.state.lineage.Sound) (ran : (allocateEpoch request now).exec w = (r, w')) :
    Reach w w' ∧ ∀ response, r = .ok response → Admissible w.state request ∧
      ((∃ g, w.repeatedAttempt request = some g ∧ response = w.allocation now g) ∨
      w.repeatedAttempt request = none ∧ ∃ w₁, Reach w w₁ ∧
        Opened w₁ (w₁.freshGrant request now) w' ∧
        response = w'.allocation now (w₁.freshGrant request now)) := by
  cases allocateEpoch_allocates ran with
  | refused refusal fails => exact ⟨.refl, by rintro _ ⟨⟩⟩
  | repeated admissible boot found =>
    refine ⟨(Move.aside _ w.state.restartFences w.state.fabric).reach, ?_⟩
    rintro response ⟨⟩
    exact ⟨admissible, .inl ⟨_, found, rfl⟩⟩
  | stuck admissible boot fresh looped =>
    have cleared := clear_spec request now w sound w rfl
    rw [looped] at cleared
    exact ⟨cleared, by rintro _ ⟨⟩⟩
  | cleared admissible boot fresh looped opened =>
    rename_i result w₁
    obtain ⟨reached, free⟩ := supersede_clears sound looped
    obtain ⟨further, opens⟩ :=
      openFresh_spec admissible.named (admissible.names reached).registered free opened
    cases result with
    | error st => exact ⟨reached.trans further, by rintro _ ⟨⟩⟩
    | ok g =>
      obtain ⟨rfl, done⟩ := opens g rfl
      refine ⟨reached.trans further, ?_⟩
      rintro response ⟨⟩
      exact ⟨admissible, .inr ⟨fresh, w₁, reached, done, rfl⟩⟩

end Allocation

section Retirement

variable {w w' : Work} {now : Step}

/-- The fence and the close that a released grant gets. -/
def releaseGrant (request : ReleaseRequest) (now : Step) (g : EpochGrant) :
    Prog ReleaseResponse Work ReleaseResponse := do
  let cause := causeOr request.cause .compensatingFenceRequired
  let token ← Prog.mapError (fun st => { status := st })
    (fenceScope g.domain g.extents g.epoch g.incarnation g.id cause true now)
  Prog.mapError (fun st => { status := st }) (closeGrant g .closed cause now)
  pure { status := .ok, closedEpoch := g.epoch, newHighWater := token }

/-- How a release comes to its answer: its grant is open, or there is nothing to release. -/
inductive Releases (request : ReleaseRequest) (now : Step) (w : Work) :
    Except ReleaseResponse ReleaseResponse → Work → Prop
  | refused (refusal : ReleaseResponse)
      (idle : ∀ g, w.state.lineage.find request.grant = some g → g.isOpen = false) :
      Releases request now w (.error refusal) w
  | held {g : EpochGrant} {r : Except ReleaseResponse ReleaseResponse} {w' : Work}
      (found : w.state.lineage.find request.grant = some g) (active : g.isOpen = true)
      (released : (releaseGrant request now g).exec w = (r, w')) : Releases request now w r w'

theorem release_releases {request : ReleaseRequest} {r : Except ReleaseResponse ReleaseResponse}
    (ran : (release request now).exec w = (r, w')) : Releases request now w r w' := by
  rw [release, Prog.exec_get_bind] at ran
  cases found : w.state.lineage.find request.grant with
  | none =>
    rw [found] at ran
    cases ran
    exact .refused _ fun g named => by rw [named] at found; cases found
  | some g =>
    rw [found] at ran
    simp only [Prog.exec_refuseIf] at ran
    by_cases ended : g.state ≠ .open
    · rw [if_pos ended] at ran
      cases ran
      refine .refused _ fun o named => ?_
      obtain rfl := Option.some.inj (found.symm.trans named)
      exact Bool.eq_false_iff.mpr fun active => ended (EpochGrant.isOpen_iff.mp active)
    · rw [if_neg ended] at ran
      exact .held found (EpochGrant.isOpen_iff.mpr (not_not.mp ended)) ran

/-- The closed grant was open under the id the request names. -/
theorem release_spec {request : ReleaseRequest} {r : Except ReleaseResponse ReleaseResponse}
    (sound : w.state.lineage.Sound) (ran : (release request now).exec w = (r, w')) :
    Reach w w' ∧ ∀ response, r = .ok response →
      (∃ g, w.state.lineage.find request.grant = some g ∧ g.isOpen = true) ∧
        Minted w response.newHighWater w' := by
  cases release_releases ran with
  | refused refusal idle => exact ⟨.refl, by rintro _ ⟨⟩⟩
  | held found active released =>
    rename_i g
    have member := (LineageTable.find_some found).1
    rw [releaseGrant, Prog.exec_bind, Prog.exec_mapError] at released
    rcases fenced : (fenceScope g.domain g.extents g.epoch g.incarnation g.id
      (causeOr request.cause .compensatingFenceRequired) true now).exec w with ⟨result, w₁⟩
    rw [fenced] at released
    obtain ⟨reached, lineage, minted⟩ := fenceScope_spec fenced
    cases result with
    | error st => cases released; exact ⟨reached, by rintro _ ⟨⟩⟩
    | ok token =>
      simp only [Except.mapError] at released
      rw [Prog.exec_bind, Prog.exec_mapError] at released
      rcases ended : (closeGrant g .closed
        (causeOr request.cause .compensatingFenceRequired) now).exec w₁ with ⟨result, w₂⟩
      rw [ended] at released
      rw [← lineage] at sound member
      obtain ⟨further, -⟩ := closeGrant_spec sound (by decide) member active ended
      cases result with
      | error st => cases released; exact ⟨reached.trans further, by rintro _ ⟨⟩⟩
      | ok u =>
        cases released
        refine ⟨reached.trans further, ?_⟩
        rintro response ⟨⟩
        exact ⟨⟨g, found, active⟩, (minted token rfl).reach further⟩

/-- The loop of `fence`: once it has run, the token is that of a fence it issued. -/
def Fencing (w₀ : Work) (rest : List EpochGrant) (token : FenceToken) (w : Work) : Prop :=
  Reach w₀ w ∧ Pending rest w.state.lineage ∧ (rest ≠ [] ∨ Minted w₀ token w)

theorem fenceGrant_spec (request : FenceRequest) (now : Step) (w₀ : Work) (g : EpochGrant)
    (rest : List EpochGrant) (token : FenceToken) :
    Prog.Ensures (Fencing w₀ (g :: rest) token) (fenceGrant request now token g)
      (Fencing w₀ rest) (fun _ => Reach w₀) := by
  rintro w ⟨reached, pending, -⟩
  rw [fenceGrant, Prog.exec_bind, Prog.exec_mapError]
  rcases fenced : (fenceScope g.domain g.extents g.epoch g.incarnation g.id
    (causeOr request.cause .extentFenced) true now).exec w with ⟨result, w₁⟩
  obtain ⟨further, lineage, minted⟩ := fenceScope_spec fenced
  cases result with
  | error st => exact reached.trans further
  | ok fresh =>
    simp only [Except.mapError]
    rw [Prog.exec_bind, Prog.exec_mapError]
    rcases ended : (closeGrant g .fenced (causeOr request.cause .extentFenced) now).exec w₁ with
      ⟨result, w₂⟩
    rw [← lineage] at pending
    obtain ⟨member, active⟩ := pending.open' g List.mem_cons_self
    obtain ⟨last, closed⟩ := closeGrant_spec pending.sound (by decide) member active ended
    cases result with
    | error st => exact (reached.trans further).trans last
    | ok u =>
      refine ⟨(reached.trans further).trans last, ?_, .inr ?_⟩
      · have after : Pending rest (w₁.state.lineage.closed g.id .fenced
            (causeOr request.cause .extentFenced) now) := pending.closed
        rwa [← closed rfl] at after
      · exact ((minted fresh rfl).reach last).after reached

/-- How a fence comes to its answer: it names nothing that is registered, it raises its own
scope alone, or it ends the open grants it is about. -/
inductive Fences (request : FenceRequest) (now : Step) (w : Work) :
    Except FenceResponse FenceResponse → Work → Prop
  | refused (refusal : FenceResponse)
      (fails : ¬ Names w.state request.domain request.scope) :
      Fences request now w (.error refusal) w
  | alone {r : Except Status FenceToken} {w' : Work}
      (names : Names w.state request.domain request.scope)
      (unmatched : w.state.lineage.openGrants.filter (fencedBy request) = [])
      (fenced : (fenceScope request.domain request.scope request.epoch request.incarnation 0
        (causeOr request.cause .extentFenced) true now).exec w = (r, w')) :
      Fences request now w ((r.mapError fun st => { status := st }).map fun token =>
        { status := .ok, newHighWater := token, registrySequence := w'.state.registrySequence }) w'
  | matched {r : Except FenceResponse FenceToken} {w' : Work}
      (names : Names w.state request.domain request.scope)
      (some' : w.state.lineage.openGrants.filter (fencedBy request) ≠ [])
      (looped : ((w.state.lineage.openGrants.filter (fencedBy request)).foldlM
        (fenceGrant request now) 0).exec w = (r, w')) :
      Fences request now w (r.map fun token =>
        { status := .ok, newHighWater := token, registrySequence := w'.state.registrySequence }) w'

theorem fence_fences {request : FenceRequest} {r : Except FenceResponse FenceResponse}
    (ran : (fence request now).exec w = (r, w')) : Fences request now w r w' := by
  rw [fence, Prog.exec_get_bind, Prog.exec_refuseIf] at ran
  by_cases unnamed : request.domain.isEmpty = true ∨ request.scope.isEmpty = true
  · rw [if_pos unnamed] at ran
    cases ran
    refine .refused _ fun names => ?_
    simp [names.named, names.filled] at unnamed
  rw [if_neg unnamed, Prog.exec_bind] at ran
  rcases checked : (checkScope (fun st => ({ status := st } : FenceResponse)) w request.domain
    request.scope).exec w with ⟨result, w₁⟩
  rw [checked] at ran
  obtain ⟨rfl, registered⟩ := checkScope_state checked
  cases result with
  | error refusal =>
    cases ran
    refine .refused _ fun names => ?_
    rw [checkScope_runs names] at checked
    cases checked
  | ok u =>
    simp only [not_or, Bool.not_eq_true] at unnamed
    have names : Names w₁.state request.domain request.scope :=
      ⟨unnamed.1, unnamed.2, registered rfl⟩
    cases named : w₁.state.lineage.openGrants.filter (fencedBy request) with
    | nil =>
      simp only [named] at ran
      rw [Prog.exec_bind, Prog.exec_mapError] at ran
      rcases fenced : (fenceScope request.domain request.scope request.epoch request.incarnation 0
        (causeOr request.cause .extentFenced) true now).exec w₁ with ⟨result, w₂⟩
      rw [fenced] at ran
      have whole := Fences.alone names named fenced
      cases result with
      | error st => cases ran; exact whole
      | ok token => cases ran; exact whole
    | cons g rest =>
      simp only [named] at ran
      rw [Prog.exec_bind] at ran
      rcases looped : ((g :: rest).foldlM (fenceGrant request now) 0).exec w₁ with ⟨result, w₂⟩
      rw [looped] at ran
      have some' : w₁.state.lineage.openGrants.filter (fencedBy request) ≠ [] := by
        rw [named]
        exact List.cons_ne_nil g rest
      rw [← named] at looped
      have whole := Fences.matched names some' looped
      cases result with
      | error refusal => cases ran; exact whole
      | ok token => cases ran; exact whole

theorem fence_spec {request : FenceRequest} {r : Except FenceResponse FenceResponse}
    (sound : w.state.lineage.Sound) (ran : (fence request now).exec w = (r, w')) :
    Reach w w' ∧ ∀ response, r = .ok response → Minted w response.newHighWater w' := by
  cases fence_fences ran with
  | refused refusal fails => exact ⟨.refl, by rintro _ ⟨⟩⟩
  | alone names unmatched fenced =>
    rename_i result
    obtain ⟨reached, -, minted⟩ := fenceScope_spec fenced
    cases result with
    | error st => exact ⟨reached, by rintro _ ⟨⟩⟩
    | ok token =>
      refine ⟨reached, ?_⟩
      rintro response ⟨⟩
      exact minted token rfl
  | matched names some' looped =>
    rename_i result
    have pending := (pending_openGrants sound).sublist
      (List.filter_sublist (p := fencedBy request))
    have run := Prog.Ensures.foldlM (Fencing w) (fenceGrant_spec request now w)
      (w.state.lineage.openGrants.filter (fencedBy request)) 0 w ⟨.refl, pending, .inl some'⟩
    rw [looped] at run
    cases result with
    | error refusal => exact ⟨run, by rintro _ ⟨⟩⟩
    | ok token =>
      obtain ⟨reached, -, done⟩ := run
      refine ⟨reached, ?_⟩
      rintro response ⟨⟩
      exact done.resolve_left (fun h => h rfl)

end Retirement

section Commit

variable {w w' : Work} {request : CommitRequest} {now : Step} {io : AppendIo}

/-- What a commit must show: the grant it names is open and is the request's own. -/
structure Holds (s : RegistryState) (request : CommitRequest) (g : EpochGrant) : Prop where
  found : s.lineage.find request.grant = some g
  active : g.isOpen = true
  domain : g.domain = request.domain
  extents : g.extents = request.scope
  epoch : g.epoch = request.epoch
  incarnation : g.incarnation = request.incarnation
  token : g.fenceToken = request.fenceToken

/-- The operation of a commit has a text, of bounded length. -/
def Worded (request : CommitRequest) : Prop :=
  ¬ (request.operation = [] ∨ Limits.maxTextLength < request.operation.length)

/-- How a commit comes to its answer: the registry turns it away, the effect boundary does, or
the effect is in the fabric log and its record is still to be written. -/
inductive Mutates (request : CommitRequest) (now : Step) (io : AppendIo) (w : Work) :
    Except CommitResponse CommitResponse → Work → Prop
  | refused (refusal : CommitResponse)
      (fails : ¬ (Names w.state request.domain request.scope ∧ Worded request ∧
        ∃ g, Holds w.state request g)) : Mutates request now io w (.error refusal) w
  | barred {g : EpochGrant} {st : Status} {fabric : FabricStore}
      (names : Names w.state request.domain request.scope) (worded : Worded request)
      (holds : Holds w.state request g)
      (admitted : (FabricStore.admitMutation request.domain request.fenceToken request.scope
        request.epoch request.incarnation request.grant request.operation request.payloadDigest now
        io).exec w.state.fabric = (.error st, fabric)) :
      Mutates request now io w (.error { status := st })
        (w.update fun s => { s with fabric := fabric })
  | written {g : EpochGrant} {record : MutationRecord} {fabric : FabricStore}
      {r : Except Status PUnit} {w' : Work} (names : Names w.state request.domain request.scope)
      (worded : Worded request) (holds : Holds w.state request g)
      (admitted : (FabricStore.admitMutation request.domain request.fenceToken request.scope
        request.epoch request.incarnation request.grant request.operation request.payloadDigest now
        io).exec w.state.fabric = (.ok record, fabric))
      (emitted : (emit .commitRecord (Writer.u64 record.storeSequence ++
        Writer.digest record.recordDigest) .ok now).exec
          (w.update fun s => { s with fabric := fabric }) = (r, w')) :
      Mutates request now io w ((r.mapError fun st => { status := st }).map fun _ => {
        status := .ok
        storeSequence := record.storeSequence
        admittedToken := record.fenceToken
        effectDigest := record.recordDigest
        verified := true }) w'

theorem commit_mutates {r : Except CommitResponse CommitResponse}
    (ran : (commit request now io).exec w = (r, w')) : Mutates request now io w r w' := by
  rw [commit, Prog.exec_get_bind, Prog.exec_refuseIf] at ran
  by_cases incomplete : request.domain.isEmpty = true ∨ request.scope.isEmpty = true
  · rw [if_pos incomplete] at ran
    cases ran
    refine .refused _ fun ⟨names, _⟩ => ?_
    simp [names.named, names.filled] at incomplete
  rw [if_neg incomplete, Prog.exec_refuseIf] at ran
  by_cases worded : request.operation = [] ∨ Limits.maxTextLength < request.operation.length
  · rw [if_pos worded] at ran
    cases ran
    exact .refused _ fun ⟨_, fine, _⟩ => fine worded
  rw [if_neg worded, Prog.exec_bind] at ran
  rcases checked : (checkScope (fun st => ({ status := st } : CommitResponse)) w request.domain
    request.scope).exec w with ⟨result, w₁⟩
  rw [checked] at ran
  obtain ⟨rfl, registered⟩ := checkScope_state checked
  cases result with
  | error refusal =>
    cases ran
    refine .refused _ fun ⟨names, _⟩ => ?_
    rw [checkScope_runs names] at checked
    cases checked
  | ok u =>
    simp only [not_or, Bool.not_eq_true] at incomplete
    have names : Names w₁.state request.domain request.scope :=
      ⟨incomplete.1, incomplete.2, registered rfl⟩
    cases found : w₁.state.lineage.find request.grant with
    | none =>
      simp only [found] at ran
      cases ran
      refine .refused _ fun ⟨_, _, g, holds⟩ => ?_
      rw [holds.found] at found
      cases found
    | some g =>
      have holder : ∀ {o}, Holds w₁.state request o → o = g := fun holds =>
        Option.some.inj (holds.found.symm.trans found)
      simp only [found, Prog.exec_refuseIf] at ran
      by_cases ended : g.state ≠ .open
      · rw [if_pos ended] at ran
        cases ran
        refine .refused _ fun ⟨_, _, o, holds⟩ => ?_
        obtain rfl := holder holds
        exact ended (EpochGrant.isOpen_iff.mp holds.active)
      rw [if_neg ended] at ran
      by_cases foreign : g.domain ≠ request.domain ∨ g.extents ≠ request.scope ∨
          g.epoch ≠ request.epoch ∨ g.incarnation ≠ request.incarnation
      · rw [if_pos foreign] at ran
        cases ran
        refine .refused _ fun ⟨_, _, o, holds⟩ => ?_
        obtain rfl := holder holds
        simp [holds.domain, holds.extents, holds.epoch, holds.incarnation] at foreign
      rw [if_neg foreign] at ran
      by_cases stale : g.fenceToken ≠ request.fenceToken
      · rw [if_pos stale] at ran
        cases ran
        refine .refused _ fun ⟨_, _, o, holds⟩ => ?_
        obtain rfl := holder holds
        exact stale holds.token
      rw [if_neg stale] at ran
      simp only [not_or, not_not] at foreign
      obtain ⟨domain, extents, epoch, incarnation⟩ := foreign
      have holds : Holds w₁.state request g := ⟨found, EpochGrant.isOpen_iff.mpr (not_not.mp ended),
        domain, extents, epoch, incarnation, not_not.mp stale⟩
      rw [Prog.exec_bind, Prog.exec_mapError, onFabric, Prog.exec_zoom] at ran
      rcases admitted : (FabricStore.admitMutation request.domain request.fenceToken request.scope
        request.epoch request.incarnation request.grant request.operation request.payloadDigest now
        io).exec w₁.state.fabric with ⟨result, fabric⟩
      rw [admitted] at ran
      cases result with
      | error st =>
        cases ran
        exact .barred names worded holds admitted
      | ok record =>
        simp only [Except.mapError] at ran
        rw [Prog.exec_bind, Prog.exec_mapError] at ran
        rcases emitted : (emit .commitRecord (Writer.u64 record.storeSequence ++
          Writer.digest record.recordDigest) .ok now).exec
            (w₁.update fun s => { s with fabric := fabric }) with ⟨result, w₂⟩
        rw [emitted] at ran
        have whole := Mutates.written names worded holds admitted emitted
        cases result with
        | error st => cases ran; exact whole
        | ok u => cases ran; exact whole

/-- Without such a grant the commit is refused and nothing is touched. -/
theorem commit_spec {r : Except CommitResponse CommitResponse}
    (ran : (commit request now io).exec w = (r, w')) :
    Reach w w' ∧ ((∃ refusal, r = .error refusal ∧ w' = w) ∨ ∃ g, Holds w.state request g) := by
  have aside : ∀ fabric, Move w (w.update fun s => { s with fabric := fabric }) := fun fabric =>
    Move.aside w.state.idempotencyHits w.state.restartFences fabric
  cases commit_mutates ran with
  | refused refusal fails => exact ⟨.refl, .inl ⟨refusal, rfl, rfl⟩⟩
  | barred names worded holds admitted => exact ⟨(aside _).reach, .inr ⟨_, holds⟩⟩
  | written names worded holds admitted emitted =>
    have logged := emit_move (fun entry read => by cases read; trivial) emitted
    exact ⟨(aside _).reach.trans logged.reach, .inr ⟨_, holds⟩⟩

end Commit

section Restart

variable {w w' : Work} {now : Step}

theorem endBootRecord_spec (now : Step) (w₀ : Work) (record : BootRecord) :
    Prog.Ensures (Reach w₀) (endBootRecord now record) (fun _ => Reach w₀)
      (fun _ => Reach w₀) := by
  refine .ite (fun _ => ?_) (fun _ => .pure fun _ reached => reached)
  have emits : ∀ w w' r, Reach w₀ w → (emit .bootEnd (encodeBootRecord
      { record with endedAt := now, cleanStop := false, interrupted := true })
      (.make .interrupted .interruptedByRestart) now).exec w = (r, w') → Reach w₀ w' := by
    intro w w' r reached ran
    refine reached.trans (emit_move (fun entry read => ?_) ran).reach
    rw [read_back (agrees_bootRecord _) read]
    trivial
  exact .intro (fun w _ w' => emits w w' _) (fun w _ w' => emits w w' _)

def markInterrupted (now : Step) (g : EpochGrant) : Prog Status Work PUnit :=
  emit .interruptMark (encodeInterrupt
    { grant := g.id, domain := g.domain, epoch := g.epoch, incarnation := g.incarnation
      boot := g.boot, markedAt := now, reason := .interruptedByRestart })
    (.make .interrupted .interruptedByRestart) now

theorem markInterrupted_spec {g : EpochGrant} {r : Except Status PUnit}
    (ran : (markInterrupted now g).exec w = (r, w')) :
    Move w w' ∧ w'.state.lineage = w.state.lineage ∧
      (r = .ok ⟨⟩ → w'.state.fences = w.state.fences) := by
  refine ⟨emit_move (fun entry read => ?_) ran, emit_lineage (fun entry read => ?_) ran, ?_⟩
  · rw [read_back (agrees_interrupt _) read]
    trivial
  · rw [read_back (agrees_interrupt _) read]
    rfl
  · rintro rfl
    obtain ⟨entry, s, read, enacted, rfl⟩ := emit_ok ran
    rw [read_back (agrees_interrupt _) read] at enacted
    have same := RegistryState.enact_fences rfl enacted
    exact same

/-- How a restart interrupts a grant: fenced, marked and closed, as far as each step goes. -/
inductive Interrupts (now : Step) (g : EpochGrant) (w : Work) : Except Status PUnit → Work → Prop
  | unfenced {w' : Work} (refusal : Status)
      (fenced : (fenceScope g.domain g.extents g.epoch g.incarnation g.id .interruptedByRestart true
        now).exec w = (.error refusal, w')) : Interrupts now g w (.error refusal) w'
  | unmarked {token : FenceToken} {w₁ w' : Work} (refusal : Status)
      (fenced : (fenceScope g.domain g.extents g.epoch g.incarnation g.id .interruptedByRestart true
        now).exec w = (.ok token, w₁))
      (marked : (markInterrupted now g).exec w₁ = (.error refusal, w')) :
      Interrupts now g w (.error refusal) w'
  | unclosed {token : FenceToken} {w₁ w₂ w' : Work} (refusal : Status)
      (fenced : (fenceScope g.domain g.extents g.epoch g.incarnation g.id .interruptedByRestart true
        now).exec w = (.ok token, w₁))
      (marked : (markInterrupted now g).exec w₁ = (.ok ⟨⟩, w₂))
      (ended : (closeGrant g .interrupted .interruptedByRestart now).exec w₂ =
        (.error refusal, w')) : Interrupts now g w (.error refusal) w'
  | closed {token : FenceToken} {w₁ w₂ w₃ : Work}
      (fenced : (fenceScope g.domain g.extents g.epoch g.incarnation g.id .interruptedByRestart true
        now).exec w = (.ok token, w₁))
      (marked : (markInterrupted now g).exec w₁ = (.ok ⟨⟩, w₂))
      (ended : (closeGrant g .interrupted .interruptedByRestart now).exec w₂ = (.ok ⟨⟩, w₃)) :
      Interrupts now g w (.ok ⟨⟩)
        (w₃.update fun s => { s with restartFences := s.restartFences + 1 })

theorem interruptGrant_interrupts {g : EpochGrant} {r : Except Status PUnit}
    (ran : (interruptGrant now g).exec w = (r, w')) : Interrupts now g w r w' := by
  rw [interruptGrant, Prog.exec_bind] at ran
  rcases fenced : (fenceScope g.domain g.extents g.epoch g.incarnation g.id .interruptedByRestart
    true now).exec w with ⟨result, w₁⟩
  rw [fenced] at ran
  cases result with
  | error st => cases ran; exact .unfenced st fenced
  | ok token =>
    simp only [Prog.exec_bind] at ran
    rcases marked : (markInterrupted now g).exec w₁ with ⟨result, w₂⟩
    have step := marked
    rw [markInterrupted] at step
    rw [step] at ran
    cases result with
    | error st => cases ran; exact .unmarked st fenced marked
    | ok u =>
      rcases ended : (closeGrant g .interrupted .interruptedByRestart now).exec w₂ with
        ⟨result, w₃⟩
      simp only [ended] at ran
      cases result with
      | error st => cases ran; exact .unclosed st fenced marked ended
      | ok u => cases ran; exact .closed fenced marked ended

theorem interruptGrant_spec (now : Step) (w₀ : Work) (g : EpochGrant) (rest : List EpochGrant) :
    Prog.Ensures (fun w => Reach w₀ w ∧ Pending (g :: rest) w.state.lineage) (interruptGrant now g)
      (fun _ w => Reach w₀ w ∧ Pending rest w.state.lineage) (fun _ => Reach w₀) := by
  rintro w ⟨reached, pending⟩
  have closing : ∀ {token : FenceToken} {w₁ w₂ w₃ : Work} {r : Except Status PUnit},
      (fenceScope g.domain g.extents g.epoch g.incarnation g.id .interruptedByRestart true
        now).exec w = (.ok token, w₁) → (markInterrupted now g).exec w₁ = (.ok ⟨⟩, w₂) →
      (closeGrant g .interrupted .interruptedByRestart now).exec w₂ = (r, w₃) →
      Reach w₀ w₃ ∧ (r = .ok ⟨⟩ → Pending rest w₃.state.lineage) := by
    intro token w₁ w₂ w₃ r fenced marked ended
    obtain ⟨first, lineage, -⟩ := fenceScope_spec fenced
    obtain ⟨second, same, -⟩ := markInterrupted_spec marked
    rw [← lineage, ← same] at pending
    obtain ⟨member, active⟩ := pending.open' g List.mem_cons_self
    obtain ⟨third, closed⟩ := closeGrant_spec pending.sound (by decide) member active ended
    refine ⟨((reached.trans first).trans second.reach).trans third, fun ok => ?_⟩
    rw [closed ok]
    exact pending.closed
  rcases ran : (interruptGrant now g).exec w with ⟨r, w'⟩
  cases interruptGrant_interrupts ran with
  | unfenced refusal fenced => exact reached.trans (fenceScope_spec fenced).1
  | unmarked refusal fenced marked =>
    exact (reached.trans (fenceScope_spec fenced).1).trans (markInterrupted_spec marked).1.reach
  | unclosed refusal fenced marked ended => exact (closing fenced marked ended).1
  | closed fenced marked ended =>
    rename_i w₃
    obtain ⟨midway, after⟩ := closing fenced marked ended
    refine ⟨midway.trans ?_, after rfl⟩
    exact (Move.aside w₃.state.idempotencyHits _ w₃.state.fabric).reach

/-- A boot record of the next incarnation was the last thing written. -/
def Rebooted (w w' : Work) : Prop :=
  ∃ record s boot, w.state.incarnationCounter ≠ maxWord ∧
    record.sequence = w.state.registrySequence + 1 ∧ record.entry = .ok (.bootBegin boot) ∧
    boot.incarnation = w.state.incarnationCounter + 1 ∧
    (apply record).exec (bumpIncarnation w.state) = (.ok ⟨⟩, s) ∧ w' = w.kept record s

theorem Rebooted.move (rebooted : Rebooted w w') : Move w w' := by
  obtain ⟨record, s, boot, room, next, read, incarnation, ran, rfl⟩ := rebooted
  refine .booted room next (fun entry known => ?_) ran
  rw [read] at known
  cases known
  exact ⟨boot, rfl, incarnation⟩

theorem openBoot_spec {r : Except Status PUnit} (ran : (openBoot now).exec w = (r, w')) :
    Reach w w' ∧ (r = .ok ⟨⟩ → Rebooted w w') := by
  rw [openBoot, Prog.exec_get_bind, Prog.exec_refuseIf] at ran
  by_cases full : w.state.incarnationCounter = maxWord
  · rw [if_pos full] at ran
    cases ran
    exact ⟨.refl, fun h => by cases h⟩
  rw [if_neg full, Prog.exec_modify_bind, Prog.exec_get_bind] at ran
  have bumped : (w.update fun s => { s with incarnationCounter := s.incarnationCounter + 1 }).state =
    bumpIncarnation w.state := rfl
  rcases emit_cases ran with ⟨s, rfl, rfl, applied⟩ | ⟨st, s, rfl, rfl, applied⟩
  · obtain ⟨entry, _, read, -, -⟩ := emit_ok ran
    have known := read_back (agrees_bootRecord _) read
    rw [known] at read
    have rebooted : Rebooted w _ := ⟨_, s, _, full, rfl, read, rfl, applied, rfl⟩
    exact ⟨rebooted.move.reach, fun _ => rebooted⟩
  · refine ⟨(Move.bootLost (w := w) full rfl (fun entry read => ?_) applied).reach, fun h => by cases h⟩
    exact ⟨_, read_back (agrees_bootRecord _) read, rfl⟩

theorem recoverAfterRestart_spec {r : Except Status PUnit} (sound : w.state.lineage.Sound)
    (ran : (recoverAfterRestart now).exec w = (r, w')) :
    Reach w w' ∧ (r = .ok ⟨⟩ → ∃ w₁, Reach w w₁ ∧ Rebooted w₁ w') := by
  rw [recoverAfterRestart, Prog.exec_get_bind, Prog.exec_bind] at ran
  have boots := Prog.Ensures.forM (fun _ => Reach w) (fun record _ => endBootRecord_spec now w record)
    w.state.lineage.boots w .refl
  rcases looped : (w.state.lineage.boots.forM (endBootRecord now)).exec w with ⟨result, w₁⟩
  rw [looped] at ran boots
  cases result with
  | error st => cases ran; exact ⟨boots, fun h => by cases h⟩
  | ok u =>
    have sound₁ : w₁.state.lineage.Sound := preserved_sound.reach sound boots
    have grants := Prog.Ensures.forM (fun rest w₂ => Reach w w₂ ∧ Pending rest w₂.state.lineage)
      (interruptGrant_spec now w) w₁.state.lineage.openGrants w₁
      ⟨boots, pending_openGrants sound₁⟩
    simp only [Prog.exec_bind, Prog.exec_get] at ran
    rcases looped : (w₁.state.lineage.openGrants.forM (interruptGrant now)).exec w₁ with
      ⟨result, w₂⟩
    rw [looped] at ran grants
    cases result with
    | error st => cases ran; exact ⟨grants, fun h => by cases h⟩
    | ok u =>
      obtain ⟨last, rebooted⟩ := openBoot_spec ran
      exact ⟨grants.1.trans last, fun ok => ⟨w₂, grants.1, rebooted ok⟩⟩

end Restart

section Definitions

variable {w w' : Work} {now : Step}

theorem allocateIncarnation_spec {r : Except Status IncarnationId}
    (ran : (allocateIncarnation now).exec w = (r, w')) :
    Reach w w' ∧ ∀ i, r = .ok i → w.state.incarnationCounter ≠ maxWord ∧
      i = w.state.incarnationCounter + 1 ∧
      ∃ record s, record.entry = .ok (.incarnationAllocate i) ∧ w' = w.kept record s := by
  rw [allocateIncarnation, Prog.exec_get_bind, Prog.exec_refuseIf] at ran
  by_cases full : w.state.incarnationCounter = maxWord
  · rw [if_pos full] at ran
    cases ran
    exact ⟨.refl, by rintro _ ⟨⟩⟩
  rw [if_neg full, Prog.exec_bind] at ran
  rcases emitted : (emit .incarnationAllocate (Writer.u64 (w.state.incarnationCounter + 1)) .ok
    now).exec w with ⟨result, w₁⟩
  have reads : ∀ entry, (w.nextRecord .incarnationAllocate
      (Writer.u64 (w.state.incarnationCounter + 1)) .ok now).entry = .ok entry →
      entry = .incarnationAllocate (w.state.incarnationCounter + 1) := fun entry read =>
    read_back (reads_u64 _).agrees read
  have move : Move w w₁ := by
    refine emit_move (fun entry read => ?_) emitted
    rw [reads entry read]
    exact ⟨full, rfl⟩
  rw [emitted] at ran
  cases result with
  | error st => cases ran; exact ⟨move.reach, by rintro _ ⟨⟩⟩
  | ok u =>
    obtain ⟨entry, s, read, -, rfl⟩ := emit_ok emitted
    rw [reads entry read] at read
    cases ran
    refine ⟨move.reach, ?_⟩
    rintro i ⟨⟩
    exact ⟨full, rfl, _, s, read, rfl⟩

/-- Everything a definition is checked for before it is written down. -/
structure Definable (s : RegistryState) (d : DomainDefinition) : Prop where
  named : d.domain.isEmpty = false
  placed : d.node.isEmpty = false
  filled : d.scope.isEmpty = false
  free : s.domains.find d.domain = none
  room : ¬ Limits.maxDomains ≤ s.domains.size

theorem defineDomain_exec {d : DomainDefinition} (definable : Definable w.state d) :
    (defineDomain d now).exec w = (emit .domainDefine (encodeDomain d) .ok now).exec w := by
  have complete : ¬ (d.domain.isEmpty = true ∨ d.node.isEmpty = true) := by
    simp [definable.named, definable.placed]
  rw [defineDomain, Prog.exec_refuseIf, if_neg complete, Prog.exec_refuseIf,
    if_neg (by simp [definable.filled]), Prog.exec_get_bind, definable.free]
  simp only [Prog.exec_refuseIf]
  rw [if_neg definable.room]

theorem defineDomain_idle {d : DomainDefinition} {r : Except Status PUnit}
    (fails : ¬ Definable w.state d) (ran : (defineDomain d now).exec w = (r, w')) : w' = w := by
  simp only [defineDomain, Prog.exec_refuseIf, Prog.exec_get_bind] at ran
  split at ran
  · cases ran; rfl
  rename_i named
  split at ran
  · cases ran; rfl
  rename_i filled
  cases known : w.state.domains.find d.domain with
  | some old =>
    simp only [known] at ran
    split at ran
    · cases ran; rfl
    · cases ran; rfl
  | none =>
    simp only [known, Prog.exec_refuseIf] at ran
    split at ran
    · cases ran; rfl
    rename_i room
    simp only [not_or, Bool.not_eq_true] at named filled
    exact absurd ⟨named.1, named.2, filled, known, room⟩ fails

theorem defineDomain_spec {d : DomainDefinition} {r : Except Status PUnit}
    (ran : (defineDomain d now).exec w = (r, w')) : Reach w w' := by
  by_cases definable : Definable w.state d
  · rw [defineDomain_exec definable] at ran
    refine (emit_move (fun entry read => ?_) ran).reach
    rw [read_back (agrees_domain d) read]
    trivial
  · rw [defineDomain_idle definable ran]

theorem policy_spec {p : ArbiterPolicy} {status : Status} {r : Except Status PUnit}
    (bounded : p.quorum.witnesses.length ≤ Limits.maxWitnessesPerProfile)
    (ran : (emit .policyDefine (encodePolicy p) status now).exec w = (r, w')) : Reach w w' := by
  refine (emit_move (fun entry read => ?_) ran).reach
  have agrees := agrees_policy bounded
  simp only [nextRecord, JournalRecord.entry] at read
  rw [read_back agrees read]
  exact bounded

theorem definePolicy_exec {p : ArbiterPolicy} (valid : p.validate = .ok ()) :
    (definePolicy p now).exec w = (emit .policyDefine (encodePolicy
      { p with generation := w.state.policy.generation + 1 }) .ok now).exec w := by
  unfold definePolicy
  rw [Prog.exec_ofExcept_bind, valid]
  dsimp only
  rw [Prog.exec_get_bind]

theorem definePolicy_spec {p : ArbiterPolicy} {r : Except Status PUnit}
    (ran : (definePolicy p now).exec w = (r, w')) : Reach w w' := by
  cases valid : p.validate with
  | error st =>
    rw [definePolicy, Prog.exec_ofExcept_bind, valid] at ran
    cases ran
    exact .refl
  | ok u =>
    rw [definePolicy_exec valid] at ran
    refine policy_spec ?_ ran
    have bounded := ArbiterPolicy.validate_bounded valid
    exact bounded

theorem decide_spec {sorting : Sorting} {request : DecideRequest}
    {r : Except DecideResponse DecideResponse}
    (ran : (Work.decide sorting request now).exec w = (r, w')) : w' = w := by
  rw [Work.decide, Prog.exec_get_bind, Prog.exec_refuseIf] at ran
  split at ran
  · cases ran; rfl
  rw [Prog.exec_bind] at ran
  rcases checked : (checkScope (fun st => ({ status := st } : DecideResponse)) w request.domain
    request.scope).exec w with ⟨result, w₁⟩
  rw [checked] at ran
  obtain ⟨rfl, -⟩ := checkScope_state checked
  cases result with
  | error refusal => cases ran; rfl
  | ok u =>
    simp only at ran
    split at ran
    · cases ran; rfl
    · rw [Prog.exec_refuseIf] at ran
      split at ran
      · cases ran; rfl
      · rw [Prog.exec_ite] at ran
        split at ran <;> · cases ran; rfl

end Definitions

end Work
end SplitBrainFabric
