import SplitBrainFabric.OperationEnds

/-! What giving up open grants does to the fence table and to the other grants, for every
operation that does it. -/

namespace SplitBrainFabric
open Words Decoder

/-- These grants were given up, the incarnations of the named ones with them. Every other
grant is as it was, and so is every mark outside their scopes. -/
structure GivenUp (named : EpochGrant → Bool) (l : List EpochGrant) (s s' : RegistryState) :
    Prop where
  opens : ∀ o ∈ s'.lineage.grants, o.isOpen = true →
    o ∈ s.lineage.grants ∧ ∀ g ∈ l, o.id ≠ g.id
  marks : ∀ e, s'.fences.highWater e = s.fences.highWater e ∨ ∃ g ∈ l, e ∈ g.extents.extents
  disowned : ∀ i, s'.fences.incarnationFenced i = true → s.fences.incarnationFenced i = true ∨
    s.fences.fencedIncarnations.size < Limits.maxFenceRecords ∧
      ∃ g ∈ l, named g = true ∧ g.incarnation = i
  noted : s.fences.fencedIncarnations.size ≤ s'.fences.fencedIncarnations.size

namespace GivenUp

variable {named : EpochGrant → Bool} {l l' : List EpochGrant} {s s₁ s' : RegistryState}

/-- Nothing that the tables of authority show. -/
theorem none (grants : s'.lineage.grants = s.lineage.grants)
    (marks : s'.fences.extents = s.fences.extents)
    (incarnations : s'.fences.fencedIncarnations = s.fences.fencedIncarnations) :
    GivenUp named [] s s' where
  opens o member _ := ⟨grants ▸ member, by simp⟩
  marks e := .inl (by rw [FenceTable.highWater, FenceTable.find, marks]; rfl)
  disowned i fenced := .inl (by
    rwa [FenceTable.incarnationFenced, incarnations] at fenced)
  noted := by rw [incarnations]

theorem trans (first : GivenUp named l s s₁) (second : GivenUp named l' s₁ s') :
    GivenUp named (l ++ l') s s' where
  opens o member active := by
    obtain ⟨midway, later⟩ := second.opens o member active
    obtain ⟨before, earlier⟩ := first.opens o midway active
    refine ⟨before, fun g inside => ?_⟩
    rcases List.mem_append.mp inside with left | right
    · exact earlier g left
    · exact later g right
  marks e := by
    rcases second.marks e with same | ⟨g, member, inside⟩
    · rcases first.marks e with same' | ⟨g, member, inside⟩
      · exact .inl (same.trans same')
      · exact .inr ⟨g, List.mem_append_left _ member, inside⟩
    · exact .inr ⟨g, List.mem_append_right _ member, inside⟩
  disowned i fenced := by
    rcases second.disowned i fenced with before | ⟨room, g, member, rest⟩
    · rcases first.disowned i before with old | ⟨room, g, member, rest⟩
      · exact .inl old
      · exact .inr ⟨room, g, List.mem_append_left _ member, rest⟩
    · exact .inr ⟨lt_of_le_of_lt first.noted room, g, List.mem_append_right _ member, rest⟩
  noted := first.noted.trans second.noted

end GivenUp

namespace Work

open RegistryState (Footing enact)

variable {w w₁ w₂ w' : Work} {now : Step} {g : EpochGrant} {named : EpochGrant → Bool}

/-- A fence that is refused gives nothing up. -/
theorem fenceScope_refused {domain : DomainId} {scope : Scope} {epoch : Epoch}
    {incarnation : IncarnationId} {superseded : GrantId} {cause : Reason} {fenceIncarnation : Bool}
    {st : Status} (marked : ∀ e, w.state.fences.highWater e ≤ w.state.tokenCounter)
    (ran : (fenceScope domain scope epoch incarnation superseded cause fenceIncarnation now).exec w =
      (.error st, w')) : GivenUp named [] w.state w'.state := by
  have lineage := (fenceScope_spec ran).2.1
  rw [fenceScope, Prog.exec_get_bind, Prog.exec_refuseIf] at ran
  split at ran
  · cases ran
    exact .none rfl rfl rfl
  rename_i tokens
  rw [Prog.exec_bind] at ran
  rcases emitted : (emit .fence (encodeFencePayload (w.fenceRecord domain scope epoch incarnation
    superseded cause fenceIncarnation now) scope) (.make .fenced cause
      (w.fenceRecord domain scope epoch incarnation superseded cause fenceIncarnation now).token)
    now).exec w with ⟨result, w₁⟩
  rw [emitted] at ran
  cases result with
  | ok u => cases ran
  | error refusal =>
    cases ran
    rcases emit_cases emitted with ⟨_, done, -⟩ | ⟨_, s, -, rfl, applied⟩
    · cases done
    have table : s.fences = w.state.fences ∨ s.fences = w.state.fences.dropOldest := by
      rcases RegistryState.apply_cases applied with ⟨rfl, -⟩ | ⟨-, -, ⟨_, -, -, rfl⟩ |
        ⟨entry, read, enacted⟩⟩
      · exact .inl rfl
      · exact .inl rfl
      · rw [fence_entry read] at enacted
        rcases RegistryState.enact_fence enacted with ⟨done, -⟩ | ⟨_, fences, -, stopped, rfl⟩
        · cases done
        · exact FenceTable.apply_refused_table
            (fun e => (marked e).trans (le_of_lt (lt_succ tokens))) stopped
    refine .none (congrArg LineageTable.grants lineage) ?_ ?_
    · rcases table with same | same
      · exact congrArg FenceTable.extents same
      · exact (congrArg FenceTable.extents same).trans (FenceTable.dropOldest_extents _)
    · rcases table with same | same
      · exact congrArg FenceTable.fencedIncarnations same
      · exact (congrArg FenceTable.fencedIncarnations same).trans
          (FenceTable.dropOldest_fencedIncarnations _)

/-- A fence and then the close, whatever of another kind stands between them. -/
theorem givenUp_of_parts {cause reason : Reason} {fenceIncarnation : Bool} {state : GrantState}
    {token : FenceToken} (footing : Footing w.state) (member : g ∈ w.state.lineage.grants)
    (active : g.isOpen = true) (ends : state ≠ .open)
    (flag : fenceIncarnation = true → named g = true)
    (fenced : (fenceScope g.domain g.extents g.epoch g.incarnation g.id cause fenceIncarnation
      now).exec w = (.ok token, w₁))
    (lineage : w₂.state.lineage = w₁.state.lineage) (fences : w₂.state.fences = w₁.state.fences)
    (closed : (closeGrant g state reason now).exec w₂ = (.ok ⟨⟩, w')) :
    GivenUp named [g] w.state w'.state := by
  have before := (fenceScope_spec fenced).2.1
  rcases fenceScope_cases (footing.named g member) (footing.filled g member) footing.marked fenced
    with ⟨-, -, -, rfl⟩ | ⟨⟨st, failed⟩, -⟩
  · have same : w₂.state.lineage = w.state.lineage := lineage.trans before
    have shut : w'.state.lineage = w₂.state.lineage.closed g.id state reason now :=
      (closeGrant_spec (same ▸ footing.sound) ends (same ▸ member) active closed).2 rfl
    have table : w'.state.fences = w₂.state.fences := by
      rw [closeGrant, Prog.exec_get_bind] at closed
      obtain ⟨entry, s, read, enacted, rfl⟩ := emit_ok closed
      rw [close_entry read] at enacted
      rcases RegistryState.enact_grantClose enacted with ⟨-, -, -, rfl⟩ | ⟨rfl, -⟩
      · rfl
      · rfl
    have fences := table.trans fences
    generalize raised : w.fenceRecord g.domain g.extents g.epoch g.incarnation g.id cause
      fenceIncarnation now = record at fences
    have fences : w'.state.fences = w.state.fences.applied record g.extents := by
      rw [fences, ← raised]
      rfl
    have owner : ∀ i, i ≠ 0 → record.fencedIncarnation = i → fenceIncarnation = true ∧
        g.incarnation = i := by
      intro i set same
      rw [← raised, fenceRecord] at same
      cases fenceIncarnation with
      | true => exact ⟨rfl, same⟩
      | false => exact absurd same.symm set
    constructor
    · intro o inside isOpen
      rw [shut, same] at inside
      obtain ⟨old, other⟩ := footing.sound.open_of_closed ends
        ⟨g, footing.sound.find_eq member⟩ inside isOpen
      refine ⟨old, fun x last => ?_⟩
      rw [List.mem_singleton.mp last]
      exact other
    · intro e
      rw [fences, FenceTable.applied_highWater]
      split
      · rename_i inside
        exact .inr ⟨g, List.mem_singleton_self g, inside⟩
      · exact .inl rfl
    · intro i disowned
      have set : i ≠ 0 := by
        rintro rfl
        cases disowned
      rw [fences, FenceTable.incarnationFenced, FenceTable.applied_fencedIncarnations] at disowned
      rcases FenceTable.noteIncarnation_fenced disowned with old | ⟨room, held⟩
      · exact .inl old
      · obtain ⟨called, same⟩ := owner i set held
        exact .inr ⟨room, g, List.mem_singleton_self g, flag called, same⟩
    · rw [fences, FenceTable.applied_fencedIncarnations]
      exact FenceTable.noteIncarnation_size
  · cases failed

/-- Without numbers or room for its fence a grant is not given up. -/
theorem fenceScope_balks {cause : Reason} {fenceIncarnation : Bool}
    {r : Except Status FenceToken} (footing : Footing w.state) (member : g ∈ w.state.lineage.grants)
    (lacks : ¬ (Affords w.state 1 1 ∧ Fits w.state g.extents))
    (ran : (fenceScope g.domain g.extents g.epoch g.incarnation g.id cause fenceIncarnation
      now).exec w = (r, w')) : (∃ st, r = .error st) ∧ GivenUp named [] w.state w'.state := by
  rcases fenceScope_cases (footing.named g member) (footing.filled g member) footing.marked ran
    with ⟨affords, fits, -, -⟩ | ⟨⟨st, rfl⟩, -⟩
  · exact absurd ⟨affords, fits⟩ lacks
  · exact ⟨⟨st, rfl⟩, fenceScope_refused footing.marked ran⟩

/-- One turn of a loop that gives up open grants: what it does when it goes through, and
that it does nothing when not even its fence does. -/
structure Gives {ε β : Type} (named : EpochGrant → Bool) (turn : β → EpochGrant → Prog ε Work β) :
    Prop where
  through : ∀ (b : β) (w w' : Work) (g : EpochGrant) (b' : β), Footing w.state →
    g ∈ w.state.lineage.grants → g.isOpen = true → (turn b g).exec w = (.ok b', w') →
    GivenUp named [g] w.state w'.state
  balks : ∀ (b : β) (w w' : Work) (g : EpochGrant) (r : Except ε β), Footing w.state →
    g ∈ w.state.lineage.grants → g.isOpen = true →
    ¬ (Affords w.state 1 1 ∧ Fits w.state g.extents) → (turn b g).exec w = (r, w') →
    (∃ e, r = .error e) ∧ GivenUp named [] w.state w'.state

theorem foldlM_givenUp {ε β : Type} {per : Nat} {turn : β → EpochGrant → Prog ε Work β}
    (gives : Gives named turn) (retires : Retires per turn) {l : List EpochGrant} {b b' : β}
    (footing : Footing w.state) (pending : Pending l w.state.lineage)
    (ran : (l.foldlM turn b).exec w = (.ok b', w')) : GivenUp named l w.state w'.state := by
  induction l generalizing w b with
  | nil =>
    cases ran
    exact .none rfl rfl rfl
  | cons g rest ih =>
    rw [Prog.foldlM_cons] at ran
    obtain ⟨b₁, w₁, first, ran⟩ := Prog.bind_ok ran
    obtain ⟨member, active⟩ := pending.open' g List.mem_cons_self
    obtain ⟨footing₁, pending₁⟩ := (retires b w w₁ g rest _ footing pending first).2 b₁ rfl
    exact (gives.through b w w₁ g b₁ footing member active first).trans (ih footing₁ pending₁ ran)

theorem displace_gives (request : AllocateEpochRequest) (now : Step) :
    Gives (fun g => Decidable.decide (g.incarnation ≠ request.incarnation))
      fun (_ : PUnit) => displace request now := by
  constructor
  · intro _ w w' g _ footing member active ran
    obtain ⟨token, w₁, fenced, closed⟩ := Prog.bind_ok ran
    exact givenUp_of_parts footing member active (by decide) (fun flag => flag) fenced rfl rfl closed
  · intro _ w w' g r footing member _ lacks ran
    have ran : (displace request now g).exec w = (r, w') := ran
    rw [displace, Prog.exec_bind] at ran
    rcases fenced : (fenceScope g.domain g.extents g.epoch g.incarnation g.id
      .compensatingFenceRequired (Decidable.decide (g.incarnation ≠ request.incarnation))
      now).exec w with ⟨result, w₁⟩
    obtain ⟨⟨st, rfl⟩, none⟩ := fenceScope_balks footing member lacks fenced
    rw [fenced] at ran
    cases ran
    exact ⟨⟨st, rfl⟩, none⟩

/-- A fence and a close under the answers of a caller. -/
theorem surrender_gives {ε β : Type} {cause reason : Reason} {state : GrantState}
    {unfenced : Status → ε} {unclosed : FenceToken → Status → ε} {answer : FenceToken → β}
    {r : Except ε β} (ends : state ≠ .open) (footing : Footing w.state)
    (member : g ∈ w.state.lineage.grants) (active : g.isOpen = true)
    (ran : (do
      let token ← Prog.mapError unfenced
        (fenceScope g.domain g.extents g.epoch g.incarnation g.id cause true now)
      Prog.mapError (unclosed token) (closeGrant g state reason now)
      pure (answer token) : Prog ε Work β).exec w = (r, w')) :
    ((∃ b, r = .ok b) → GivenUp (fun _ => true) [g] w.state w'.state) ∧
      (¬ (Affords w.state 1 1 ∧ Fits w.state g.extents) →
        (∃ e, r = .error e) ∧ GivenUp (fun _ => true) [] w.state w'.state) := by
  constructor
  · rintro ⟨b, rfl⟩
    obtain ⟨token, w₁, fenced, ran⟩ := Prog.bind_ok ran
    obtain ⟨_, w₂, closed, ran⟩ := Prog.bind_ok ran
    cases ran
    exact givenUp_of_parts footing member active ends (fun _ => rfl) (Prog.mapError_ok fenced) rfl
      rfl (Prog.mapError_ok closed)
  · intro lacks
    rw [Prog.exec_bind, Prog.exec_mapError] at ran
    rcases fenced : (fenceScope g.domain g.extents g.epoch g.incarnation g.id cause true
      now).exec w with ⟨result, w₁⟩
    obtain ⟨⟨st, rfl⟩, none⟩ := fenceScope_balks footing member lacks fenced
    simp only [fenced, Except.mapError] at ran
    cases ran
    exact ⟨⟨_, rfl⟩, none⟩

theorem fenceGrant_gives (request : FenceRequest) (now : Step) :
    Gives (fun _ => true) (fenceGrant request now) := by
  have ends : GrantState.fenced ≠ .open := by decide
  constructor
  · intro b w w' g b' footing member active ran
    exact (surrender_gives ends footing member active ran).1 ⟨b', rfl⟩
  · intro b w w' g r footing member active lacks ran
    exact (surrender_gives ends footing member active ran).2 lacks

theorem interruptGrant_gives (now : Step) :
    Gives (fun _ => true) fun (_ : PUnit) => interruptGrant now := by
  constructor
  · intro _ w w' g _ footing member active ran
    have ran : (interruptGrant now g).exec w = (.ok ⟨⟩, w') := ran
    cases interruptGrant_interrupts ran with
    | closed fenced marked ended =>
      obtain ⟨-, lineage, fences⟩ := markInterrupted_spec marked
      have ends : GrantState.interrupted ≠ .open := by decide
      have given : GivenUp (fun _ => true) [g] w.state _ :=
        givenUp_of_parts footing member active ends (fun _ => rfl) fenced lineage (fences rfl) ended
      exact ⟨given.opens, given.marks, given.disowned, given.noted⟩
  · intro _ w w' g r footing member _ lacks ran
    have ran : (interruptGrant now g).exec w = (r, w') := ran
    have balks : ∀ {result : Except Status FenceToken} {w₁ : Work},
        (fenceScope g.domain g.extents g.epoch g.incarnation g.id .interruptedByRestart true
          now).exec w = (result, w₁) →
        (∃ st, result = .error st) ∧ GivenUp (fun _ => true) [] w.state w₁.state :=
      fun fenced => fenceScope_balks footing member lacks fenced
    cases interruptGrant_interrupts ran with
    | unfenced refusal fenced => exact ⟨⟨refusal, rfl⟩, (balks fenced).2⟩
    | unmarked refusal fenced marked =>
      obtain ⟨⟨st, failed⟩, -⟩ := balks fenced
      cases failed
    | unclosed refusal fenced marked ended =>
      obtain ⟨⟨st, failed⟩, -⟩ := balks fenced
      cases failed
    | closed fenced marked ended =>
      obtain ⟨⟨st, failed⟩, -⟩ := balks fenced
      cases failed

/-- The loop stops at once when its first grant cannot be given up. -/
theorem foldlM_balks {ε β : Type} {turn : β → EpochGrant → Prog ε Work β}
    (gives : Gives named turn) {l : List EpochGrant} {b : β} {r : Except ε β}
    (footing : Footing w.state) (pending : Pending l w.state.lineage) (first : g ∈ l.head?)
    (lacks : ¬ (Affords w.state 1 1 ∧ Fits w.state g.extents))
    (ran : (l.foldlM turn b).exec w = (r, w')) :
    (∃ e, r = .error e) ∧ GivenUp named [] w.state w'.state := by
  obtain ⟨rest, rfl⟩ : ∃ rest, l = g :: rest := List.head?_eq_some_iff.mp first
  rw [Prog.foldlM_cons, Prog.exec_bind] at ran
  rcases turned : (turn b g).exec w with ⟨result, w₁⟩
  obtain ⟨member, active⟩ := pending.open' g List.mem_cons_self
  obtain ⟨⟨e, rfl⟩, none⟩ := gives.balks b w w₁ g result footing member active lacks turned
  rw [turned] at ran
  cases ran
  exact ⟨⟨e, rfl⟩, none⟩

/-- It goes through when there are numbers and room for all of them. -/
theorem foldlM_through {ε β : Type} {per : Nat} {turn : β → EpochGrant → Prog ε Work β}
    (gives : Gives named turn) (retires : Retires per turn) {l : List EpochGrant} {b : β}
    {r : Except ε β} (footing : Footing w.state) (pending : Pending l w.state.lineage)
    (affords : Affords w.state (per * l.length) l.length) (fits : ∀ g ∈ l, Fits w.state g.extents)
    (ran : (l.foldlM turn b).exec w = (r, w')) :
    (∃ b', r = .ok b') ∧ GivenUp named l w.state w'.state := by
  have fitting : ∀ scope ∈ l.map (·.extents), Fits w.state scope := by
    simpa [List.forall_mem_map] using fits
  obtain ⟨b', rfl⟩ := ((foldlM_ends retires footing pending ran).1.ok_iff
    fun blocked => blocked.misfit).mpr ⟨affords, fitting⟩
  exact ⟨⟨b', rfl⟩, foldlM_givenUp gives retires footing pending ran⟩

end Work
end SplitBrainFabric
