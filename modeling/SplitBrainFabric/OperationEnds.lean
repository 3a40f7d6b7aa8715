import SplitBrainFabric.Progress

/-! How each operation of the registry ends: what it needs to go through, and when a
refusal leaves the registry in step with the records it has handed out. -/

namespace SplitBrainFabric
open Words Decoder

namespace Work

open RegistryState (Footing enact)

section Recovery

variable {w w' : Work} {now : Step}

/-- The boots a recovery has to end. -/
def unended (s : RegistryState) : List BootRecord := s.lineage.boots.filter (·.endedAt = 0)

theorem enact_bootEnd_runs {boot : BootRecord} {s : RegistryState}
    (known : boot.boot ∈ s.lineage.boots.map (·.boot)) :
    (enact (.bootEnd boot)).exec s = (.ok ⟨⟩, { s with
      lineage := ((LineageTable.endBoot boot.boot boot.endedAt boot.cleanStop).exec
        s.lineage).2 }) := by
  rcases ended : (LineageTable.endBoot boot.boot boot.endedAt boot.cleanStop).exec s.lineage with
    ⟨r, lineage⟩
  rw [enact, RegistryState.tolerate_exec, RegistryState.onLineage_exec, ended]
  cases r with
  | ok u => rfl
  | error st =>
    have settled := LineageTable.endBoot_outcome (LineageTable.findBoot_isSome.mpr known) ended
    exact if_pos settled

theorem endBoot_ends {boot : BootRecord} {r : Except Status PUnit} {status : Status}
    (ran : (emit .bootEnd (encodeBootRecord boot) status now).exec w = (r, w'))
    (placed : boot.node.isEmpty = false)
    (known : boot.boot ∈ w.state.lineage.boots.map (·.boot)) :
    Ends w 1 0 True False r w' ∧ w'.state.lineage.grants = w.state.lineage.grants ∧
      w'.state.lineage.boots.map (·.boot) = w.state.lineage.boots.map (·.boot) := by
  have read : (w.nextRecord .bootEnd (encodeBootRecord boot) status now).entry =
      .ok (.bootEnd boot) := read_image (f := Entry.bootEnd) (reads_bootRecord placed)
  have enacts : ∀ record, (enact (.bootEnd boot)).exec (w.state.observe record) = _ :=
    fun record => enact_bootEnd_runs (s := w.state.observe record) known
  refine ⟨emit_ends ran read fun record => ⟨_, enacts record, ⟨rfl, rfl, rfl, rfl, rfl⟩⟩, ?_⟩
  by_cases full : w.state.registrySequence = maxWord
  · rw [emit_full full] at ran
    cases ran
    exact ⟨rfl, rfl⟩
  · rw [emit_runs full read (enacts _)] at ran
    cases ran
    exact ⟨LineageTable.endBoot_grants _ _ _ _, LineageTable.endBoot_ids _ _ _ _⟩

theorem endBoots_ends {l : List BootRecord} {r : Except Status PUnit} (footing : Footing w.state)
    (placed : ∀ b ∈ l, b.node.isEmpty = false)
    (known : ∀ b ∈ l, b.boot ∈ w.state.lineage.boots.map (·.boot))
    (ran : (l.forM (endBootRecord now)).exec w = (r, w')) :
    Ends w (l.filter (·.endedAt = 0)).length 0 True False r w' ∧
      w'.state.lineage.grants = w.state.lineage.grants := by
  induction l generalizing w with
  | nil =>
    cases ran
    exact ⟨.done (affords_none _) trivial (Advanced.refl _) rfl, rfl⟩
  | cons b rest ih =>
    rw [Prog.forM_cons, Prog.exec_bind] at ran
    have later : ∀ x ∈ rest, x.node.isEmpty = false := fun x member =>
      placed x (List.mem_cons_of_mem b member)
    by_cases unset : b.endedAt = 0
    · rcases ended : (endBootRecord now b).exec w with ⟨result, w₁⟩
      have moved := (endBootRecord_spec now w b).either .refl ended
      rw [ended] at ran
      rw [endBootRecord, if_pos unset] at ended
      obtain ⟨first, grants, boots⟩ := endBoot_ends ended (placed b List.mem_cons_self)
        (known b List.mem_cons_self)
      have count : ((b :: rest).filter (·.endedAt = 0)).length =
          1 + (rest.filter (·.endedAt = 0)).length := by
        rw [List.filter_cons_of_pos (by simpa using unset), List.length_cons, Nat.add_comm]
      rw [count]
      cases result with
      | error st =>
        cases ran
        exact ⟨first.stopped (by omega) le_rfl fun stuck => stuck, grants⟩
      | ok u =>
        obtain ⟨second, same⟩ := ih (preserved_footing.reach footing moved) later (fun x member => by
          rw [boots]
          exact known x (List.mem_cons_of_mem b member)) ran
        exact ⟨first.andThen second (fun _ _ _ => trivial) (fun _ _ stuck => stuck),
          same.trans grants⟩
    · rw [List.filter_cons_of_neg (by simpa using unset)]
      rw [endBootRecord, if_neg unset] at ran
      exact ih footing later (fun x member => known x (List.mem_cons_of_mem b member)) ran

theorem enact_bootBegin_runs (boot : BootRecord) (s : RegistryState) (numbered : boot.boot ≠ 0)
    (incarnation : boot.incarnation ≠ 0) : ∃ s', (enact (.bootBegin boot)).exec s = (.ok ⟨⟩, s') := by
  rw [enact, Prog.exec_modify_bind, RegistryState.tolerate_exec, RegistryState.onLineage_exec]
  rcases began : (LineageTable.beginBoot boot).exec (RegistryState.raiseIncarnationCounter
    boot.incarnation { s with boot := boot }).lineage with ⟨r, lineage⟩
  cases r with
  | ok u => exact ⟨_, rfl⟩
  | error st => exact ⟨_, if_pos (LineageTable.beginBoot_outcome numbered incarnation began)⟩

theorem openBoot_ends {r : Except Status PUnit} (placed : w.state.config.node.isEmpty = false)
    (room : w.state.incarnationCounter ≠ maxWord) (ran : (openBoot now).exec w = (r, w')) :
    Ends (w.update RegistryState.bumpIncarnation) 1 0 True False r w' := by
  rw [openBoot, Prog.exec_get_bind, Prog.exec_refuseIf, if_neg room, Prog.exec_modify_bind,
    Prog.exec_get_bind] at ran
  have numbered : w.state.incarnationCounter + 1 ≠ 0 := succ_ne_zero room
  refine emit_ends ran (read_image (f := Entry.bootBegin) (reads_bootRecord placed)) fun record => ?_
  obtain ⟨s, begun⟩ := enact_bootBegin_runs ⟨_, _, _, _, _, _, _, _⟩ (RegistryState.observe record
    (w.update RegistryState.bumpIncarnation).state) numbered numbered
  refine ⟨s, begun, ?_⟩
  rw [RegistryState.enact_bootBegin begun]
  exact ⟨rfl, rfl, rfl, rfl, max_self _⟩

/-- A recovery needs a record for every boot it ends, three records and a token for every
open grant, room for a fence of each, and a record for the new boot. -/
theorem recoverAfterRestart_ok_iff (footing : Footing w.state)
    (placed : w.state.config.node.isEmpty = false)
    (room : w.state.incarnationCounter ≠ maxWord) :
    (∃ w', (recoverAfterRestart now).exec w = (.ok ⟨⟩, w')) ↔
      Affords w.state ((unended w.state).length + 3 * w.state.lineage.openGrants.length + 1)
        w.state.lineage.openGrants.length ∧
      ∀ g ∈ w.state.lineage.openGrants, Fits w.state g.extents := by
  rw [recoverAfterRestart, Prog.exec_get_bind, Prog.exec_bind, unended]
  rcases ended : (w.state.lineage.boots.forM (endBootRecord now)).exec w with ⟨result, w₁⟩
  obtain ⟨boots, grants⟩ := endBoots_ends footing footing.placed
    (fun b member => List.mem_map.mpr ⟨b, member, rfl⟩) ended
  have reached : Reach w w₁ :=
    (Prog.Ensures.forM (fun _ => Reach w) (fun record _ => endBootRecord_spec now w record)
      w.state.lineage.boots).either .refl ended
  have footing₁ := preserved_footing.reach footing reached
  have same : w₁.state.lineage.openGrants = w.state.lineage.openGrants := by
    rw [LineageTable.openGrants, grants, LineageTable.openGrants]
  cases boots with
  | short poor _ =>
    constructor
    · rintro ⟨_, ⟨⟩⟩
    · rintro ⟨affords, -⟩
      exact absurd (affords.le (by omega) (by omega)) poor
  | full stuck => exact stuck.elim
  | done affords _ advanced _ =>
    simp only [Prog.exec_bind, Prog.exec_get]
    rcases looped : (w₁.state.lineage.openGrants.forM (interruptGrant now)).exec w₁ with
      ⟨result, w₂⟩
    obtain ⟨loop, -⟩ := forM_ends (interruptGrant_retires now) footing₁
      (pending_openGrants footing₁.sound) looped
    have reached₂ : Reach w₁ w₂ := by
      have spec := Prog.Ensures.forM (fun rest v => Reach w₁ v ∧ Pending rest v.state.lineage)
        (interruptGrant_spec now w₁) w₁.state.lineage.openGrants w₁
        ⟨.refl, pending_openGrants footing₁.sound⟩
      rw [looped] at spec
      cases result with
      | ok u => exact spec.1
      | error st => exact spec
    have fitting : (∀ scope ∈ w₁.state.lineage.openGrants.map (·.extents), Fits w₁.state scope) ↔
        ∀ g ∈ w.state.lineage.openGrants, Fits w.state g.extents := by
      simp only [List.forall_mem_map, advanced.fits_iff, same]
    rw [same] at loop
    cases loop with
    | short poor _ =>
      constructor
      · rintro ⟨_, ⟨⟩⟩
      · rintro ⟨affords, -⟩
        refine absurd (advanced.affords.mpr (affords.le ?_ ?_)) poor
        · omega
        · omega
    | full stuck =>
      constructor
      · rintro ⟨_, ⟨⟩⟩
      · rintro ⟨-, fits⟩
        rw [← same] at stuck
        exact absurd (fitting.mpr fits) stuck.misfit
    | done _ fits advanced₂ _ =>
      have config : w₂.state.config = w.state.config :=
        (preserved_config w.state.config).reach rfl (reached.trans reached₂)
      have incarnations := (advanced.trans advanced₂).incarnations
      rcases opened : (openBoot now).exec w₂ with ⟨result, w₃⟩
      have last := (openBoot_ends (by rw [config]; exact placed) (by rw [incarnations]; exact room)
        opened).ok_iff (fun stuck => stuck.elim)
      have numbers : Affords (w₂.update RegistryState.bumpIncarnation).state 1 0 ↔
          Affords w.state ((w.state.lineage.boots.filter (·.endedAt = 0)).length +
            3 * w.state.lineage.openGrants.length + 1) w.state.lineage.openGrants.length := by
        have total : Affords w₂.state 1 0 ↔ _ := (advanced.trans advanced₂).affords
        rw [Nat.zero_add] at total
        refine Iff.trans ⟨?_, ?_⟩ total
        · exact fun affords => ⟨affords.records, affords.tokens⟩
        · exact fun affords => ⟨affords.records, affords.tokens⟩
      rw [same] at fitting
      simp only [opened]
      constructor
      · rintro ⟨w', done⟩
        cases done
        exact ⟨numbers.mp (last.mp ⟨_, rfl⟩).1, fitting.mp fits⟩
      · rintro ⟨affords, -⟩
        obtain ⟨u, rfl⟩ := last.mpr ⟨numbers.mpr affords, trivial⟩
        exact ⟨w₃, rfl⟩

end Recovery

section Answers

variable {w w' : Work} {now : Step} {g : EpochGrant} {ε β : Type}

/-- A fence and a close under the answers of a caller. -/
theorem surrender_ends {cause reason : Reason} {fenceIncarnation : Bool} {state : GrantState}
    {unfenced : Status → ε} {unclosed : FenceToken → Status → ε} {answer : FenceToken → β}
    {rest : List EpochGrant} {r : Except ε β} (ends : state ≠ .open) (footing : Footing w.state)
    (pending : Pending (g :: rest) w.state.lineage)
    (ran : (do
      let token ← Prog.mapError unfenced
        (fenceScope g.domain g.extents g.epoch g.incarnation g.id cause fenceIncarnation now)
      Prog.mapError (unclosed token) (closeGrant g state reason now)
      pure (answer token) : Prog ε Work β).exec w = (r, w')) :
    Ends w 2 1 (Fits w.state g.extents) (Affords w.state 1 1 ∧ ¬ Fits w.state g.extents) r w' ∧
      ∀ b, r = .ok b → Footing w'.state ∧ Pending rest w'.state.lineage := by
  obtain ⟨member, active⟩ := pending.open' g List.mem_cons_self
  rw [Prog.exec_bind, Prog.exec_mapError] at ran
  rcases fenced : (fenceScope g.domain g.extents g.epoch g.incarnation g.id cause fenceIncarnation
    now).exec w with ⟨result, w₁⟩
  rw [fenced] at ran
  have first := fenceScope_ends (footing.named g member) (footing.filled g member) footing.marked
    (footing.tabled g member) fenced
  obtain ⟨moved, lineage, -⟩ := fenceScope_spec fenced
  cases result with
  | error st =>
    cases ran
    exact ⟨first.stopped (by omega) le_rfl fun stuck => stuck, by rintro _ ⟨⟩⟩
  | ok token =>
    simp only [Except.mapError] at ran
    rw [Prog.exec_bind, Prog.exec_mapError] at ran
    rcases closed : (closeGrant g state reason now).exec w₁ with ⟨result, w₂⟩
    rw [closed] at ran
    have footing₁ := preserved_footing.reach footing moved
    rw [← lineage] at member pending
    have second := closeGrant_ends ends footing₁ member active closed
    obtain ⟨further, shut⟩ := closeGrant_spec footing₁.sound ends member active closed
    have both : Ends w 2 1 (Fits w.state g.extents) (Affords w.state 1 1 ∧
        ¬ Fits w.state g.extents) result w₂ :=
      first.andThen second (fun _ fits _ => fits) fun _ _ stuck => stuck.elim
    cases result with
    | error st =>
      cases ran
      exact ⟨both.stopped le_rfl le_rfl fun stuck => stuck, by rintro _ ⟨⟩⟩
    | ok u =>
      cases ran
      cases both with
      | done affords fit advanced same =>
        refine ⟨.done affords fit advanced same, fun _ _ => ?_⟩
        have tail : Pending rest (w₁.state.lineage.closed g.id state reason now) := pending.closed
        rw [← shut rfl] at tail
        exact ⟨preserved_footing.reach footing₁ further, tail⟩

theorem fenceGrant_retires (request : FenceRequest) (now : Step) :
    Retires 2 (fenceGrant request now) := by
  intro b w w' g rest r footing pending ran
  exact surrender_ends (by decide) footing pending ran

/-- A release of an open grant. -/
theorem release_ends {request : ReleaseRequest} {r : Except ReleaseResponse ReleaseResponse}
    (footing : Footing w.state) (found : w.state.lineage.find request.grant = some g)
    (active : g.isOpen = true) (ran : (release request now).exec w = (r, w')) :
    Ends w 2 1 (Fits w.state g.extents) (Affords w.state 1 1 ∧ ¬ Fits w.state g.extents) r w' := by
  have member := (LineageTable.find_some found).1
  have pending : Pending [g] w.state.lineage := by
    refine ⟨footing.sound, fun o inside => ?_, List.nodup_singleton _⟩
    rw [List.mem_singleton.mp inside]
    exact ⟨member, active⟩
  cases release_releases ran with
  | refused refusal idle => rw [idle g found] at active; cases active
  | held found' _ released =>
    obtain rfl := Option.some.inj (found.symm.trans found')
    exact (surrender_ends (by decide) footing pending released).1

/-- Any other release changes nothing. -/
theorem release_idle {request : ReleaseRequest} {r : Except ReleaseResponse ReleaseResponse}
    (idle : ∀ g, w.state.lineage.find request.grant = some g → g.isOpen = false)
    (ran : (release request now).exec w = (r, w')) : w' = w := by
  cases release_releases ran with
  | refused refusal fails => rfl
  | held found active released => rw [idle _ found] at active; cases active

/-- The fences of a request that names open grants. -/
theorem fence_ends {request : FenceRequest} {r : Except FenceResponse FenceResponse}
    (footing : Footing w.state) (names : Names w.state request.domain request.scope)
    (some' : w.state.lineage.openGrants.filter (fencedBy request) ≠ [])
    (ran : (fence request now).exec w = (r, w')) :
    Ends w (2 * (w.state.lineage.openGrants.filter (fencedBy request)).length)
      (w.state.lineage.openGrants.filter (fencedBy request)).length
      (∀ scope ∈ (w.state.lineage.openGrants.filter (fencedBy request)).map (·.extents),
        Fits w.state scope)
      (Blocked w.state 2 ((w.state.lineage.openGrants.filter (fencedBy request)).map (·.extents)))
      r w' := by
  have pending := (pending_openGrants footing.sound).sublist
    (List.filter_sublist (p := fencedBy request))
  cases fence_fences ran with
  | refused refusal fails => exact absurd names fails
  | alone names unmatched fenced => exact absurd unmatched some'
  | matched names some' looped =>
    rename_i result
    obtain ⟨loop, -⟩ := foldlM_ends (fenceGrant_retires request now) footing pending looped
    cases loop with
    | done affords fit advanced same => exact .done affords fit advanced same
    | short poor clean => exact .short poor clean
    | full stuck => exact .full stuck

theorem fence_alone_runs {request : FenceRequest} (footing : Footing w.state)
    (names : Names w.state request.domain request.scope)
    (none : w.state.lineage.openGrants.filter (fencedBy request) = [])
    (affords : Affords w.state 1 1) (fits : Fits w.state request.scope) :
    ∃ response, (fence request now).exec w = (.ok response, w.fenced request.domain request.scope
      request.epoch request.incarnation 0 (causeOr request.cause .extentFenced) true now) := by
  obtain ⟨tokens, sequences⟩ := affords_fence.mp affords
  have complete : ¬ (request.domain.isEmpty = true ∨ request.scope.isEmpty = true) := by
    simp [names.named, names.filled]
  have runs : (fenceScope request.domain request.scope request.epoch request.incarnation 0
      (causeOr request.cause .extentFenced) true now).exec w = _ :=
    fenceScope_runs names.named names.filled footing.marked tokens sequences fits
  rw [fence, Prog.exec_get_bind, Prog.exec_refuseIf, if_neg complete,
    Prog.exec_bind_ok (checkScope_runs names)]
  simp only [none, Prog.exec_bind, Prog.exec_mapError, runs]
  exact ⟨_, rfl⟩

/-- The fence of a request that names none. -/
theorem fence_alone {request : FenceRequest} {r : Except FenceResponse FenceResponse}
    (footing : Footing w.state) (names : Names w.state request.domain request.scope)
    (none : w.state.lineage.openGrants.filter (fencedBy request) = [])
    (ran : (fence request now).exec w = (r, w')) :
    ((∃ a, r = .ok a) ↔ Affords w.state 1 1 ∧ Fits w.state request.scope) ∧
      (¬ (Affords w.state 1 1 ∧ ¬ Fits w.state request.scope) → Clean w w') := by
  cases fence_fences ran with
  | refused refusal fails => exact absurd names fails
  | matched names some' looped => exact absurd none some'
  | alone names unmatched fenced =>
    rcases fenceScope_cases names.named names.filled footing.marked fenced with
      ⟨affords, fits, rfl, rfl⟩ | ⟨⟨st, rfl⟩, ending⟩
    · exact ⟨⟨fun _ => ⟨affords, fits⟩, fun _ => ⟨_, rfl⟩⟩, fun _ => clean_of_same rfl⟩
    · refine ⟨⟨by rintro ⟨_, ⟨⟩⟩, fun both => ?_⟩, fun free => ?_⟩
      · obtain ⟨affords, fits⟩ := both
        rcases ending with ⟨poor, -⟩ | ⟨-, full⟩
        · exact absurd affords poor
        · exact absurd fits full
      · rcases ending with ⟨-, clean⟩ | stuck
        · exact clean
        · exact absurd stuck free

/-- A fence that names no registered scope changes nothing. -/
theorem fence_idle {request : FenceRequest} {r : Except FenceResponse FenceResponse}
    (fails : ¬ Names w.state request.domain request.scope)
    (ran : (fence request now).exec w = (r, w')) : w' = w := by
  cases fence_fences ran with
  | refused refusal reason => rfl
  | alone names unmatched fenced => exact absurd names fails
  | matched names some' looped => exact absurd names fails

end Answers

section Opening

variable {w w' : Work} {now : Step} {g : EpochGrant} {request : AllocateEpochRequest}

/-- The registry after the adoption of a scope. -/
def adopting (w : Work) (g : EpochGrant) (now : Step) : Work :=
  let notice := w.nextRecord .extentAdopt (encodeFencePayload (adoptRecord g now) g.extents) .ok now
  w.kept notice
    { (RegistryState.raiseTokenCounter g.fenceToken (w.state.observe notice)).remember g.extents with
      fences := (w.state.fences.adopted g.extents g.fenceToken g.epoch g.incarnation g.id now) }

/-- The registry after the opening of a grant. -/
def opening (w : Work) (g : EpochGrant) (now : Step) : Work :=
  let notice := w.nextRecord .grantOpen (encodeGrant g) .ok now
  w.kept notice
    { RegistryState.raiseTokenCounter g.fenceToken
        (RegistryState.raiseGrantCounter g.id (w.state.observe notice)) with
      lineage := w.state.lineage.opened g }

theorem adopt_entry {status : Status} {entry : Entry} (read : (w.nextRecord .extentAdopt
    (encodeFencePayload (adoptRecord g now) g.extents) status now).entry = .ok entry) :
    entry = .extentAdopt (adoptRecord g now) g.extents :=
  read_back (f := fun p : FenceRecord × Scope => .extentAdopt p.1 p.2) (agrees_fencePayload _ _)
    read

theorem adopt_runs (footing : Footing w.state) (opens : Opens w.state g)
    (filled : g.extents.isEmpty = false) (incarnation : g.incarnation ≠ 0)
    (sequences : w.state.registrySequence ≠ maxWord) (fits : Fits w.state g.extents) :
    (emit .extentAdopt (encodeFencePayload (adoptRecord g now) g.extents) .ok now).exec w =
      (.ok ⟨⟩, w.adopting g now) := by
  have above : w.state.tokenCounter < g.fenceToken := by
    rw [opens.token]
    exact lt_succ opens.tokenRoom
  have ready : w.state.fences.Adoptable g.extents g.fenceToken g.incarnation := by
    refine ⟨filled, ?_, incarnation, fun e _ state found => ?_, fits⟩
    · rw [opens.token]
      exact succ_ne_zero opens.tokenRoom
    · have mark := footing.marked e
      rw [FenceTable.highWater, FenceTable.find, found] at mark
      have below := lt_of_le_of_lt mark above
      exact ⟨le_of_lt below, fun same => absurd same (ne_of_lt below)⟩
  have reads : Reads decodeFencePayload (encodeFencePayload (adoptRecord g now) g.extents)
      (adoptRecord g now, g.extents) := reads_fencePayload opens.named opens.digest
  have image : (w.nextRecord .extentAdopt (encodeFencePayload (adoptRecord g now) g.extents) .ok
      now).entry = .ok (.extentAdopt (adoptRecord g now) g.extents) :=
    read_image (f := fun p : FenceRecord × Scope => .extentAdopt p.1 p.2) reads
  exact emit_runs sequences image (RegistryState.enact_extentAdopt_exec ready)

/-- What a grant needs of the registry its scope has been adopted in. -/
theorem openGrant_runs (footing : Footing w.state) (numbered : w.state.grantCounter < g.id)
    (named : g.domain.isEmpty = false) (digest : g.scope = g.extents.digest)
    (counted : g.epoch ≠ 0) (incarnation : g.incarnation ≠ 0) (token : g.fenceToken ≠ 0)
    (isOpen : g.state = .open) (filled : g.extents.isEmpty = false)
    (monotone : w.state.lineage.maxEpoch g.domain ≤ g.epoch)
    (registered : ∃ known, w.state.domains.find g.domain = some known ∧ known.scope = g.extents)
    (free : ∀ o ∈ w.state.lineage.grants, o.isOpen = true → o.extents.overlaps g.extents = false)
    (sequences : w.state.registrySequence ≠ maxWord) :
    (emit .grantOpen (encodeGrant g) .ok now).exec w = (.ok ⟨⟩, w.opening g now) := by
  have ready : w.state.lineage.Openable g := by
    refine ⟨?_, named, counted, incarnation, token, isOpen, ?_, monotone, ?_, footing.room⟩
    · intro zero
      rw [zero] at numbered
      exact absurd numbered (not_lt.mpr UInt64.zero_le)
    · refine LineageTable.find_none.mpr fun o member same => ?_
      have below := footing.numbered o member
      rw [same] at below
      exact absurd numbered (not_lt.mpr below)
    · rw [LineageTable.openGrantFor, List.find?_eq_none]
      intro o member found
      simp only [Bool.and_eq_true, decide_eq_true_eq] at found
      obtain ⟨⟨active, domain⟩, -⟩ := found
      obtain ⟨known, here, scope⟩ := registered
      obtain ⟨known', here', scope'⟩ := footing.registered o member
      rw [domain, here] at here'
      cases here'
      have same : o.extents = g.extents := scope'.symm.trans scope
      have apart := free o member active
      rw [same, Scope.overlaps_self filled] at apart
      cases apart
  have image : (w.nextRecord .grantOpen (encodeGrant g) .ok now).entry = .ok (.grantOpen g) :=
    read_image (f := Entry.grantOpen) (reads_grant named digest)
  exact emit_runs sequences image
    (RegistryState.enact_grantOpen_exec footing.sound.bounded ready)

/-- There is a grant id and an epoch left for the domain. -/
def Numbered (s : RegistryState) (domain : DomainId) : Prop :=
  s.grantCounter ≠ maxWord ∧ s.lineage.maxEpoch domain + 1 ≠ 0

/-- With numbers for it, all that is left of a fresh grant are its two records. -/
theorem openFresh_exec (tokens : w.state.tokenCounter ≠ maxWord)
    (numbered : Numbered w.state request.domain) :
    (openFresh request now).exec w = (do
      emit .extentAdopt (encodeFencePayload (adoptRecord (w.freshGrant request now) now)
        request.scope) .ok now
      emit .grantOpen (encodeGrant (w.freshGrant request now)) .ok now
      pure (w.freshGrant request now) : Prog Status Work EpochGrant).exec w := by
  have room : ¬ (w.state.tokenCounter = maxWord ∨ w.state.grantCounter = maxWord) :=
    not_or.mpr ⟨tokens, numbered.1⟩
  rw [openFresh, Prog.exec_get_bind, Prog.exec_refuseIf, if_neg numbered.2, Prog.exec_refuseIf,
    if_neg room]

theorem freshGrant_opens (tokens : w.state.tokenCounter ≠ maxWord)
    (numbered : Numbered w.state request.domain) (names : Names w.state request.domain request.scope)
    (free : ∀ o ∈ w.state.lineage.grants, o.isOpen = true →
      o.extents.overlaps request.scope = false) : Opens w.state (w.freshGrant request now) :=
  ⟨tokens, numbered.1, rfl, rfl, rfl, numbered.2, rfl, rfl, names.named, names.registered, free⟩

/-- Behind its adoption a fresh grant can be opened. -/
theorem adopting_opens (footing : Footing w.state) (opens : Opens w.state g)
    (filled : g.extents.isEmpty = false) (incarnation : g.incarnation ≠ 0)
    (adopted : (emit .extentAdopt (encodeFencePayload (adoptRecord g now) g.extents) .ok now).exec w =
      (.ok ⟨⟩, w.adopting g now)) (last : (w.adopting g now).state.registrySequence ≠ maxWord) :
    (emit .grantOpen (encodeGrant g) .ok now).exec (w.adopting g now) =
      (.ok ⟨⟩, (w.adopting g now).opening g now) := by
  have footing₁ : Footing (w.adopting g now).state :=
    preserved_footing.move footing (adopt_spec opens adopted).1
  have numberedBelow : (w.adopting g now).state.grantCounter < g.id := by
    rw [opens.id]
    exact lt_succ opens.idRoom
  refine openGrant_runs footing₁ numberedBelow opens.named opens.digest opens.counted incarnation
    ?_ opens.isOpen filled ?_ opens.registered opens.free last
  · rw [opens.token]
    exact succ_ne_zero opens.tokenRoom
  · have next := opens.epoch
    have below : w.state.lineage.maxEpoch g.domain ≤ g.epoch := by
      rw [next]
      exact le_of_lt (lt_succ fun top => opens.counted (by rw [next, top]; rfl))
    exact below

/-- A full table refuses the adoption. -/
theorem adopt_misfit {r : Except Status PUnit} (full : ¬ Fits w.state g.extents)
    (ran : (emit .extentAdopt (encodeFencePayload (adoptRecord g now) g.extents) .ok now).exec w =
      (r, w')) : ∃ st, r = .error st := by
  cases r with
  | error st => exact ⟨st, rfl⟩
  | ok u =>
    obtain ⟨entry, s, read, enacted, -⟩ := emit_ok ran
    rw [adopt_entry read] at enacted
    rcases RegistryState.enact_extentAdopt enacted with ⟨-, ready, -⟩ | ⟨⟨st, failed⟩, -⟩
    · exact absurd ready.room full
    · cases failed

/-- Two sequence numbers are left when the next one is not the last. -/
theorem affords_two (tokens : w.state.tokenCounter ≠ maxWord)
    (sequences : w.state.registrySequence ≠ maxWord) :
    Affords w.state 2 1 ↔ w.state.registrySequence + 1 ≠ maxWord := by
  have one := toNat_succ sequences
  have top : maxWord.toNat = 18446744073709551615 := rfl
  constructor
  · intro room last
    have two := room.records
    rw [last] at one
    omega
  · intro last
    have two : (w.state.registrySequence + 1 + 1).toNat = (w.state.registrySequence + 1).toNat + 1 :=
      toNat_succ last
    have bound := (w.state.registrySequence + 1 + 1).toNat_lt
    constructor
    · omega
    · exact (affords_fence.mpr ⟨tokens, sequences⟩).tokens

/-- A fresh grant is opened, a number is missing, or the table is full. -/
theorem openFresh_cases {r : Except Status EpochGrant} (footing : Footing w.state)
    (names : Names w.state request.domain request.scope) (incarnation : request.incarnation ≠ 0)
    (free : ∀ o ∈ w.state.lineage.grants, o.isOpen = true →
      o.extents.overlaps request.scope = false)
    (ran : (openFresh request now).exec w = (r, w')) :
    (Affords w.state 2 1 ∧ Numbered w.state request.domain ∧ Fits w.state request.scope ∧
        r = .ok (w.freshGrant request now) ∧
        w' = (w.adopting (w.freshGrant request now) now).opening (w.freshGrant request now) now) ∨
      (∃ st, r = .error st) ∧
        (¬ (Affords w.state 2 1 ∧ Numbered w.state request.domain) ∧ Clean w w' ∨
          Affords w.state 1 1 ∧ Numbered w.state request.domain ∧ ¬ Fits w.state request.scope) := by
  by_cases numbers : w.state.tokenCounter ≠ maxWord ∧ Numbered w.state request.domain
  case neg =>
    have poor : ¬ (Affords w.state 2 1 ∧ Numbered w.state request.domain) := fun room =>
      numbers ⟨(affords_fence.mp (room.1.le (by omega) le_rfl)).1, room.2⟩
    rw [openFresh, Prog.exec_get_bind, Prog.exec_refuseIf] at ran
    split at ran
    · cases ran
      exact .inr ⟨⟨_, rfl⟩, .inl ⟨poor, Clean.refl w⟩⟩
    rename_i epochs
    rw [Prog.exec_refuseIf] at ran
    split at ran
    · cases ran
      exact .inr ⟨⟨_, rfl⟩, .inl ⟨poor, Clean.refl w⟩⟩
    rename_i room
    exact absurd ⟨(not_or.mp room).1, (not_or.mp room).2, epochs⟩ numbers
  obtain ⟨tokens, numbered⟩ := numbers
  have opens : Opens w.state (w.freshGrant request now) :=
    freshGrant_opens tokens numbered names free
  have shape : (w.freshGrant request now).extents = request.scope := rfl
  have filled : (w.freshGrant request now).extents.isEmpty = false := names.filled
  have owner : (w.freshGrant request now).incarnation ≠ 0 := incarnation
  rw [openFresh_exec tokens numbered, ← shape, Prog.exec_bind] at ran
  rw [← shape]
  generalize w.freshGrant request now = g at opens ran filled owner ⊢
  by_cases sequences : w.state.registrySequence = maxWord
  · rw [emit_full sequences] at ran
    cases ran
    refine .inr ⟨⟨_, rfl⟩, .inl ⟨fun room => ?_, ?_⟩⟩
    · exact (affords_fence.mp (room.1.le (by omega) le_rfl)).2 sequences
    · exact clean_of_full sequences (emit_full sequences)
  by_cases fits : Fits w.state g.extents
  · have adopted : (emit .extentAdopt (encodeFencePayload (adoptRecord g now) g.extents) .ok
        now).exec w = (.ok ⟨⟩, w.adopting g now) :=
      adopt_runs footing opens filled owner sequences fits
    rw [adopted] at ran
    simp only [Prog.exec_bind] at ran
    by_cases last : (w.adopting g now).state.registrySequence = maxWord
    · rw [emit_full last] at ran
      cases ran
      refine .inr ⟨⟨_, rfl⟩, .inl ⟨fun room => ?_, ?_⟩⟩
      · exact (affords_two tokens sequences).mp room.1 last
      · have first : Clean w (w.adopting g now) := clean_of_same rfl
        exact first.trans (clean_of_full last (emit_full last))
    · rw [adopting_opens footing opens filled owner adopted last] at ran
      cases ran
      exact .inl ⟨(affords_two tokens sequences).mpr last, numbered, fits, rfl, rfl⟩
  · rcases adopted : (emit .extentAdopt (encodeFencePayload (adoptRecord g now) g.extents) .ok
      now).exec w with ⟨result, w₁⟩
    obtain ⟨st, rfl⟩ := adopt_misfit fits adopted
    rw [adopted] at ran
    cases ran
    exact .inr ⟨⟨_, rfl⟩, .inr ⟨affords_fence.mpr ⟨tokens, sequences⟩, numbered, fits⟩⟩

/-- The first allocation of a registry. -/
theorem allocateEpoch_runs (footing : Footing w.state) (admissible : Admissible w.state request)
    (boot : request.boot ≠ 0) (none : w.state.lineage.grants = [])
    (affords : Affords w.state 2 1) (numbered : Numbered w.state request.domain)
    (fits : Fits w.state request.scope) :
    ∃ response, (allocateEpoch request now).exec w = (.ok response,
      (w.adopting (w.freshGrant request now) now).opening (w.freshGrant request now) now) := by
  have names : Names w.state request.domain request.scope :=
    ⟨admissible.named, admissible.filled, admissible.registered⟩
  have attempt : w.repeatedAttempt request = .none := by
    rw [repeatedAttempt, none]
    rfl
  have idle : w.state.lineage.openGrants = [] := by
    rw [LineageTable.openGrants, none]
    rfl
  rcases opened : (openFresh request now).exec w with ⟨r, w'⟩
  rcases openFresh_cases footing names admissible.incarnation (by simp [none]) opened with
    ⟨-, -, -, rfl, rfl⟩ | ⟨-, ⟨poor, -⟩ | ⟨-, -, full⟩⟩
  · rw [allocateEpoch, Prog.exec_get_bind, Prog.exec_bind_ok (admitAllocation_runs admissible boot)]
    simp only [attempt, idle]
    rw [Prog.exec_bind, Prog.exec_mapError]
    simp only [Prog.exec_forM_nil, Except.mapError]
    rw [Prog.exec_bind, Prog.exec_mapError, opened]
    exact ⟨_, rfl⟩
  · exact absurd ⟨affords, numbered⟩ poor
  · exact absurd fits full

/-- The fence and the close that a superseded grant gets. -/
def displace (request : AllocateEpochRequest) (now : Step) (g : EpochGrant) :
    Prog Status Work PUnit := do
  let _ ← fenceScope g.domain g.extents g.epoch g.incarnation g.id .compensatingFenceRequired
    (Decidable.decide (g.incarnation ≠ request.incarnation)) now
  closeGrant g .fenced .compensatingFenceRequired now

theorem displace_retires (request : AllocateEpochRequest) (now : Step) :
    Retires 2 fun _ => displace request now := by
  intro _ w w' g rest r footing pending ran
  obtain ⟨ends, after⟩ := retire_ends (by decide) footing pending ran
  exact ⟨ends, fun _ ok => after ok⟩

/-- The open grants an allocation gives up first. -/
def overlapped (s : RegistryState) (request : AllocateEpochRequest) : List EpochGrant :=
  s.lineage.openGrants.filter fun g => g.extents.overlaps request.scope

theorem supersede_forM (request : AllocateEpochRequest) (now : Step) (l : List EpochGrant) :
    l.forM (supersede request now) =
      (l.filter fun g => g.extents.overlaps request.scope).forM (displace request now) := by
  induction l with
  | nil => rfl
  | cons g rest ih =>
    rw [Prog.forM_cons, ih]
    by_cases overlaps : g.extents.overlaps request.scope = true
    · rw [List.filter_cons, if_pos overlaps, Prog.forM_cons, supersede, if_pos overlaps]
      rfl
    · rw [List.filter_cons, if_neg overlaps, supersede, if_neg overlaps]
      rfl

/-- Giving grants up leaves every epoch as it was. -/
theorem displace_epochs (request : AllocateEpochRequest) (now : Step) (domain : DomainId)
    (epoch : Epoch) (l : List EpochGrant) {r : Except Status PUnit}
    (pending : Pending l w.state.lineage) (same : w.state.lineage.maxEpoch domain = epoch)
    (ran : (l.forM (displace request now)).exec w = (r, w')) (ok : r = .ok ⟨⟩) :
    w'.state.lineage.maxEpoch domain = epoch := by
  induction l generalizing w with
  | nil => cases ran; exact same
  | cons g rest ih =>
    subst ok
    rw [Prog.forM_cons] at ran
    obtain ⟨_, w₁, first, ran⟩ := Prog.bind_ok ran
    obtain ⟨-, closed⟩ := retire_spec (by decide) pending first
    have lineage := closed rfl
    refine ih ?_ ?_ ran
    · rw [lineage]
      exact pending.closed
    · rw [lineage, LineageTable.maxEpoch_closed]
      exact same

/-- An allocation that comes to a full table while there are still numbers for it: at a
grant it gives up, or at the scope it adopts. -/
def Starved (s : RegistryState) (request : AllocateEpochRequest) : Prop :=
  Blocked s 2 ((overlapped s request).map (·.extents)) ∨
    Affords s (2 * (overlapped s request).length + 1) ((overlapped s request).length + 1) ∧
      Numbered s request.domain ∧ ¬ Fits s request.scope

/-- A fresh allocation needs two records and a token for every grant it gives up and for its
own, an id and an epoch, and room in the table for all of their scopes. -/
theorem allocateEpoch_cases {r : Except AllocateEpochResponse AllocateEpochResponse}
    (footing : Footing w.state) (admissible : Admissible w.state request) (boot : request.boot ≠ 0)
    (fresh : w.repeatedAttempt request = none)
    (ran : (allocateEpoch request now).exec w = (r, w')) :
    ((∃ a, r = .ok a) ∧ Clean w w' ∧ Affords w.state (2 * (overlapped w.state request).length + 2)
        ((overlapped w.state request).length + 1) ∧ Numbered w.state request.domain ∧
        (∀ scope ∈ (overlapped w.state request).map (·.extents), Fits w.state scope) ∧
        Fits w.state request.scope) ∨
      (∃ e, r = .error e) ∧ (¬ (Affords w.state (2 * (overlapped w.state request).length + 2)
          ((overlapped w.state request).length + 1) ∧ Numbered w.state request.domain) ∧
          Clean w w' ∨ Starved w.state request) := by
  have loop : ∀ {r w₁}, (w.state.lineage.openGrants.forM (supersede request now)).exec w = (r, w₁) →
      Ends w (2 * (overlapped w.state request).length) (overlapped w.state request).length
          (∀ scope ∈ (overlapped w.state request).map (·.extents), Fits w.state scope)
          (Blocked w.state 2 ((overlapped w.state request).map (·.extents))) r w₁ ∧
        (r = .ok ⟨⟩ → Footing w₁.state ∧
          w₁.state.lineage.maxEpoch request.domain = w.state.lineage.maxEpoch request.domain) := by
    intro r w₁ looped
    rw [supersede_forM] at looped
    have pending : Pending (overlapped w.state request) w.state.lineage :=
      (pending_openGrants footing.sound).sublist List.filter_sublist
    obtain ⟨ends, after⟩ := forM_ends (displace_retires request now) footing pending looped
    refine ⟨ends, ?_⟩
    rintro rfl
    exact ⟨after rfl, displace_epochs request now request.domain _ _ pending rfl looped rfl⟩
  cases allocateEpoch_allocates ran with
  | refused refusal fails => exact absurd ⟨admissible, boot⟩ fails
  | repeated _ _ found => rw [fresh] at found; cases found
  | stuck _ _ _ looped =>
    obtain ⟨ends, -⟩ := loop looped
    cases ends with
    | short poor clean =>
      refine .inr ⟨⟨_, rfl⟩, .inl ⟨fun room => poor ?_, clean⟩⟩
      exact room.1.le (by omega) (by omega)
    | full stuck => exact .inr ⟨⟨_, rfl⟩, .inr (.inl stuck)⟩
  | cleared admissible boot fresh looped opened =>
    rename_i result w₁
    obtain ⟨ends, after⟩ := loop looped
    obtain ⟨footing₁, epochs⟩ := after rfl
    obtain ⟨reached, free⟩ := supersede_clears footing.sound looped
    cases ends with
    | done _ fits advanced same =>
      have numbered : Numbered w₁.state request.domain ↔ Numbered w.state request.domain := by
        rw [Numbered, Numbered, advanced.grants, epochs]
      rcases openFresh_cases footing₁ (admissible.names reached) admissible.incarnation free opened
        with ⟨affords, counted, fit, rfl, rfl⟩ |
          ⟨⟨st, rfl⟩, ⟨poor, clean⟩ | ⟨affords, counted, full⟩⟩
      · exact .inl ⟨⟨_, rfl⟩, clean_of_same same, advanced.affords.mp affords,
          numbered.mp counted, fits, (advanced.fits_iff _).mp fit⟩
      · refine .inr ⟨⟨_, rfl⟩, .inl ⟨fun room => poor ?_, (clean_of_same same).trans clean⟩⟩
        exact ⟨advanced.affords.mpr room.1, numbered.mpr room.2⟩
      · refine .inr ⟨⟨_, rfl⟩, .inr (.inr ⟨advanced.affords.mp affords, numbered.mp counted, ?_⟩)⟩
        exact fun fit => full ((advanced.fits_iff _).mpr fit)

theorem allocateEpoch_ok_iff {r : Except AllocateEpochResponse AllocateEpochResponse}
    (footing : Footing w.state) (admissible : Admissible w.state request) (boot : request.boot ≠ 0)
    (fresh : w.repeatedAttempt request = none)
    (ran : (allocateEpoch request now).exec w = (r, w')) :
    (∃ a, r = .ok a) ↔ Affords w.state (2 * (overlapped w.state request).length + 2)
        ((overlapped w.state request).length + 1) ∧ Numbered w.state request.domain ∧
      (∀ scope ∈ (overlapped w.state request).map (·.extents), Fits w.state scope) ∧
      Fits w.state request.scope := by
  rcases allocateEpoch_cases footing admissible boot fresh ran with
    ⟨done, -, room⟩ | ⟨⟨e, rfl⟩, ⟨poor, -⟩ | stuck | ⟨-, -, full⟩⟩
  · exact ⟨fun _ => room, fun _ => done⟩
  · constructor
    · rintro ⟨_, ⟨⟩⟩
    · rintro ⟨affords, numbered, -⟩
      exact absurd ⟨affords, numbered⟩ poor
  · constructor
    · rintro ⟨_, ⟨⟩⟩
    · rintro ⟨-, -, fits, -⟩
      exact absurd fits stuck.misfit
  · constructor
    · rintro ⟨_, ⟨⟩⟩
    · rintro ⟨-, -, -, fit⟩
      exact absurd fit full

theorem allocateEpoch_clean {r : Except AllocateEpochResponse AllocateEpochResponse}
    (footing : Footing w.state)
    (fed : Admissible w.state request → w.repeatedAttempt request = none →
      ¬ Starved w.state request)
    (ran : (allocateEpoch request now).exec w = (r, w')) : Clean w w' := by
  have fresh : Admissible w.state request → request.boot ≠ 0 →
      w.repeatedAttempt request = none → Clean w w' := by
    intro admissible boot missed
    rcases allocateEpoch_cases footing admissible boot missed ran with
      ⟨-, clean, -⟩ | ⟨-, ⟨-, clean⟩ | starved⟩
    · exact clean
    · exact clean
    · exact absurd starved (fed admissible missed)
  cases allocateEpoch_allocates ran with
  | refused refusal fails => exact Clean.refl w
  | repeated admissible boot found => exact clean_of_same rfl
  | stuck admissible boot missed looped => exact fresh admissible boot missed
  | cleared admissible boot missed looped opened => exact fresh admissible boot missed

end Opening

section Requests

variable {w w' : Work} {now : Step}

theorem emit_clean_of {kind : RecordKind} {payload : Bytes} {status : Status} {entry : Entry}
    {r : Except Status PUnit} (ran : (emit kind payload status now).exec w = (r, w'))
    (read : (w.nextRecord kind payload status now).entry = .ok entry)
    (enacts : ∀ record, ∃ s, (enact entry).exec (w.state.observe record) = (.ok ⟨⟩, s)) :
    Clean w w' := by
  refine emit_clean (fun room => ?_) ran
  obtain ⟨s, enacted⟩ := enacts (w.nextRecord kind payload status now)
  exact ⟨s, emit_runs room read enacted⟩

theorem enact_incarnationAllocate_runs {s : RegistryState} {value : UInt64}
    (above : s.incarnationCounter < value) : (enact (.incarnationAllocate value)).exec s =
      (.ok ⟨⟩, { s with incarnationCounter := value }) := by
  rw [enact, Prog.exec_get_bind, Prog.exec_refuseIf, if_neg (not_le.mpr above)]
  rfl

theorem enact_domainDefine_runs {s : RegistryState} {d : DomainDefinition}
    (free : s.domains.find d.domain = none) (room : ¬ Limits.maxDomains ≤ s.domains.size) :
    (enact (.domainDefine d)).exec s = (.ok ⟨⟩,
      RegistryState.remember d.scope { s with domains := s.domains.put d }) := by
  rw [enact, RegistryState.enactDomain, Prog.exec_get_bind, free]
  simp only [Prog.exec_refuseIf]
  rw [if_neg room]
  rfl

/-- The registry after an incarnation was handed out. -/
def numbering (w : Work) (now : Step) : Work :=
  let notice := w.nextRecord .incarnationAllocate (Writer.u64 (w.state.incarnationCounter + 1)) .ok
    now
  w.kept notice
    { w.state.observe notice with incarnationCounter := w.state.incarnationCounter + 1 }

theorem allocateIncarnation_runs (room : w.state.incarnationCounter ≠ maxWord)
    (sequences : w.state.registrySequence ≠ maxWord) :
    (allocateIncarnation now).exec w = (.ok (w.state.incarnationCounter + 1), w.numbering now) := by
  have image : (w.nextRecord .incarnationAllocate (Writer.u64 (w.state.incarnationCounter + 1)) .ok
      now).entry = .ok (.incarnationAllocate (w.state.incarnationCounter + 1)) :=
    read_image (f := Entry.incarnationAllocate) (reads_u64 _)
  have runs := emit_runs sequences image (enact_incarnationAllocate_runs (lt_succ room))
  rw [allocateIncarnation, Prog.exec_get_bind, Prog.exec_refuseIf, if_neg room]
  exact (Prog.exec_bind_ok runs).trans rfl

/-- The registry after a domain was defined. -/
def defining (w : Work) (d : DomainDefinition) (now : Step) : Work :=
  let notice := w.nextRecord .domainDefine (encodeDomain d) .ok now
  w.kept notice (RegistryState.remember d.scope
    { w.state.observe notice with domains := w.state.domains.put d })

theorem defineDomain_runs {d : DomainDefinition} (definable : Definable w.state d)
    (governed : d.policy.isEmpty = false) (sequences : w.state.registrySequence ≠ maxWord) :
    (defineDomain d now).exec w = (.ok ⟨⟩, w.defining d now) := by
  have image : (w.nextRecord .domainDefine (encodeDomain d) .ok now).entry =
      .ok (.domainDefine d) :=
    read_image (f := Entry.domainDefine) (reads_domain definable.named definable.placed governed)
  have free : ∀ record, (w.state.observe record).domains.find d.domain = none :=
    fun _ => definable.free
  rw [defineDomain_exec definable]
  exact emit_runs sequences image (enact_domainDefine_runs (free _) definable.room)

theorem allocateIncarnation_clean {r : Except Status IncarnationId}
    (ran : (allocateIncarnation now).exec w = (r, w')) : Clean w w' := by
  rw [allocateIncarnation, Prog.exec_get_bind, Prog.exec_refuseIf] at ran
  by_cases full : w.state.incarnationCounter = maxWord
  · rw [if_pos full] at ran
    cases ran
    exact Clean.refl w
  rw [if_neg full, Prog.exec_bind] at ran
  rcases emitted : (emit .incarnationAllocate (Writer.u64 (w.state.incarnationCounter + 1)) .ok
    now).exec w with ⟨result, w₁⟩
  have clean : Clean w w₁ := by
    refine emit_clean_of emitted (read_image (f := Entry.incarnationAllocate) (reads_u64 _))
      fun record => ?_
    have above : (w.state.observe record).incarnationCounter < w.state.incarnationCounter + 1 :=
      lt_succ full
    exact ⟨_, enact_incarnationAllocate_runs above⟩
  rw [emitted] at ran
  cases result with
  | error st => cases ran; exact clean
  | ok u => cases ran; exact clean

/-- A definition is refused late only for want of a policy. -/
theorem defineDomain_clean {d : DomainDefinition} {r : Except Status PUnit}
    (governed : d.policy.isEmpty = false) (ran : (defineDomain d now).exec w = (r, w')) :
    Clean w w' := by
  by_cases definable : Definable w.state d
  · rw [defineDomain_exec definable] at ran
    refine emit_clean_of ran (read_image (f := Entry.domainDefine)
      (reads_domain definable.named definable.placed governed)) fun record => ?_
    have free : (w.state.observe record).domains.find d.domain = none := definable.free
    exact ⟨_, enact_domainDefine_runs free definable.room⟩
  · rw [defineDomain_idle definable ran]
    exact Clean.refl w

theorem release_clean {request : ReleaseRequest} {r : Except ReleaseResponse ReleaseResponse}
    (footing : Footing w.state)
    (fed : ∀ g, w.state.lineage.find request.grant = some g → g.isOpen = true →
      ¬ Blocked w.state 2 [g.extents])
    (ran : (release request now).exec w = (r, w')) : Clean w w' := by
  by_cases held : ∃ g, w.state.lineage.find request.grant = some g ∧ g.isOpen = true
  · obtain ⟨g, found, active⟩ := held
    exact (release_ends footing found active ran).clean
      fun stuck => fed g found active (Blocked.one.mpr stuck)
  · rw [release_idle (fun g found => ?_) ran]
    · exact Clean.refl w
    · cases active : g.isOpen with
      | false => rfl
      | true => exact absurd ⟨g, found, active⟩ held

/-- The scopes a fence request raises: those of the grants it names, or its own. -/
def raised (s : RegistryState) (request : FenceRequest) : List Scope :=
  match s.lineage.openGrants.filter (fencedBy request) with
  | [] => [request.scope]
  | named => named.map (·.extents)

theorem fence_clean {request : FenceRequest} {r : Except FenceResponse FenceResponse}
    (footing : Footing w.state)
    (fed : Names w.state request.domain request.scope →
      ¬ Blocked w.state 2 (raised w.state request))
    (ran : (fence request now).exec w = (r, w')) : Clean w w' := by
  by_cases names : Names w.state request.domain request.scope
  · have free := fed names
    cases matched : w.state.lineage.openGrants.filter (fencedBy request) with
    | nil =>
      simp only [raised, matched, Blocked.one] at free
      exact (fence_alone footing names matched ran).2 free
    | cons g rest =>
      have ends := fence_ends footing names (by rw [matched]; exact List.cons_ne_nil g rest) ran
      rw [matched] at ends
      simp only [raised, matched] at free
      exact ends.clean free
  · rw [fence_idle names ran]
    exact Clean.refl w

end Requests

end Work
end SplitBrainFabric
