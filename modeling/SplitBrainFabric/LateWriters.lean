import SplitBrainFabric.AuditRuns
import SplitBrainFabric.EffectRuns
import SplitBrainFabric.Issuance

/-! What a raised mark stops. A commit looks at its grant and not at the marks, so a mark
raised over the head of an open grant does not stop that grant; only a fence that matches no
grant does that. -/

namespace SplitBrainFabric
open Words

namespace RegistryState

open LineageTable (mem_openGrants)
open Work (Affords Fits Names)

variable {s s' : RegistryState} {named : EpochGrant → Bool} {l : List EpochGrant}

/-- No open grant is below the mark of one of its extents. A registry that has run out of
sequence numbers is excepted: it writes nothing any more. -/
def Abreast (s : RegistryState) : Prop :=
  s.registrySequence = maxWord ∨ ∀ o ∈ s.lineage.grants, o.isOpen = true →
    ∀ e ∈ o.extents.extents, s.fences.highWater e ≤ o.fenceToken

/-- A fence of a registered scope that no open grant answers to, over one that overlaps it. -/
structure Crosses (s : RegistryState) (request : FenceRequest) : Prop where
  names : Names s request.domain request.scope
  unmatched : s.lineage.openGrants.filter (Work.fencedBy request) = []
  affords : Affords s 1 1
  fits : Fits s request.scope
  overlapped : ∃ o ∈ s.lineage.openGrants, o.extents.overlaps request.scope = true

theorem Abreast.congr (abreast : Abreast s) (grants : s'.lineage.grants = s.lineage.grants)
    (fences : s'.fences = s.fences)
    (full : s.registrySequence = maxWord → s'.registrySequence = maxWord) : Abreast s' := by
  rcases abreast with stopped | level
  · exact .inl (full stopped)
  · rw [Abreast, grants, fences]
    exact .inr level

theorem Abreast.of_closed (closed : ∀ o ∈ s.lineage.grants, o.isOpen = false) : Abreast s := by
  refine .inr fun o member active => ?_
  rw [closed o member] at active
  cases active

theorem Abreast.givenUp (abreast : Abreast s) (footing : Footing s)
    (held : ∀ g ∈ l, g ∈ s.lineage.grants ∧ g.isOpen = true) (given : GivenUp named l s s')
    (full : s.registrySequence = maxWord → s'.registrySequence = maxWord) : Abreast s' := by
  rcases abreast with stopped | level
  · exact .inl (full stopped)
  refine .inr fun o member active e inside => ?_
  obtain ⟨old, other⟩ := given.opens o member active
  rcases given.marks e with same | ⟨g, here, shared⟩
  · rw [same]
    exact level o old active e inside
  · obtain ⟨left, active'⟩ := held g here
    have same := footing.same_of_shared left old active' active shared inside
    exact absurd (congrArg EpochGrant.id same) (other g here)

theorem Abreast.adopts {scope : Scope} (abreast : Abreast s) (adopts : Adopts scope s s')
    (free : ∀ o ∈ s.lineage.grants, o.isOpen = true → o.extents.overlaps scope = false)
    (full : s.registrySequence = maxWord → s'.registrySequence = maxWord) : Abreast s' := by
  rcases abreast with stopped | level
  · exact .inl (full stopped)
  refine .inr fun o member active e inside => ?_
  rw [adopts.grants] at member
  rw [adopts.marks e (Scope.outside_of_apart (free o member active) inside)]
  exact level o member active e inside

end RegistryState

namespace Work

open RegistryState (Footing Abreast Crosses Adopts)

variable {w w₁ w₂ w' : Work} {now : Step} {g : EpochGrant}

/-- The last sequence number is never left. -/
theorem preserved_stopped : Preserved fun s => s.registrySequence = maxWord := by
  have stays : ∀ {s s' : RegistryState} {record : JournalRecord} {r : Except Status PUnit},
      s.registrySequence = maxWord → record.sequence = s.registrySequence + 1 →
      (RegistryState.apply record).exec s = (r, s') → s' = s := by
    intro s s' record r stopped next ran
    have unset : record.sequence = 0 := by
      rw [next, stopped]
      exact succ_maxWord
    rcases RegistryState.apply_cases ran with ⟨same, -⟩ | ⟨set, -⟩
    · exact same
    · exact absurd unset set
  constructor
  · exact fun _ _ _ _ stopped => stopped
  · exact fun _ stopped => stopped
  · intro s record r s' stopped next _ ran
    rw [stays stopped next ran]
    exact stopped
  · intro s record r s' stopped _ next _ ran
    have same := @stays (RegistryState.bumpIncarnation s) s' record r stopped next ran
    rw [same]
    exact stopped
  · intro s g adopt s₁ record r s₂ stopped adoption stopped' next _ ran
    have same := @stays (RegistryState.bumpGeneration s₁) s₂ record r stopped' next ran
    rw [same]
    exact stopped'

theorem Reach.stopped (reached : Reach w w') (stopped : w.state.registrySequence = maxWord) :
    w'.state.registrySequence = maxWord := preserved_stopped.reach stopped reached

/-- A single record that is refused was one too many. -/
theorem Ends.stopped_of_error {ε α : Type} {e : ε}
    (ends : Ends w 1 0 True False (.error e : Except ε α) w') :
    w.state.registrySequence = maxWord := by
  cases ends with
  | short poor _ =>
    by_contra room
    exact poor (affords_one.mpr room)
  | full stuck => exact stuck.elim

theorem unfenced_abreast {domain : DomainId} {scope : Scope} {epoch : Epoch}
    {incarnation : IncarnationId} {superseded : GrantId} {cause : Reason} {fenceIncarnation : Bool}
    {st : Status} (footing : Footing w.state) (abreast : Abreast w.state)
    (fenced : (fenceScope domain scope epoch incarnation superseded cause fenceIncarnation now).exec
      w = (.error st, w')) : Abreast w'.state := by
  have none : GivenUp (fun _ => true) [] w.state w'.state :=
    fenceScope_refused footing.marked fenced
  exact abreast.givenUp footing (by simp) none (fenceScope_spec fenced).1.stopped

/-- Between the fence of a grant and its close the grant is behind; if the close is refused,
nothing is written any more. -/
theorem closed_abreast {cause reason : Reason} {fenceIncarnation : Bool} {state : GrantState}
    {token : FenceToken} {r : Except Status PUnit} (footing : Footing w.state)
    (abreast : Abreast w.state) (member : g ∈ w.state.lineage.grants) (active : g.isOpen = true)
    (ends : state ≠ .open)
    (fenced : (fenceScope g.domain g.extents g.epoch g.incarnation g.id cause fenceIncarnation
      now).exec w = (.ok token, w₁)) (moved : Reach w₁ w₂)
    (lineage : w₂.state.lineage = w₁.state.lineage) (fences : w₂.state.fences = w₁.state.fences)
    (closed : (closeGrant g state reason now).exec w₂ = (r, w')) : Abreast w'.state := by
  obtain ⟨first, before, -⟩ := fenceScope_spec fenced
  have footing₂ := preserved_footing.reach footing (first.trans moved)
  have here : g ∈ w₂.state.lineage.grants := by
    rw [lineage, before]
    exact member
  have further := (closeGrant_spec footing₂.sound ends here active closed).1
  cases r with
  | error st =>
    exact .inl (further.stopped (closeGrant_ends ends footing₂ here active closed).stopped_of_error)
  | ok u =>
    have given : GivenUp (fun _ => true) [g] w.state w'.state :=
      givenUp_of_parts footing member active ends (fun _ => rfl) fenced lineage fences closed
    refine abreast.givenUp footing (fun o inside => ?_) given
      (Reach.stopped ((first.trans moved).trans further))
    rw [List.mem_singleton.mp inside]
    exact ⟨member, active⟩

/-- A turn of a loop that gives up open grants, however it ends. -/
def Steady {ε β : Type} (turn : β → EpochGrant → Prog ε Work β) : Prop :=
  ∀ (b : β) (w w' : Work) (g : EpochGrant) (r : Except ε β), Footing w.state → Abreast w.state →
    g ∈ w.state.lineage.grants → g.isOpen = true → (turn b g).exec w = (r, w') → Abreast w'.state

theorem foldlM_abreast {ε β : Type} {per : Nat} {turn : β → EpochGrant → Prog ε Work β}
    (steady : Steady turn) (retires : Retires per turn) {l : List EpochGrant} {b : β}
    {r : Except ε β} (footing : Footing w.state) (pending : Pending l w.state.lineage)
    (abreast : Abreast w.state) (ran : (l.foldlM turn b).exec w = (r, w')) : Abreast w'.state := by
  induction l generalizing w b with
  | nil =>
    cases ran
    exact abreast
  | cons g rest ih =>
    rw [Prog.foldlM_cons, Prog.exec_bind] at ran
    obtain ⟨member, active⟩ := pending.open' g List.mem_cons_self
    rcases turned : (turn b g).exec w with ⟨result, w₁⟩
    have after := steady b w w₁ g result footing abreast member active turned
    rw [turned] at ran
    cases result with
    | error e =>
      cases ran
      exact after
    | ok b₁ =>
      obtain ⟨footing₁, pending₁⟩ := (retires b w w₁ g rest _ footing pending turned).2 b₁ rfl
      exact ih footing₁ pending₁ after ran

/-- A fence and a close under the answers of a caller. -/
theorem surrender_abreast {ε β : Type} {cause reason : Reason} {state : GrantState}
    {unfenced : Status → ε} {unclosed : FenceToken → Status → ε} {answer : FenceToken → β}
    {r : Except ε β} (ends : state ≠ .open) (footing : Footing w.state) (abreast : Abreast w.state)
    (member : g ∈ w.state.lineage.grants) (active : g.isOpen = true)
    (ran : (do
      let token ← Prog.mapError unfenced
        (fenceScope g.domain g.extents g.epoch g.incarnation g.id cause true now)
      Prog.mapError (unclosed token) (closeGrant g state reason now)
      pure (answer token) : Prog ε Work β).exec w = (r, w')) : Abreast w'.state := by
  rw [Prog.exec_bind, Prog.exec_mapError] at ran
  rcases fenced : (fenceScope g.domain g.extents g.epoch g.incarnation g.id cause true now).exec w
    with ⟨result, w₁⟩
  rw [fenced] at ran
  cases result with
  | error st =>
    cases ran
    exact unfenced_abreast footing abreast fenced
  | ok token =>
    simp only [Except.mapError] at ran
    rw [Prog.exec_bind, Prog.exec_mapError] at ran
    rcases closed : (closeGrant g state reason now).exec w₁ with ⟨result, w₂⟩
    have after := closed_abreast footing abreast member active ends fenced .refl rfl rfl closed
    rw [closed] at ran
    cases result with
    | error st => cases ran; exact after
    | ok u => cases ran; exact after

theorem displace_steady (request : AllocateEpochRequest) (now : Step) :
    Steady fun (_ : PUnit) => displace request now := by
  intro _ w w' g r footing abreast member active ran
  have ran : (displace request now g).exec w = (r, w') := ran
  rw [displace, Prog.exec_bind] at ran
  rcases fenced : (fenceScope g.domain g.extents g.epoch g.incarnation g.id
    .compensatingFenceRequired (Decidable.decide (g.incarnation ≠ request.incarnation)) now).exec w
    with ⟨result, w₁⟩
  rw [fenced] at ran
  cases result with
  | error st =>
    cases ran
    exact unfenced_abreast footing abreast fenced
  | ok token =>
    exact closed_abreast footing abreast member active (by decide) fenced .refl rfl rfl ran

theorem fenceGrant_steady (request : FenceRequest) (now : Step) :
    Steady (fenceGrant request now) := fun _ _ _ _ _ footing abreast member active ran =>
  surrender_abreast (by decide) footing abreast member active ran

theorem interruptGrant_steady (now : Step) : Steady fun (_ : PUnit) => interruptGrant now := by
  intro _ w w' g r footing abreast member active ran
  have ran : (interruptGrant now g).exec w = (r, w') := ran
  cases interruptGrant_interrupts ran with
  | unfenced refusal fenced => exact unfenced_abreast footing abreast fenced
  | unmarked refusal fenced marked =>
    have stopped := (markInterrupted_written (footing.named g member) marked).stopped_of_error
    exact .inl ((markInterrupted_spec marked).1.reach.stopped stopped)
  | unclosed refusal fenced marked ended =>
    obtain ⟨move, lineage, fences⟩ := markInterrupted_spec marked
    exact closed_abreast footing abreast member active (by decide) fenced move.reach lineage
      (fences rfl) ended
  | closed fenced marked ended =>
    obtain ⟨move, lineage, fences⟩ := markInterrupted_spec marked
    have after := closed_abreast footing abreast member active (by decide) fenced move.reach lineage
      (fences rfl) ended
    exact after.congr rfl rfl id

theorem release_abreast {request : ReleaseRequest} (footing : Footing w.state)
    (abreast : Abreast w.state) : Abreast ((release request now).exec w).2.state := by
  rcases ran : (release request now).exec w with ⟨r, w'⟩
  cases release_releases ran with
  | refused refusal idle => exact abreast
  | held found active released =>
    exact surrender_abreast (by decide) footing abreast (LineageTable.find_some found).1 active
      released

/-- A fence that matches no grant is harmless to those it does not overlap. -/
theorem fence_abreast {request : FenceRequest} (footing : Footing w.state)
    (abreast : Abreast w.state) (clear : ¬ Crosses w.state request) :
    Abreast ((fence request now).exec w).2.state := by
  rcases ran : (fence request now).exec w with ⟨r, w'⟩
  cases fence_fences ran with
  | refused refusal fails => exact abreast
  | alone names unmatched fenced =>
    have moved := (fenceScope_spec fenced).1
    rcases fenceScope_cases names.named names.filled footing.marked fenced with
      ⟨affords, fits, rfl, rfl⟩ | ⟨⟨st, rfl⟩, -⟩
    · rcases abreast with stopped | level
      · exact .inl (moved.stopped stopped)
      refine .inr fun o member active e inside => ?_
      have member : o ∈ w.state.lineage.grants := member
      have apart : o.extents.overlaps request.scope = false := by
        by_contra meets
        rw [Bool.not_eq_false] at meets
        exact clear ⟨names, unmatched, affords, fits, o,
          LineageTable.mem_openGrants.mpr ⟨member, active⟩, meets⟩
      have outside := Scope.outside_of_apart apart inside
      have marks : (w.fenced request.domain request.scope request.epoch request.incarnation 0
          (causeOr request.cause .extentFenced) true now).state.fences.highWater e =
          w.state.fences.highWater e :=
        (FenceTable.applied_highWater e).trans (if_neg outside)
      rw [marks]
      exact level o member active e inside
    · exact unfenced_abreast footing abreast fenced
  | matched names some' looped =>
    have pending := (pending_openGrants footing.sound).sublist
      (List.filter_sublist (p := fencedBy request))
    exact foldlM_abreast (fenceGrant_steady request now) (fenceGrant_retires request now) footing
      pending abreast looped

/-- And it leaves every open grant that it does overlap behind. -/
theorem fence_crosses {request : FenceRequest} (footing : Footing w.state)
    (level : ∀ o ∈ w.state.lineage.grants, o.fenceToken ≤ w.state.tokenCounter)
    (crosses : Crosses w.state request) :
    ∃ o ∈ ((fence request now).exec w).2.state.lineage.grants, o.isOpen = true ∧
      ∃ e ∈ o.extents.extents,
        o.fenceToken < ((fence request now).exec w).2.state.fences.highWater e := by
  obtain ⟨response, runs⟩ : ∃ response, (fence request now).exec w = (.ok response, _) :=
    fence_alone_runs footing crosses.names crosses.unmatched crosses.affords crosses.fits
  obtain ⟨o, listed, meets⟩ := crosses.overlapped
  obtain ⟨member, active⟩ := LineageTable.mem_openGrants.mp listed
  obtain ⟨e, inside, shared⟩ := (Scope.overlaps_iff _ _).mp meets
  rw [runs]
  refine ⟨o, member, active, e, inside, ?_⟩
  have mark : (w.fenced request.domain request.scope request.epoch request.incarnation 0
      (causeOr request.cause .extentFenced) true now).state.fences.highWater e =
      w.state.tokenCounter + 1 := (FenceTable.applied_highWater e).trans (if_pos shared)
  rw [mark]
  exact lt_of_le_of_lt (level o member) (lt_succ (affords_fence.mp crosses.affords).1)

section Opening

variable {request : AllocateEpochRequest}

theorem openFresh_abreast {r : Except Status EpochGrant} (footing : Footing w.state)
    (abreast : Abreast w.state) (names : Names w.state request.domain request.scope)
    (incarnation : request.incarnation ≠ 0)
    (free : ∀ o ∈ w.state.lineage.grants, o.isOpen = true →
      o.extents.overlaps request.scope = false)
    (ran : (openFresh request now).exec w = (r, w')) : Abreast w'.state := by
  have moved := (openFresh_spec names.named names.registered free ran).1
  rcases openFresh_cases footing names incarnation free ran with
    ⟨-, -, -, -, rfl⟩ | ⟨⟨st, rfl⟩, -⟩
  · rcases abreast with stopped | level
    · exact .inl (moved.stopped stopped)
    refine .inr fun o member active e inside => ?_
    rw [opening_highWater]
    rcases opening_grants member with old | rfl
    · rw [if_neg (Scope.outside_of_apart (free o old active) inside)]
      exact level o old active e inside
    · rw [if_pos (show e ∈ request.scope.extents from inside)]
      exact le_rfl
  · exact abreast.adopts (openFresh_adopts footing.sound ran) free moved.stopped

theorem allocateEpoch_abreast (footing : Footing w.state) (abreast : Abreast w.state) :
    Abreast ((allocateEpoch request now).exec w).2.state := by
  rcases ran : (allocateEpoch request now).exec w with ⟨r, w'⟩
  have cleared : ∀ {r w₁}, (w.state.lineage.openGrants.forM (supersede request now)).exec w =
      (r, w₁) → Abreast w₁.state := by
    intro r w₁ looped
    rw [supersede_forM, Prog.forM_eq_foldlM] at looped
    have pending := (pending_openGrants footing.sound).sublist
      (List.filter_sublist (p := fun g => g.extents.overlaps request.scope))
    exact foldlM_abreast (displace_steady request now) (displace_retires request now) footing
      pending abreast looped
  cases allocateEpoch_allocates ran with
  | refused refusal fails => exact abreast
  | repeated admissible boot found => exact abreast.congr rfl rfl id
  | stuck admissible boot fresh looped => exact cleared looped
  | cleared admissible boot fresh looped opened =>
    obtain ⟨reached, free⟩ := supersede_clears footing.sound looped
    exact openFresh_abreast (preserved_footing.reach footing reached) (cleared looped)
      (admissible.names reached) admissible.incarnation free opened

end Opening

/-- A boot record is of no consequence to grants and marks. -/
theorem boot_aside {kind : RecordKind} {payload : Bytes} {status : Status}
    {r : Except Status PUnit} (boots : kind = .bootBegin ∨ kind = .bootEnd)
    (ran : (emit kind payload status now).exec w = (r, w')) :
    w'.state.lineage.grants = w.state.lineage.grants ∧ w'.state.fences = w.state.fences := by
  have entries : ∀ {entry}, (w.nextRecord kind payload status now).entry = .ok entry →
      ∃ boot, entry = .bootBegin boot ∨ entry = .bootEnd boot := by
    intro entry read
    have made : ∀ {f : BootRecord → Entry}, (Reader.decode decodeBootRecord payload).map f =
        .ok entry → ∃ boot, entry = f boot := by
      intro f read
      cases decoded : Reader.decode decodeBootRecord payload with
      | ok boot => rw [decoded] at read; cases read; exact ⟨boot, rfl⟩
      | error st => rw [decoded] at read; cases read
    rcases boots with rfl | rfl
    · obtain ⟨boot, same⟩ := made (f := .bootBegin) read
      exact ⟨boot, .inl same⟩
    · obtain ⟨boot, same⟩ := made (f := .bootEnd) read
      exact ⟨boot, .inr same⟩
  have applied : ∀ {s r}, (RegistryState.apply (w.nextRecord kind payload status now)).exec w.state =
      (r, s) → s.lineage.grants = w.state.lineage.grants ∧ s.fences = w.state.fences := by
    intro s r applied
    rcases RegistryState.apply_cases applied with ⟨rfl, -⟩ | ⟨-, -, ⟨_, -, -, rfl⟩ |
      ⟨entry, read, enacted⟩⟩
    · exact ⟨rfl, rfl⟩
    · exact ⟨rfl, rfl⟩
    · obtain ⟨boot, rfl | rfl⟩ := entries read
      · rw [RegistryState.enact_bootBegin enacted]
        exact ⟨LineageTable.beginBoot_grants _ _, rfl⟩
      · rw [RegistryState.enact_bootEnd enacted]
        exact ⟨LineageTable.endBoot_grants _ _ _ _, rfl⟩
  rcases emit_cases ran with ⟨s, -, rfl, accepted⟩ | ⟨st, s, -, rfl, refused⟩
  · obtain ⟨grants, fences⟩ := applied accepted
    exact ⟨grants, fences⟩
  · exact applied refused

theorem recoverAfterRestart_abreast (footing : Footing w.state) (abreast : Abreast w.state) :
    Abreast ((recoverAfterRestart now).exec w).2.state := by
  rcases ran : (recoverAfterRestart now).exec w with ⟨r, w'⟩
  have ending : ∀ record, (endBootRecord now record).Keeps fun v => Reach w v ∧
      v.state.lineage.grants = w.state.lineage.grants ∧ v.state.fences = w.state.fences := by
    refine fun record => .of_run fun v r v' before ran => ?_
    obtain ⟨reached, grants, fences⟩ := before
    have further := (endBootRecord_spec now v record).either .refl ran
    refine ⟨reached.trans further, ?_⟩
    rw [endBootRecord] at ran
    split at ran
    · obtain ⟨grants', fences'⟩ := boot_aside (.inr rfl) ran
      exact ⟨grants'.trans grants, fences'.trans fences⟩
    · cases ran
      exact ⟨grants, fences⟩
  rw [recoverAfterRestart, Prog.exec_get_bind, Prog.exec_bind] at ran
  rcases ended : (w.state.lineage.boots.forM (endBootRecord now)).exec w with ⟨result, w₁⟩
  obtain ⟨reached, grants, fences⟩ :=
    (Prog.Keeps.forM ending w.state.lineage.boots).run ⟨.refl, rfl, rfl⟩ ended
  have abreast₁ : Abreast w₁.state := abreast.congr grants fences reached.stopped
  have footing₁ := preserved_footing.reach footing reached
  rw [ended] at ran
  cases result with
  | error st =>
    cases ran
    exact abreast₁
  | ok u =>
    simp only [Prog.exec_bind, Prog.exec_get] at ran
    rcases looped : (w₁.state.lineage.openGrants.forM (interruptGrant now)).exec w₁ with
      ⟨result, w₂⟩
    have loop := looped
    rw [Prog.forM_eq_foldlM] at loop
    have abreast₂ := foldlM_abreast (interruptGrant_steady now) (interruptGrant_retires now) footing₁
      (pending_openGrants footing₁.sound) abreast₁ loop
    rw [looped] at ran
    cases result with
    | error st =>
      cases ran
      exact abreast₂
    | ok u =>
      simp only [openBoot, Prog.exec_get_bind, Prog.exec_refuseIf] at ran
      split at ran
      · cases ran
        exact abreast₂
      · rw [Prog.exec_modify_bind, Prog.exec_get_bind] at ran
        obtain ⟨grants', fences'⟩ := boot_aside (.inl rfl) ran
        refine abreast₂.congr grants' fences' fun stopped => ?_
        have full : (w₂.update RegistryState.bumpIncarnation).state.registrySequence = maxWord :=
          stopped
        have ran : (emit .bootBegin _ _ now).exec (w₂.update RegistryState.bumpIncarnation) =
          (r, w') := ran
        rw [emit_full full] at ran
        cases ran
        exact stopped

end Work

namespace RegistryState

variable {s s' : RegistryState} {r : Except Status PUnit} {entry : Entry}

theorem enact_tokenCounter (ran : (enact entry).exec s = (r, s')) :
    s'.tokenCounter = s.tokenCounter ∨ s'.tokenCounter = max s.tokenCounter entry.token := by
  cases enact_touched ran with
  | grantOpen _ _ | fence _ _ _ | extentAdopt _ _ _ => exact .inr rfl
  | _ => exact .inl rfl

end RegistryState

/-- Some record of the log is about a token that is no lower. -/
def Logged (t : FenceToken) (log : List JournalRecord) : Prop :=
  t = 0 ∨ ∃ r ∈ log, t ≤ r.said.token

theorem Logged.append {t : FenceToken} {log log' : List JournalRecord} (logged : Logged t log)
    (grows : log <+: log') : Logged t log' :=
  logged.imp id fun ⟨r, member, below⟩ => ⟨r, grows.subset member, below⟩

theorem tablesOf_logged (log : List JournalRecord) :
    (∀ e, (tablesOf log).fences.highWater e ≤ (tablesOf log).tokenCounter) ∧
      Logged (tablesOf log).tokenCounter log := by
  induction log using List.reverseRecOn with
  | nil => exact ⟨fun _ => le_rfl, .inl rfl⟩
  | append_singleton log record ih =>
    obtain ⟨marked, logged⟩ := ih
    rw [tablesOf_append]
    rcases ran : (RegistryState.enact record.said).exec (tablesOf log) with ⟨r, t⟩
    refine ⟨RegistryState.enact_marked marked ran, ?_⟩
    rcases RegistryState.enact_tokenCounter ran with same | raised
    · rw [same]
      exact logged.append (List.prefix_append _ _)
    · rw [raised]
      rcases max_choice (tablesOf log).tokenCounter record.said.token with left | right
      · rw [left]
        exact logged.append (List.prefix_append _ _)
      · rw [right]
        exact .inr ⟨record, by simp, le_rfl⟩

/-- Every mark is in the log, or above it. -/
theorem Tracks.mark_logged {s : RegistryState} {log : List JournalRecord} (tracks : Tracks s log)
    (e : ExtentId) : Logged (s.fences.highWater e) log := by
  obtain ⟨marked, logged⟩ := tablesOf_logged log
  have same : s.fences.highWater e = (tablesOf log).fences.highWater e := by
    simp only [FenceTable.highWater, FenceTable.find, tracks.mirrors.marks]
  rw [same]
  rcases logged with none | ⟨r, member, below⟩
  · left
    have low := marked e
    rw [none] at low
    exact UInt64.le_zero_iff.mp low
  · exact .inr ⟨r, member, (marked e).trans below⟩

theorem Logged.le_counter {t : FenceToken} {s : RegistryState} {log : List JournalRecord}
    (logged : Logged t log) (tracks : Tracks s log) : t ≤ s.tokenCounter := by
  rcases logged with rfl | ⟨r, member, below⟩
  · exact UInt64.zero_le
  · exact below.trans (tracks.tokens r member)

/-- No open grant on the extent is below the token. -/
def RegistryState.Floored (t : FenceToken) (e : ExtentId) (s : RegistryState) : Prop :=
  s.registrySequence = maxWord ∨
    ∀ o ∈ s.lineage.grants, o.isOpen = true → e ∈ o.extents.extents → t ≤ o.fenceToken

theorem Turnover.floored {s : RegistryState} {grants opens grants' opens' : List EpochGrant}
    {t : FenceToken} {e : ExtentId} (turnover : Turnover s grants opens grants' opens')
    (low : t ≤ s.tokenCounter)
    (level : ∀ o ∈ grants, o.isOpen = true → e ∈ o.extents.extents → t ≤ o.fenceToken) :
    ∀ o ∈ grants', o.isOpen = true → e ∈ o.extents.extents → t ≤ o.fenceToken := by
  cases turnover with
  | none => exact level
  | closed g =>
    rcases Entry.grants_close grants g with same | ⟨ends, same⟩
    · rwa [same]
    · rw [same]
      intro o member active
      rcases mem_updateFirst member with old | ⟨y, _, _, shut⟩
      · exact level o old active
      · rw [shut] at active
        exact absurd (EpochGrant.isOpen_iff.mp active) ends
  | opened fresh ready =>
    intro o member active inside
    rcases List.mem_append.mp member with old | last
    · exact level o ((LineageTable.roomFor_sublist grants).subset old) active inside
    · rw [List.mem_singleton.mp last, fresh.token]
      exact low.trans (le_of_lt (lt_succ fresh.tokenRoom))

theorem Work.Reach.floored {log : List JournalRecord} {w w' : Work} {t : FenceToken} {e : ExtentId}
    (tracks : Tracks w.state (log ++ w.emitted)) (low : t ≤ w.state.tokenCounter)
    (floored : w.state.Floored t e) (reached : Work.Reach w w') : w'.state.Floored t e := by
  rcases floored with stopped | level
  · exact .inl (reached.stopped stopped)
  right
  induction reached with
  | refl => exact level
  | tail before move ih =>
    have tracks₁ := tracks.reach before
    have later := tracks₁.move move
    rw [later.grants]
    rw [tracks₁.grants] at ih
    exact (tracks₁.turnover move).floored (low.trans (Work.Reach.counters before).1) ih

namespace Work

/-- A commit that goes through speaks for an open grant, and there was a number left. -/
theorem commit_held {w w' : Work} {request : CommitRequest} {now : Step} {io : AppendIo}
    {response : CommitResponse} (ran : (commit request now io).exec w = (.ok response, w')) :
    w.state.registrySequence ≠ maxWord ∧ ∃ g, Holds w.state request g := by
  generalize answered : (Except.ok response : Except CommitResponse CommitResponse) = r at ran
  cases commit_mutates ran with
  | refused refusal fails => cases answered
  | barred names worded holds admitted => cases answered
  | written names worded holds admitted emitted =>
    rename_i g record fabric result
    refine ⟨fun stopped => ?_, g, holds⟩
    have full : (w.update fun s => { s with fabric := fabric }).state.registrySequence = maxWord :=
      stopped
    rw [emit_full full] at emitted
    cases emitted
    cases answered

end Work

namespace History

open RegistryState (Footing Abreast Crosses Floored)

variable {h h' : History}

/-- Everything but a bare restart is taken as it comes, a fence unless it crosses a grant. -/
def Uncrossed (h : History) : Event → Prop
  | .call (.fence request) _ => ¬ Crosses h.live request
  | .restart _ => False
  | _ => True

/-- One event of a registry in service, or its next open. -/
inductive Onward (h : History) : History → Prop
  | turn {h' : History} (turn : Turn Uncrossed h h') : Onward h h'
  | reopen {files : Restart} {point : Option Nat} {w : Work}
      (opened : h.reopened files point = (.ok ⟨⟩, w)) : Onward h (h.resumed files w)

/-- Any number of events and opens from a fresh registry. -/
def Watched (h : History) : Prop :=
  ∃ config clock boot fabric h₀, start config clock boot fabric = some h₀ ∧
    Relation.ReflTransGen Onward h₀ h

theorem Onward.run (onward : Onward h h') : Run h h' := by
  cases onward with
  | turn turn =>
    obtain ⟨event, -, stepped⟩ := turn
    exact .single ⟨event, trivial, stepped⟩
  | reopen opened =>
    obtain ⟨h₁, turns, -, last⟩ := reopened_parts opened
    exact turns.tail ⟨.call .recoverAfterRestart h₁.live.clock, trivial, congrArg some last⟩

theorem Watched.reachable (watched : Watched h) : Reachable (fun _ _ => True) h := by
  obtain ⟨config, clock, boot, fabric, h₀, begun, run⟩ := watched
  have first : Reachable (fun _ _ => True) h₀ := ⟨config, clock, boot, fabric, h₀, begun, .refl⟩
  induction run with
  | refl => exact first
  | tail _ last reached => exact reached.turns last.run

theorem reopened_closed {files : Restart} {point : Option Nat} {w : Work}
    (reached : Reachable (fun _ _ => True) h) (opened : h.reopened files point = (.ok ⟨⟩, w)) :
    ∀ o ∈ w.state.lineage.grants, o.isOpen = false := by
  obtain ⟨h₁, turns, recovered, -⟩ := reopened_parts opened
  have footing : Footing h₁.work.state := (reached.turns turns).footing
  exact Work.recoverAfterRestart_closes footing recovered

theorem called_abreast {op : Op} {now : Step} (reached : Reachable (fun _ _ => True) h)
    (abreast : Abreast h.live) (uncrossed : Uncrossed h (.call op now)) :
    Abreast (h.called op now).live := by
  have footing : Footing h.work.state := reached.footing
  have moved : Work.Reach h.work (op.after now h.work) := Op.reach footing.sound now op
  have aside : (∀ kind ∈ op.kinds, kind ∈ Work.asideKinds) → Abreast (h.called op now).live := by
    intro kinds
    obtain ⟨lineage, fences⟩ := Work.after_aside_same h.work now kinds
    exact abreast.congr (congrArg LineageTable.grants lineage) fences moved.stopped
  cases op with
  | release request => exact Work.release_abreast footing abreast
  | fence request => exact Work.fence_abreast footing abreast uncrossed
  | allocateEpoch request => exact Work.allocateEpoch_abreast footing abreast
  | recoverAfterRestart => exact Work.recoverAfterRestart_abreast footing abreast
  | defineDomain d => exact aside (by simp [Op.kinds, Work.asideKinds])
  | definePolicy p => exact aside (by simp [Op.kinds, Work.asideKinds])
  | allocateIncarnation => exact aside (by simp [Op.kinds, Work.asideKinds])
  | decide request sorting => exact aside (by simp [Op.kinds, Work.asideKinds])
  | commit request io => exact aside (by simp [Op.kinds, Work.asideKinds])

theorem Onward.abreast (reached : Reachable (fun _ _ => True) h) (abreast : Abreast h.live)
    (onward : Onward h h') : Abreast h'.live := by
  cases onward with
  | turn turn =>
    obtain ⟨event, uncrossed, stepped⟩ := turn
    cases step_cases stepped with
    | called op now => exact called_abreast reached abreast uncrossed
    | saved => exact abreast
    | reloaded files s ran => exact uncrossed.elim
    | rebuilt s fills =>
      rcases fills with rfl | rfl
      · exact abreast
      · exact abreast.congr rfl rfl id
    | ticked room => exact abreast.congr rfl rfl id
  | reopen opened => exact .of_closed (reopened_closed reached opened)

theorem Watched.abreast (watched : Watched h) : Abreast h.live := by
  obtain ⟨config, clock, boot, fabric, h₀, begun, run⟩ := watched
  induction run with
  | refl => exact .of_closed (by simp [start_ungranted begun])
  | tail before last abreast =>
    exact last.abreast (Watched.reachable ⟨config, clock, boot, fabric, h₀, begun, before⟩) abreast

/-- Whatever is called later, a token that was reached stays the floor. -/
theorem Onward.floored {t : FenceToken} {e : ExtentId} (reached : Reachable (fun _ _ => True) h)
    (logged : Logged t h.log) (floored : h.live.Floored t e) (onward : Onward h h') :
    h'.live.Floored t e := by
  have kept : Kept (fun _ => True) h := reached.kept trivial fun _ _ _ _ _ _ => trivial
  cases onward with
  | turn turn =>
    obtain ⟨event, uncrossed, stepped⟩ := turn
    cases step_cases stepped with
    | called op now =>
      have tracks : Tracks h.work.state (h.log ++ h.work.emitted) := kept.emits .refl
      exact (Op.reach (w := h.work) kept.tracks.sound now op).floored tracks
        (logged.le_counter kept.tracks) floored
    | saved => exact floored
    | reloaded files s ran => exact uncrossed.elim
    | rebuilt s fills =>
      rcases fills with rfl | rfl
      · exact floored
      · exact floored
    | ticked room => exact floored
  | reopen opened =>
    refine .inr fun o member active => ?_
    rw [reopened_closed reached opened o member] at active
    cases active

/-- As long as no fence crosses an open grant, a commit that goes through is at the mark of
each of its extents, and at every mark that any of them ever had. -/
theorem fence_stops_lower (h : History) (watched : Watched h) :
    (∀ request now io response w, (Work.commit request now io).exec h.work = (.ok response, w) →
      ∀ e ∈ request.scope.extents, h.live.fences.highWater e ≤ request.fenceToken) ∧
    ∀ h', Relation.ReflTransGen Onward h h' → ∀ e t, t ≤ h.live.fences.highWater e →
      ∀ request now io response w, (Work.commit request now io).exec h'.work = (.ok response, w) →
        e ∈ request.scope.extents → t ≤ request.fenceToken := by
  have later : ∀ h', Relation.ReflTransGen Onward h h' → ∀ e t, t ≤ h.live.fences.highWater e →
      ∀ request now io response w, (Work.commit request now io).exec h'.work = (.ok response, w) →
        e ∈ request.scope.extents → t ≤ request.fenceToken := by
    intro h' run e t low request now io response w ran inside
    have kept : Kept (fun _ => True) h :=
      watched.reachable.kept trivial fun _ _ _ _ _ _ => trivial
    have logged : Logged t h.log := by
      rcases kept.tracks.mark_logged e with none | ⟨r, member, below⟩
      · rw [none] at low
        exact .inl (UInt64.le_zero_iff.mp low)
      · exact .inr ⟨r, member, low.trans below⟩
    have both : Reachable (fun _ _ => True) h' ∧ Logged t h'.log ∧ h'.live.Floored t e := by
      clear ran
      induction run with
      | refl =>
        refine ⟨watched.reachable, logged, ?_⟩
        exact watched.abreast.imp id fun level o member active inside =>
          low.trans (level o member active e inside)
      | tail _ last ih =>
        obtain ⟨reached, logged, floored⟩ := ih
        exact ⟨reached.turns last.run, logged.append (Run.log_grows last.run),
          last.floored reached logged floored⟩
    obtain ⟨room, g, holds⟩ := Work.commit_held ran
    rcases both.2.2 with stopped | level
    · exact absurd stopped room
    · have member := (LineageTable.find_some holds.found).1
      have above := level g member holds.active (holds.extents ▸ inside)
      rwa [holds.token] at above
  exact ⟨fun request now io response w ran e inside =>
    later h .refl e _ le_rfl request now io response w ran inside, later⟩

section Samples

/-- A fence is taken when it has a grant to fence. -/
def matched (h : History) : Event → Bool
  | .call (.fence request) _ => !(h.live.lineage.openGrants.filter (Work.fencedBy request)).isEmpty
  | .call _ _ => true
  | _ => false

theorem matched_uncrossed (h : History) (event : Event) (checked : matched h event = true) :
    Uncrossed h event := by
  cases event with
  | checkpoint | restart _ | rebuild | tick => cases checked
  | call op now =>
    cases op with
    | fence request =>
      intro crosses
      simp only [matched, crosses.unmatched, List.isEmpty_nil, Bool.not_true] at checked
      cases checked
    | _ => trivial

/-- A commit of the first domain. -/
def firstCommit (incarnation : IncarnationId) (epoch : Epoch) (grant : GrantId)
    (token : FenceToken) : CommitRequest where
  domain := Id.make [100]
  scope := sampleScope 120
  epoch := epoch
  incarnation := incarnation
  grant := grant
  fenceToken := token
  operation := [111]

def sampleFence (name : UInt8) : FenceRequest where
  domain := Id.make [name]
  scope := sampleScope 120

def servedStart : Option History := start sampleConfig 0 { node := Id.make [110] } sampleFabric

/-- A grant is fenced, and the next one writes above its mark. -/
theorem fence_stops_lower_regranted : ∃ h response w, Watched h ∧
    (Work.commit (firstCommit 2 2 2 3) 8 .done).exec h.work = (.ok response, w) ∧
    ∀ e ∈ (sampleScope 120).extents, h.live.fences.highWater e ≤ 3 := by
  have evaluated : (servedStart.bind (guarded matched · [
      .call (.defineDomain (sampleDomain 100 120)) 1, .call .allocateIncarnation 2,
      .call .allocateIncarnation 3, .call (.allocateEpoch (sampleAllocation 100 120 1 1)) 4,
      .call (.fence (sampleFence 100)) 5,
      .call (.allocateEpoch (sampleAllocation 100 120 2 1)) 6])).map
      (fun h => ((Work.commit (firstCommit 2 2 2 3) 8 .done).exec h.work).1.isOk) = some true := by
    decide +kernel
  obtain ⟨h, ran, written⟩ := Option.map_eq_some_iff.mp evaluated
  obtain ⟨h₀, begun, ran⟩ := Option.bind_eq_some_iff.mp ran
  have watched : Watched h := ⟨_, _, _, _, h₀, begun,
    Relation.ReflTransGen.mono (fun _ _ => Onward.turn) _ _ (guarded_turns matched_uncrossed ran)⟩
  rcases committed : (Work.commit (firstCommit 2 2 2 3) 8 .done).exec h.work with ⟨r, w⟩
  rw [committed] at written
  cases r with
  | error refusal => cases written
  | ok response =>
    exact ⟨h, response, w, watched, committed,
      (fence_stops_lower h watched).1 _ 8 .done response w committed⟩

/-- Two domains on one extent: a fence of the one leaves the grant of the other writing under
its mark. -/
theorem fence_stops_nothing : ¬ ∀ h,
    Reachable (fun _ event => ∃ op now, event = .call op now) h →
    ∀ request now io response w, (Work.commit request now io).exec h.work = (.ok response, w) →
      ∀ e ∈ request.scope.extents, h.live.fences.highWater e ≤ request.fenceToken := by
  intro claim
  have evaluated : (servedStart.bind (guarded (fun _ event => isCall event) · [
      .call (.defineDomain (sampleDomain 100 120)) 1,
      .call (.defineDomain (sampleDomain 101 120)) 2, .call .allocateIncarnation 3,
      .call (.allocateEpoch (sampleAllocation 100 120 1 1)) 4,
      .call (.fence (sampleFence 101)) 5])).map (fun h =>
        ((Work.commit (firstCommit 1 1 1 1) 6 .done).exec h.work).1.isOk &&
          (sampleScope 120).extents.any fun e => decide (1 < h.live.fences.highWater e)) =
      some true := by
    decide +kernel
  obtain ⟨h, ran, written⟩ := Option.map_eq_some_iff.mp evaluated
  obtain ⟨h₀, begun, ran⟩ := Option.bind_eq_some_iff.mp ran
  have reached : Reachable (fun _ event => ∃ op now, event = .call op now) h := by
    refine ⟨_, _, _, _, h₀, begun, guarded_turns (fun _ event checked => ?_) ran⟩
    cases event with
    | call op now => exact ⟨op, now, rfl⟩
    | checkpoint | restart _ | rebuild | tick => cases checked
  rw [Bool.and_eq_true, List.any_eq_true] at written
  obtain ⟨written, e, inside, above⟩ := written
  rcases committed : (Work.commit (firstCommit 1 1 1 1) 6 .done).exec h.work with ⟨r, w⟩
  rw [committed] at written
  cases r with
  | error refusal => cases written
  | ok response =>
    have low := claim h reached _ 6 .done response w committed e inside
    exact absurd (of_decide_eq_true above) (not_lt.mpr low)

end Samples

end History
end SplitBrainFabric
