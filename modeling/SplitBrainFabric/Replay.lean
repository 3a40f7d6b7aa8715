import SplitBrainFabric.GrantLife

/-! A live registry and a replay of its journal end in the same state. What a record does
never depends on the fields that are not durable. -/

namespace SplitBrainFabric
open Words

namespace RegistryState

/-- The state without what only the running process keeps. -/
def durable (s : RegistryState) : RegistryState :=
  { s with generation := 0, idempotencyHits := 0, restartFences := 0, fabric := {} }

theorem enact_durable (entry : Entry) (s : RegistryState) :
    (enact entry).exec s.durable =
      (((enact entry).exec s).1, ((enact entry).exec s).2.durable) := by
  cases entry with
  | silent | policyDefine _ | commitRecord | interruptMark _ => rfl
  | bootBegin boot =>
    simp only [enact, Prog.exec_modify_bind, tolerate_exec, onLineage_exec]
    have same : (raiseIncarnationCounter boot.incarnation { s.durable with boot := boot }).lineage =
      (raiseIncarnationCounter boot.incarnation { s with boot := boot }).lineage := rfl
    rw [same]
    rcases (LineageTable.beginBoot boot).exec
      (raiseIncarnationCounter boot.incarnation { s with boot := boot }).lineage with ⟨r, lineage⟩
    cases r with
    | ok u => rfl
    | error st => simp only; split <;> rfl
  | bootEnd boot =>
    simp only [enact, tolerate_exec, onLineage_exec]
    have same : s.durable.lineage = s.lineage := rfl
    rw [same]
    rcases (LineageTable.endBoot boot.boot boot.endedAt boot.cleanStop).exec s.lineage with
      ⟨r, lineage⟩
    cases r with
    | ok u => rfl
    | error st => simp only; split <;> rfl
  | domainDefine d =>
    simp only [enact, enactDomain, Prog.exec_get_bind]
    have same : s.durable.domains = s.domains := rfl
    rw [same]
    cases s.domains.find d.domain with
    | some known => simp only [Prog.exec_ite]; split <;> rfl
    | none => simp only [Prog.exec_refuseIf]; split <;> rfl
  | grantOpen g => rfl
  | grantClose g =>
    simp only [enact, tolerate_exec, onLineage_exec]
    have same : s.durable.lineage = s.lineage := rfl
    rw [same]
    rcases (LineageTable.closeGrant g.id g.state g.closeReason g.closedAt).exec s.lineage with
      ⟨r, lineage⟩
    cases r with
    | ok u => rfl
    | error st => simp only; split <;> rfl
  | fence record scope =>
    simp only [enact, Prog.exec_modify_bind, tolerate_exec, onFences_exec]
    have same : (remember scope (raiseTokenCounter record.token s.durable)).fences =
      (remember scope (raiseTokenCounter record.token s)).fences := rfl
    rw [same]
    rcases (FenceTable.apply record scope).exec
      (remember scope (raiseTokenCounter record.token s)).fences with ⟨r, fences⟩
    cases r with
    | ok u => rfl
    | error st => simp only; split <;> rfl
  | extentAdopt record scope => rfl
  | incarnationAllocate value =>
    simp only [enact, Prog.exec_get_bind, Prog.exec_refuseIf]
    have same : s.durable.incarnationCounter = s.incarnationCounter := rfl
    rw [same]
    split <;> rfl

theorem apply_durable (record : JournalRecord) (s : RegistryState) :
    (apply record).exec s.durable =
      (((apply record).exec s).1, ((apply record).exec s).2.durable) := by
  simp only [apply, Prog.exec_refuseIf, Prog.exec_get_bind, Prog.exec_modify_bind,
    Prog.exec_ofExcept_bind]
  have same : s.durable.registrySequence = s.registrySequence := rfl
  rw [same]
  split
  · rfl
  split
  · rfl
  cases record.entry with
  | error st => rfl
  | ok entry => exact enact_durable entry (observe record s)

/-- The bump before a boot record is what the record itself would do. -/
theorem apply_bumped {s s' : RegistryState} {record : JournalRecord}
    (below : s.incarnationCounter ≠ maxWord)
    (boots : ∀ entry, record.entry = .ok entry → s.Boots entry)
    (ran : (apply record).exec s.bumpIncarnation = (.ok ⟨⟩, s')) :
    (apply record).exec s = (.ok ⟨⟩, s') := by
  obtain ⟨set, near, entry, read, enacted⟩ := apply_ok ran
  obtain ⟨boot, rfl, incarnation⟩ := boots entry read
  have near' : ¬ s.registrySequence + 1 < record.sequence := not_lt.mpr near
  rw [apply, Prog.exec_refuseIf, if_neg set, Prog.exec_get_bind, Prog.exec_refuseIf, if_neg near',
    Prog.exec_modify_bind, Prog.exec_ofExcept_bind, read]
  have counter : max (s.incarnationCounter + 1) boot.incarnation =
      max s.incarnationCounter boot.incarnation := by
    rw [incarnation, max_self, max_eq_right (le_of_lt (lt_succ below))]
  change (enact (.bootBegin boot)).exec (observe record s) = _
  rw [enact, Prog.exec_modify_bind] at enacted ⊢
  have state : raiseIncarnationCounter boot.incarnation
      { observe record s.bumpIncarnation with boot := boot } =
      raiseIncarnationCounter boot.incarnation { observe record s with boot := boot } := by
    have same : (raiseIncarnationCounter boot.incarnation
        { observe record s.bumpIncarnation with boot := boot }) =
        { raiseIncarnationCounter boot.incarnation { observe record s with boot := boot } with
          incarnationCounter := max (s.incarnationCounter + 1) boot.incarnation } := rfl
    rw [same, counter]
    rfl
  rw [state] at enacted
  exact enacted

end RegistryState

namespace Work

open RegistryState (apply apply_durable apply_bumped bumpGeneration)

theorem Move.refused {w w' : Work} (move : Move w w') : w.refused <+: w'.refused := by
  cases move with
  | aside _ _ _ | kept _ _ _ | booted _ _ _ _ | opened _ _ _ _ => exact List.prefix_rfl
  | lost _ _ _ | bootLost _ _ _ _ | openLost _ _ _ _ => exact List.prefix_append _ _

theorem Reach.refused {w w' : Work} (reached : Reach w w') : w.refused <+: w'.refused := by
  induction reached with
  | refl => exact List.prefix_rfl
  | tail _ move ih => exact ih.trans move.refused

theorem apply_one {s t s' : RegistryState} {record : JournalRecord} (same : t.durable = s.durable)
    (ran : (apply record).exec s = (.ok ⟨⟩, s')) :
    ∃ t', (apply record).exec t = (.ok ⟨⟩, t') ∧ t'.durable = s'.durable := by
  have left := apply_durable record t
  have right := apply_durable record s
  rw [same, right, ran] at left
  obtain ⟨result, state⟩ := Prod.mk.inj left
  exact ⟨((apply record).exec t).2, Prod.ext result.symm rfl, state.symm⟩

/-- Replaying what a sequence of moves emitted, from a state that agrees with its start. -/
theorem Reach.replay {w w' : Work} {t : RegistryState} (reached : Reach w w')
    (complete : w'.refused = []) (same : t.durable = w.state.durable) :
    ∃ added t', w'.emitted = w.emitted ++ added ∧
      (added.forM apply).exec t = (.ok ⟨⟩, t') ∧ t'.durable = w'.state.durable := by
  induction reached with
  | refl => exact ⟨[], t, (List.append_nil _).symm, rfl, same⟩
  | @tail v v' before move ih =>
    have earlier : v.refused = [] := by
      have short := move.refused
      rw [complete] at short
      exact List.prefix_nil.mp short
    obtain ⟨added, u, emitted, ran, agrees⟩ := ih earlier
    have extend : ∀ more u', (more.forM apply).exec u = (.ok ⟨⟩, u') →
        ((added ++ more).forM apply).exec t = (.ok ⟨⟩, u') := by
      intro more u' next
      rw [Prog.forM_append, Prog.exec_bind_ok ran]
      exact next
    have one : ∀ {record : JournalRecord} {s : RegistryState},
        (apply record).exec v.state = (.ok ⟨⟩, s) →
        ∃ u', ([record].forM apply).exec u = (.ok ⟨⟩, u') ∧ u'.durable = s.durable := by
      intro record s applied
      obtain ⟨u', next, durable⟩ := apply_one agrees applied
      exact ⟨u', by rw [Prog.forM_cons, Prog.exec_bind_ok next]; rfl, durable⟩
    cases move with
    | aside hits restarts fabric => exact ⟨added, u, emitted, ran, agrees⟩
    | lost _ _ _ | bootLost _ _ _ _ | openLost _ _ _ _ =>
      simp only [Work.lost] at complete
      exact absurd complete (List.append_ne_nil_of_right_ne_nil _ (List.cons_ne_nil _ _))
    | @kept record s next sane applied =>
      obtain ⟨u', more, durable⟩ := one applied
      refine ⟨added ++ [record], u', ?_, extend _ _ more, durable⟩
      rw [Work.kept, emitted, List.append_assoc]
    | @booted record s below next boots applied =>
      obtain ⟨u', more, durable⟩ := one (apply_bumped below boots applied)
      refine ⟨added ++ [record], u', ?_, extend _ _ more, durable⟩
      rw [Work.kept, emitted, List.append_assoc]
    | @opened g adopt record s₁ s₂ adoption next read applied =>
      obtain ⟨u₁, first, durable₁⟩ := apply_one agrees adoption.ran
      have between : u₁.durable = (bumpGeneration s₁).durable := durable₁
      obtain ⟨u₂, second, durable₂⟩ := apply_one between applied
      refine ⟨added ++ [adopt, record], u₂, ?_, extend _ _ ?_, durable₂⟩
      · simp only [Work.kept, emitted, List.append_assoc, List.cons_append, List.nil_append]
      · rw [Prog.forM_cons, Prog.exec_bind_ok first, Prog.forM_cons, Prog.exec_bind_ok second]
        rfl

end Work

/-- One call after another in one process. -/
def performAll (calls : List (Op × Step)) (w : Work) : Work :=
  calls.foldl (fun w call => call.1.after call.2 w) w

theorem performAll_reach {w : Work} (sound : w.state.lineage.Sound) (calls : List (Op × Step)) :
    Work.Reach w (performAll calls w) := by
  induction calls generalizing w with
  | nil => exact .refl
  | cons call rest ih =>
    have first := Op.reach sound call.2 call.1
    exact first.trans (ih (Work.preserved_sound.reach sound first))

namespace RegistryState

/-- Everything of a registry that its journal determines. -/
structure SameRecord (s t : RegistryState) : Prop where
  fences : s.fences = t.fences
  lineage : s.lineage = t.lineage
  domains : s.domains = t.domains
  policy : s.policy = t.policy
  interrupts : s.interrupts = t.interrupts
  scopes : s.scopes = t.scopes
  boot : s.boot = t.boot
  tokenCounter : s.tokenCounter = t.tokenCounter
  grantCounter : s.grantCounter = t.grantCounter
  incarnationCounter : s.incarnationCounter = t.incarnationCounter
  registrySequence : s.registrySequence = t.registrySequence
  commits : s.commits = t.commits

theorem SameRecord.of_durable {s t : RegistryState} (same : s.durable = t.durable) :
    SameRecord s t where
  fences := show s.durable.fences = t.durable.fences from congrArg _ same
  lineage := show s.durable.lineage = t.durable.lineage from congrArg _ same
  domains := show s.durable.domains = t.durable.domains from congrArg _ same
  policy := show s.durable.policy = t.durable.policy from congrArg _ same
  interrupts := show s.durable.interrupts = t.durable.interrupts from congrArg _ same
  scopes := show s.durable.scopes = t.durable.scopes from congrArg _ same
  boot := show s.durable.boot = t.durable.boot from congrArg _ same
  tokenCounter := show s.durable.tokenCounter = t.durable.tokenCounter from congrArg _ same
  grantCounter := show s.durable.grantCounter = t.durable.grantCounter from congrArg _ same
  incarnationCounter := show s.durable.incarnationCounter = t.durable.incarnationCounter from congrArg _ same
  registrySequence := show s.durable.registrySequence = t.durable.registrySequence from congrArg _ same
  commits := show s.durable.commits = t.durable.commits from congrArg _ same

theorem initialise_ok {config : RegistryConfig} {clock : Step} {boot : BootRecord}
    {s s' : RegistryState}
    (ran : (initialise config clock boot).exec s = (.ok ⟨⟩, s')) : s' = { s with
      config := config, storeId := config.storeId, clock := clock, lastStep := clock
      boot := boot, policy := config.policy, registrySequence := 0 } := by
  obtain ⟨-, ran⟩ := Prog.refuseIf_ok ran
  obtain ⟨_, -, ran⟩ := Prog.ofExcept_ok ran
  obtain ⟨-, ran⟩ := Prog.refuseIf_ok ran
  cases ran
  rfl

/-- A replay of everything a registry emitted, none of it refused, into a fresh registry
of the same configuration gives the state of the live one. -/
theorem replay_equals_live (config : RegistryConfig) (clock : Step) (boot : BootRecord)
    (fabric fabric' : FabricStore) (s t : RegistryState) (calls : List (Op × Step))
    (begun : (initialise config clock boot).exec { fabric := fabric } = (.ok ⟨⟩, s))
    (fresh : (initialise config clock boot).exec { fabric := fabric' } = (.ok ⟨⟩, t))
    (complete : (performAll calls { state := s }).refused = []) :
    ∃ t', ((performAll calls { state := s }).emitted.forM apply).exec t = (.ok ⟨⟩, t') ∧
      SameRecord t' (performAll calls { state := s }).state := by
  have sound : s.lineage.Sound := by
    rw [initialise_ok begun]
    exact ⟨Nat.zero_le _, List.nodup_nil⟩
  have same : t.durable = s.durable := by
    rw [initialise_ok begun, initialise_ok fresh]
    rfl
  have reached := performAll_reach (w := { state := s }) sound calls
  obtain ⟨added, t', emitted, ran, agrees⟩ := reached.replay complete same
  have all : (performAll calls { state := s }).emitted = added := emitted
  rw [all]
  exact ⟨t', ran, .of_durable agrees⟩

open History in
/-- A recovery, a domain, a grant and its release. -/
def sampleCalls : List (Op × Step) := [
  (.recoverAfterRestart, 1), (.defineDomain (sampleDomain 100 120), 2), (.allocateIncarnation, 3),
  (.allocateEpoch (sampleAllocation 100 120 2 1), 4), (.release { grant := 1 }, 5)]

open History in
theorem replay_equals_live_released :
    ∃ s t', (initialise sampleConfig 0 {}).exec { fabric := {} } = (.ok ⟨⟩, s) ∧
      (performAll sampleCalls { state := s }).emitted.length = 7 ∧
      ((performAll sampleCalls { state := s }).emitted.forM apply).exec s = (.ok ⟨⟩, t') ∧
      SameRecord t' (performAll sampleCalls { state := s }).state := by
  have begun : ((initialise sampleConfig 0 {}).exec { fabric := {} }).1 = .ok ⟨⟩ := by
    decide +kernel
  have complete : (performAll sampleCalls
        { state := ((initialise sampleConfig 0 {}).exec { fabric := {} }).2 }).refused = [] ∧
      (performAll sampleCalls
        { state := ((initialise sampleConfig 0 {}).exec { fabric := {} }).2 }).emitted.length =
          7 := by
    decide +kernel
  rcases ran : (initialise sampleConfig 0 {}).exec { fabric := {} } with ⟨r, s⟩
  rw [ran] at begun complete
  cases begun
  obtain ⟨t', replayed, same⟩ := replay_equals_live sampleConfig 0 {} {} {} s s sampleCalls ran ran
    complete.1
  exact ⟨s, t', rfl, complete.2, replayed, same⟩

end RegistryState
end SplitBrainFabric
