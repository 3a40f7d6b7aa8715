import SplitBrainFabric.Decisions
import SplitBrainFabric.EffectRuns
import SplitBrainFabric.Health

/-! What an open grant is worth: what its holder is told when it asks, and what the
effect boundary lets it write. -/

namespace SplitBrainFabric
open Words FabricStore

/-- The commit that a decision describes, around some operation. -/
structure CommitRequest.BuiltFrom (request : CommitRequest) (d : AuthorityDecision) : Prop where
  scope : request.scope = d.scope
  domain : request.domain = d.vector.domain
  epoch : request.epoch = d.vector.epoch
  incarnation : request.incarnation = d.vector.incarnation
  fenceToken : request.fenceToken = d.vector.fenceToken
  grant : request.grant = d.vector.grant
  operation : operationValid request.operation = true

namespace Work

theorem ungranted_unauthoritative (w : Work) (request : DecideRequest) :
    (w.ungranted request).decision.isAuthoritative = false := by
  simp only [ungranted, AuthorityDecision.isAuthoritative]
  split_ifs <;> rfl

theorem checkScope_error {ρ : Type} {answer : Status → ρ} {w w' : Work} {domain : DomainId}
    {scope : Scope} {refusal : ρ}
    (ran : (checkScope answer w domain scope).exec w = (.error refusal, w')) :
    ∃ st, refusal = answer st := by
  unfold checkScope at ran
  split at ran
  · cases ran
    exact ⟨_, rfl⟩
  · rw [Prog.refuseIf, Prog.exec_ite] at ran
    split at ran
    · cases ran
      exact ⟨_, rfl⟩
    · cases ran

/-- An authoritative answer is the arbiter's decision on an open grant, with the window of the
registry in place of its own. -/
theorem decide_decided {sorting : Sorting} {request : DecideRequest} {now : Step} {w w' : Work}
    {r : Except DecideResponse DecideResponse} (ran : (decide sorting request now).exec w = (r, w'))
    (granted : (Prog.answer r).decision.isAuthoritative = true) :
    w' = w ∧ request.domain.isEmpty = false ∧ request.scope.isEmpty = false ∧
    (∃ known, w.state.domains.find request.domain = some known ∧ known.scope = request.scope) ∧
    ∃ g d, decideAuthority sorting (authorityRequest request g now) (w.arbiterView g now) = d ∧
      d.isAuthoritative = true ∧ (Prog.answer r).decision =
        { d with validUntil := now + w.state.config.leaseHorizonSteps } := by
  obtain rfl := decide_spec ran
  rw [decide, Prog.exec_get_bind, Prog.exec_refuseIf] at ran
  split at ran
  · cases ran
    cases granted
  rename_i filled
  rw [Prog.exec_bind] at ran
  rcases checked : (checkScope (fun st => ({ status := st } : DecideResponse)) w' request.domain
    request.scope).exec w' with ⟨result, w₁⟩
  rw [checked] at ran
  obtain ⟨rfl, registered⟩ := checkScope_state checked
  cases result with
  | error refusal =>
    obtain ⟨st, rfl⟩ := checkScope_error checked
    cases ran
    cases granted
  | ok u =>
    obtain ⟨known, found, scope⟩ := registered rfl
    simp only at ran
    split at ran
    · cases ran
      rw [Prog.answer, ungranted_unauthoritative] at granted
      cases granted
    · rename_i g held
      rw [Prog.exec_refuseIf] at ran
      split at ran
      · cases ran
        cases granted
      simp only [Prog.exec_ite, Prog.exec_pure, Prog.exec_throw] at ran
      obtain ⟨d, decided, answered⟩ : ∃ d, decideAuthority sorting
          (authorityRequest request g now) (w₁.arbiterView g now) = d ∧ (Prog.answer r).decision =
            if d.isAuthoritative = true then
              { d with validUntil := now + w₁.state.config.leaseHorizonSteps } else d := by
        refine ⟨_, rfl, ?_⟩
        split at ran
        · cases ran
          rfl
        · cases ran
          rfl
      rw [not_or, Bool.not_eq_true, Bool.not_eq_true] at filled
      refine ⟨rfl, filled.1, filled.2, ⟨known, found, scope⟩, g, d, decided, ?_⟩
      rw [answered] at granted ⊢
      by_cases authoritative : d.isAuthoritative = true
      · exact ⟨authoritative, if_pos authoritative⟩
      · rw [if_neg authoritative] at granted
        exact absurd granted authoritative

/-- An authoritative answer names the request's subject and no grant. -/
theorem decide_granted {sorting : Sorting} {request : DecideRequest} {now : Step} {w w' : Work}
    {r : Except DecideResponse DecideResponse} (ran : (decide sorting request now).exec w = (r, w'))
    (granted : (Prog.answer r).decision.isAuthoritative = true) :
    w' = w ∧ request.domain.isEmpty = false ∧ request.scope.isEmpty = false ∧
    (∃ known, w.state.domains.find request.domain = some known ∧ known.scope = request.scope) ∧
    (Prog.answer r).decision.scope = request.scope ∧
    (Prog.answer r).decision.vector.domain = request.domain ∧
    (Prog.answer r).decision.vector.grant = 0 := by
  obtain ⟨same, named, filled, known, g, d, rfl, authoritative, answered⟩ :=
    decide_decided ran granted
  obtain ⟨_, _, _, _, -, written⟩ := decideAuthority_granted authoritative
  rw [answered, written]
  exact ⟨same, named, filled, known, rfl, rfl, rfl⟩

/-- A commit that names no grant. -/
theorem commit_grantless {request : CommitRequest} {now : Step} {io : AppendIo} {w : Work}
    {known : DomainDefinition} (named : request.domain.isEmpty = false)
    (filled : request.scope.isEmpty = false) (valid : operationValid request.operation = true)
    (found : w.state.domains.find request.domain = some known) (scope : known.scope = request.scope)
    (absent : w.state.lineage.find request.grant = none) :
    (commit request now io).exec w =
      (.error { status := .make .fenced .extentFenced request.grant }, w) := by
  have printable := valid
  simp only [operationValid, Bool.and_eq_true, decide_eq_true_eq] at printable
  have sized : ¬ (request.operation = [] ∨ Limits.maxTextLength < request.operation.length) := by
    rintro (empty | long)
    · exact printable.1.1 empty
    · exact absurd printable.1.2 (Nat.not_le.mpr long)
  have names : Names w.state request.domain request.scope := ⟨named, filled, known, found, scope⟩
  rw [commit, Prog.exec_get_bind, Prog.exec_refuseIf, if_neg (by simp [named, filled]),
    Prog.exec_refuseIf, if_neg sized, Prog.exec_bind_ok (checkScope_runs names)]
  simp only [absent, Prog.exec_throw]

end Work

namespace History

/-- No commit built from an authoritative decision is ever accepted: the decision leaves
the grant out, and no grant has the number zero. -/
theorem commit_of_decision_refused (h : History) (reached : Reachable (fun _ _ => True) h)
    (sorting : Sorting) (asked : DecideRequest) (now : Step)
    (r : Except DecideResponse DecideResponse) (w : Work)
    (decided : (Work.decide sorting asked now).exec h.work = (r, w))
    (granted : (Prog.answer r).decision.isAuthoritative = true) (request : CommitRequest)
    (built : request.BuiltFrom (Prog.answer r).decision) (later : Step) (io : AppendIo) :
    (Work.commit request later io).exec w =
      (.error { status := .make .fenced .extentFenced 0 }, w) := by
  obtain ⟨rfl, named, filled, ⟨known, found, scope⟩, subject, domain, grant⟩ :=
    Work.decide_granted decided granted
  have zero : request.grant = 0 := built.grant.trans grant
  have absent : h.work.state.lineage.find request.grant = none := by
    rw [LineageTable.find, List.find?_eq_none]
    intro g member same
    have number : g.id = request.grant := by simpa using same
    exact reached.healthy.rising.numbered g member (number.trans zero)
  have subject' := built.scope.trans subject
  have domain' := built.domain.trans domain
  have registered : h.work.state.domains.find request.domain = some known := domain' ▸ found
  rw [Work.commit_grantless (domain' ▸ named) (subject' ▸ filled) built.operation registered
    (subject' ▸ scope) absent, zero]

/-- The holder of the first grant asks with the statement of the only witness. -/
def heldQuestion : DecideRequest where
  domain := Id.make [100]
  scope := sampleScope 120
  epoch := 1
  incarnation := 1
  presentedFenceToken := 1
  evidence := {
    policy := Id.make [112]
    attestations := [{
      witness := Id.make [97], subjectDomain := Id.make [100]
      subjectScope := (sampleScope 120).digest, epoch := 1, incarnation := 1, fenceToken := 1
      witnessGeneration := 1, policyGeneration := 1, validUntil := 10, witnessSequence := 1 }] }

/-- What its decision would have it commit. -/
def heldCommit (d : AuthorityDecision) : CommitRequest where
  domain := d.vector.domain
  scope := d.scope
  epoch := d.vector.epoch
  incarnation := d.vector.incarnation
  grant := d.vector.grant
  fenceToken := d.vector.fenceToken
  operation := [111]

theorem heldCommit_builtFrom (d : AuthorityDecision) : (heldCommit d).BuiltFrom d := by
  have valid : operationValid [111] = true := by decide
  exact ⟨rfl, rfl, rfl, rfl, rfl, rfl, valid⟩

def heldEvents : List Event := [
  .call (.defineDomain (sampleDomain 100 120)) 1, .call .allocateIncarnation 2,
  .call (.allocateEpoch (sampleAllocation 100 120 1 1)) 3]

theorem held_granted : (sampleStart.bind (guarded (fun _ _ => true) · heldEvents)).map (fun h =>
    (Prog.answer ((Work.decide {} heldQuestion 4).exec h.work).1).decision.isAuthoritative) =
      some true := by
  decide +kernel

theorem commit_of_decision_refused_held : ∃ h r w, Reachable (fun _ _ => True) h ∧
    (Work.decide {} heldQuestion 4).exec h.work = (r, w) ∧
    (Prog.answer r).decision.isAuthoritative = true ∧
    (Work.commit (heldCommit (Prog.answer r).decision) 5 .done).exec w =
      (.error { status := .make .fenced .extentFenced 0 }, w) := by
  obtain ⟨h, ran, granted⟩ := Option.map_eq_some_iff.mp held_granted
  have reached := sample_reachable ran
  rcases decided : (Work.decide {} heldQuestion 4).exec h.work with ⟨r, w⟩
  rw [decided] at granted
  exact ⟨h, r, w, reached, decided, granted, commit_of_decision_refused h reached {} heldQuestion
    4 r w decided granted _ (heldCommit_builtFrom _) 5 .done⟩

/-- A decision is authoritative and what it describes is refused. -/
theorem decision_not_committed : ¬ ∀ h, Reachable (fun _ _ => True) h → ∀ asked now r w,
    (Work.decide {} asked now).exec h.work = (r, w) →
    (Prog.answer r).decision.isAuthoritative = true → ∀ request : CommitRequest,
    request.BuiltFrom (Prog.answer r).decision →
    ∃ response w', (Work.commit request now .done).exec w = (.ok response, w') := by
  intro accepted
  have evaluated : (sampleStart.bind (guarded (fun _ _ => true) · heldEvents)).map (fun h =>
      let asked := (Work.decide {} heldQuestion 4).exec h.work
      ((Prog.answer asked.1).decision.isAuthoritative,
        ((Work.commit (heldCommit (Prog.answer asked.1).decision) 4 .done).exec asked.2).1.isOk)) =
      some (true, false) := by
    decide +kernel
  obtain ⟨h, ran, shown⟩ := Option.map_eq_some_iff.mp evaluated
  rcases decided : (Work.decide {} heldQuestion 4).exec h.work with ⟨r, w⟩
  simp only [decided] at shown
  obtain ⟨granted, failed⟩ := Prod.mk.inj shown
  obtain ⟨response, w', committed⟩ := accepted h (sample_reachable ran) heldQuestion 4 r w decided
    granted (heldCommit _) (heldCommit_builtFrom _)
  rw [committed] at failed
  cases failed

/-- A record of the effect log is of a token the journal knows, and is no match for an open
grant of an extent it wrote. -/
def Behind (log : List JournalRecord) (r : MutationRecord) : Prop :=
  (∃ j ∈ log, r.fenceToken ≤ j.said.token) ∧
    ∀ g ∈ grantsOf log, g.isOpen = true → ∀ e ∈ g.extents.extents, e ∈ r.scope.extents →
      r.fenceToken ≤ g.fenceToken ∧ (r.fenceToken = g.fenceToken → r.incarnation = g.incarnation)

/-- A grant that opens has a token above everything the journal knows. -/
theorem Behind.move {log : List JournalRecord} {w w' : Work} {r : MutationRecord}
    (behind : Behind (log ++ w.emitted) r) (tracks : Tracks w.state (log ++ w.emitted))
    (move : Work.Move w w') : Behind (log ++ w'.emitted) r := by
  obtain ⟨⟨j, known, above⟩, held⟩ := behind
  refine ⟨⟨j, ?_, above⟩, ?_⟩
  · obtain ⟨more, same⟩ := move.emitted
    rw [← same, ← List.append_assoc]
    exact List.mem_append_left _ known
  have below : r.fenceToken ≤ w.state.tokenCounter := above.trans (tracks.tokens j known)
  have turnover := tracks.turnover move
  generalize grantsOf (log ++ w'.emitted) = grants' at turnover ⊢
  generalize opensOf (log ++ w'.emitted) = opens' at turnover
  cases turnover with
  | none => exact held
  | closed g =>
    intro o member active
    rcases Entry.mem_grants member with old | ⟨_, -, _, _, _, ends, rfl⟩ | opens
    · exact held o old active
    · exact absurd (EpochGrant.isOpen_iff.mp active) ends
    · cases opens
  | opened fresh ready =>
    intro o member active e inside touched
    rcases List.mem_append.mp member with old | last
    · exact held o ((LineageTable.roomFor_sublist _).subset old) active e inside touched
    · rw [List.mem_singleton.mp last, fresh.token]
      have less := lt_of_le_of_lt below (lt_succ fresh.tokenRoom)
      exact ⟨le_of_lt less, fun same => absurd same (ne_of_lt less)⟩

theorem Behind.emits {h : History} {law : List JournalRecord → Prop} {v : Work}
    {r : MutationRecord} (behind : Behind h.log r) (kept : Kept law h)
    (reached : Work.Reach h.work v) : Behind (h.log ++ v.emitted) r := by
  induction reached with
  | refl => rwa [← List.append_nil h.log] at behind
  | tail before move ih => exact ih.move (kept.emits before) move

/-- What an open grant lets write is behind the journal from the start. -/
theorem behind_of_holds {h : History} {law : List JournalRecord → Prop} {request : CommitRequest}
    {g : EpochGrant} {now : Step} (kept : Kept law h) (footing : RegistryState.Footing h.live)
    (holds : Work.Holds h.live request g) :
    Behind h.log ((Work.effectCall request now).record h.live.fabric) := by
  have member : g ∈ h.live.lineage.grants := List.mem_of_find?_eq_some holds.found
  have logged : g ∈ grantsOf h.log := kept.tracks.grants ▸ member
  refine ⟨?_, fun o inside active e has touched => ?_⟩
  · obtain ⟨origin, opened, -, token⟩ := opened_by_log logged
    obtain ⟨j, known, said⟩ := mem_opensOf.mp opened
    refine ⟨j, known, ?_⟩
    have same : request.fenceToken = origin.fenceToken := holds.token.symm.trans token.symm
    rw [said]
    exact le_of_eq same
  · have touched : e ∈ g.extents.extents := holds.extents ▸ touched
    rw [← kept.tracks.grants] at inside
    have same := footing.same_of_shared member inside holds.active active touched has
    rw [same]
    exact ⟨le_of_eq holds.token.symm, fun _ => holds.incarnation.symm⟩

theorem EffectRun.reachable {h : History} (run : EffectRun h) :
    Reachable (fun _ _ => True) h := by
  induction run with
  | start _ begun => exact ⟨_, _, _, _, _, begun, .refl⟩
  | @step _ _ event _ _ stepped ih => exact ih.turns (.single ⟨event, trivial, stepped⟩)

/-- Records written one after another are read back in that order. -/
theorem prefix_of_frames {front records : List MutationRecord} (chained : Chained front)
    (chained' : Chained records) (within : framesOf front <+: framesOf records) :
    front <+: records := by
  have carries : ∀ {l : List MutationRecord}, Chained l → ∀ r ∈ l, fabricFormat.Carries r.encode r :=
    fun chained r member => carries_sealed (chained.intact r member)
  have cut := LogFormat.contents_cut (carries chained') (framesOf front).length
  have whole := LogFormat.contents_cut (carries chained) (framesOf front).length
  have same : (framesOf records).take (framesOf front).length =
      (framesOf front).take (framesOf front).length := by
    rw [List.take_length]
    exact (List.prefix_iff_eq_take.mp within).symm
  have read := cut.symm.trans ((congrArg fabricFormat.contents same).trans whole)
  have equal : fabricFormat.fitting MutationRecord.encode (framesOf front).length records =
      fabricFormat.fitting MutationRecord.encode (framesOf front).length front :=
    congrArg LogFormat.Scan.state (Except.ok.inj read)
  have all : fabricFormat.fitting MutationRecord.encode (framesOf front).length front = front :=
    LogFormat.fitting_all fabricFormat MutationRecord.encode le_rfl
  rw [← all, ← equal]
  exact LogFormat.fitting_prefix fabricFormat MutationRecord.encode _ _

/-- The effect log and its owner table are of records that are behind the journal. -/
structure Ruled (fabric : FabricStore) (log : List JournalRecord) : Prop where
  opened : fabric.opened = true
  file : ∃ records, Chained records ∧ fabric.log <+: framesOf records ∧ ∀ r ∈ records, Behind log r
  memory : ∃ whole, Chained whole ∧ framesOf whole <+: fabric.log ∧ fabric.owners = ownersOf whole

theorem Ruled.readable {fabric : FabricStore} {log : List JournalRecord}
    (ruled : Ruled fabric log) : Readable fabric.log := by
  obtain ⟨records, chained, within, -⟩ := ruled.file
  exact ⟨records, fabric.log.length, chained, List.prefix_iff_eq_take.mp within⟩

theorem Ruled.later {h : History} {law : List JournalRecord → Prop} {fabric : FabricStore}
    {v : Work} (ruled : Ruled fabric h.log) (kept : Kept law h) (reached : Work.Reach h.work v) :
    Ruled fabric (h.log ++ v.emitted) := by
  obtain ⟨records, chained, within, behind⟩ := ruled.file
  exact ⟨ruled.opened,
    ⟨records, chained, within, fun r member => (behind r member).emits kept reached⟩, ruled.memory⟩

/-- Any history whose frames are in the file is behind the journal. -/
theorem Ruled.behind {fabric : FabricStore} {log : List JournalRecord} {l : List MutationRecord}
    (ruled : Ruled fabric log) (chained : Chained l) (within : framesOf l <+: fabric.log) :
    ∀ r ∈ l, Behind log r := by
  obtain ⟨records, chained', file, behind⟩ := ruled.file
  have front := prefix_of_frames chained chained' (within.trans file)
  exact fun r member => behind r (front.subset member)

theorem Ruled.of_clean {fabric s : FabricStore} {log : List JournalRecord}
    (ruled : Ruled fabric log) (clean : Clean s) (opened : s.opened = true)
    (within : s.log <+: fabric.log) : Ruled s log := by
  obtain ⟨records, durable, reflects⟩ := clean
  have chained := durable.chained
  have behind := ruled.behind chained (reflects.log ▸ within)
  refine ⟨opened, ⟨records, chained, ?_, behind⟩, records, chained, ?_, reflects.owners⟩
  · rw [reflects.log]
  · rw [reflects.log]

/-- One more record behind a clean log, however its write ends. -/
theorem Ruled.admitted {fabric fabric' : FabricStore} {log : List JournalRecord}
    {call : MutationCall} {io : AppendIo} {r : Except Status MutationRecord}
    (ruled : Ruled fabric log) (clean : Clean fabric) (behind : Behind log (call.record fabric))
    (ran : (call.admitMutation io).exec fabric = (r, fabric')) : Ruled fabric' log := by
  obtain ⟨records, durable, reflects⟩ := clean
  have before := ruled.behind durable.chained (reflects.log ▸ List.prefix_rfl)
  have after : ∀ x ∈ records ++ [call.record fabric], Behind log x := by
    intro x member
    rcases List.mem_append.mp member with old | last
    · exact before x old
    · rw [List.mem_singleton.mp last]
      exact behind
  have next : (call.record fabric).storeSequence = UInt64.ofNat records.length + 1 := by
    rw [← reflects.last]
    rfl
  cases r with
  | ok r =>
    obtain ⟨-, rfl, good, passed, rfl, -⟩ := MutationCall.admit_ok ran
    rw [reflects.owners] at passed
    have chained := durable.next good next passed
    have reflected := Reflects.accepted durable reflects next
    have file : framesOf (records ++ [call.record fabric]) = (fabric.accepted
      (call.record fabric)).log := reflected.log.symm
    exact ⟨ruled.opened, ⟨_, chained, file ▸ List.prefix_rfl, after⟩, _, chained,
      file ▸ List.prefix_rfl, reflected.owners⟩
  | error st =>
    rcases MutationCall.admit_failed ran with rfl | ⟨good, passed, n, rfl⟩
    · exact ruled
    · rw [reflects.owners] at passed
      have chained := durable.next good next passed
      refine ⟨ruled.opened, ⟨_, chained, ?_, after⟩, records, durable.chained, ?_,
        reflects.owners⟩
      · rw [framesOf_append, reflects.log]
        exact (List.prefix_append_right_inj _).mpr (List.take_prefix n _)
      · rw [reflects.log]
        exact List.prefix_append _ _

/-- Any call of a registry, cut after some of its records. -/
theorem Ruled.after {h : History} {law : List JournalRecord → Prop} {op : Op} {now : Step}
    {v : Work} (ruled : Ruled h.live.fabric h.log) (kept : Kept law h)
    (footing : RegistryState.Footing h.live) (clean : h.WritesClean op)
    (reached : Work.Reach h.work v) :
    Ruled (op.after now h.work).state.fabric (h.log ++ v.emitted) := by
  by_cases commits : ∃ request io, op = .commit request io
  · obtain ⟨request, io, rfl⟩ := commits
    rcases ran : (Work.commit request now io).exec h.work with ⟨r, w'⟩
    have after : (Op.commit request io).after now h.work = w' := congrArg Prod.snd ran
    rw [after]
    rcases (Work.commit_spec ran).2 with ⟨refusal, -, rfl⟩ | ⟨g, holds⟩
    · exact ruled.later kept reached
    rcases Work.commit_fabric ran with ⟨same, -⟩ | ⟨result, called, -⟩
    · rw [same]
      exact ruled.later kept reached
    · have behind : Behind h.log ((Work.effectCall request now).record h.live.fabric) :=
        behind_of_holds kept footing holds
      have written := ruled.admitted (clean request io rfl) behind called
      exact written.later kept reached
  · rw [Op.after_fabric commits]
    exact ruled.later kept reached

theorem openStore_prefix {header : Option Bytes} {file header' : Bytes} {storeId : StoreId}
    {options : StoreOpenOptions} {s : FabricStore} {report : StoreRecoveryReport}
    (opened : openStore header (some file) storeId options = .ok (s, header', report)) :
    s.opened = true ∧ s.log <+: file := by
  obtain ⟨-, -, -, scan, -, rfl⟩ := openStore_ok opened
  exact ⟨rfl, List.take_prefix _ _⟩

/-- Whatever happens to a registry on one effect log, the log stays behind its journal. -/
theorem EffectRun.ruled {h : History} (run : EffectRun h) : Ruled h.live.fabric h.log := by
  induction run with
  | @start config clock boot fabric options header report h opened begun =>
    rw [start_fabric begun]
    obtain ⟨-, rfl, -⟩ := openStore_fresh opened
    have empty : Chained [] := Durable.empty.chained
    exact ⟨rfl, ⟨[], empty, List.prefix_rfl, by simp⟩, [], empty, List.prefix_rfl, rfl⟩
  | @step h h' event run faithful stepped ruled =>
    have kept : Kept (fun _ => True) h := run.reachable.kept trivial fun _ _ _ _ _ _ => trivial
    have footing := run.reachable.footing
    cases step_cases stepped with
    | called op now =>
      have reached := Op.reach (w := h.work) kept.tracks.sound now op
      have after : Ruled (op.after now h.work).state.fabric
          (h.log ++ (op.after now h.work).emitted) := ruled.after kept footing faithful reached
      exact after
    | saved => exact ruled
    | rebuilt s fills =>
      rcases fills with rfl | rfl
      · exact ruled
      · exact ruled
    | ticked room => exact ruled
    | reloaded files s ran =>
      obtain ⟨clean, header, k, options, header', report, opened⟩ := faithful
      obtain ⟨v, reached, log, short⟩ := survived_reach kept.tracks.sound files
      have left : Ruled (h.leftFabric files) (h.survived files) := by
        rw [log]
        unfold leftFabric
        cases flight : files.inFlight with
        | none => exact ruled.later kept reached
        | some call =>
          obtain ⟨op, now, cut⟩ := call
          exact ruled.after kept footing (clean op now cut flight) reached
      have same : s.fabric = files.fabric := RegistryState.reload_fabric.run rfl ran
      have readable := left.readable
      obtain ⟨open', within⟩ := openStore_prefix opened
      have fresh := left.of_clean (clean_opened (readable.cut k) opened) open'
        (within.trans (List.take_prefix k _))
      rw [← same] at fresh
      exact fresh

/-- Every grant was opened under a token and an incarnation. -/
theorem Reachable.bound {h : History} (reached : Reachable (fun _ _ => True) h) :
    ∀ g ∈ h.live.lineage.grants, g.fenceToken ≠ 0 ∧ g.incarnation ≠ 0 := by
  have kept : Kept (fun log => ∀ g ∈ grantsOf log, g.fenceToken ≠ 0 ∧ g.incarnation ≠ 0) h := by
    refine reached.kept (by simp [grantsOf]) fun log w w' tracks bound move => ?_
    have turnover := tracks.turnover move
    generalize grantsOf (log ++ w'.emitted) = grants' at turnover ⊢
    generalize opensOf (log ++ w'.emitted) = opens' at turnover
    cases turnover with
    | none => exact bound
    | closed g =>
      intro o member
      rcases Entry.mem_grants member with old | ⟨x, old, _, _, _, _, rfl⟩ | opens
      · exact bound o old
      · exact bound x old
      · cases opens
    | opened fresh ready =>
      intro o member
      rcases List.mem_append.mp member with old | last
      · exact bound o ((LineageTable.roomFor_sublist _).subset old)
      · rw [List.mem_singleton.mp last]
        exact ⟨ready.token, ready.incarnation⟩
  rw [kept.tracks.grants]
  exact kept.lawful

/-- An open grant meets nothing at the effect boundary that outranks it. -/
theorem EffectRun.admits {h : History} (run : EffectRun h) {g : EpochGrant}
    (member : g ∈ h.live.lineage.grants) (active : g.isOpen = true) :
    ExtentMarks.Admits h.live.fabric.owners g.fenceToken g.incarnation g.extents.extents := by
  have kept : Kept (fun _ => True) h := run.reachable.kept trivial fun _ _ _ _ _ _ => trivial
  obtain ⟨whole, chained, within, owners⟩ := run.ruled.memory
  intro e inside state found
  rw [owners, find_ownersOf] at found
  obtain ⟨v, latest, rfl⟩ := Option.map_eq_some_iff.mp found
  obtain ⟨written, touched⟩ := LastWriter.latest_mem latest
  have touched : e ∈ v.scope.extents := by simpa [touches, Scope.containsExtent] using touched
  have logged : g ∈ grantsOf h.log := kept.tracks.grants ▸ member
  exact (run.ruled.behind chained within v written).2 g logged active e inside touched

theorem mutationRecord_fits {r : MutationRecord} (valid : operationValid r.operation = true) :
    r.encode.length ≤ Limits.maxJournalRecordBytes := by
  have name := r.domain.length_le
  have extents := r.scope.encode_length
  have operation := MutationRecord.operationValid_length valid
  simp only [MutationRecord.encode, MutationRecord.bodyFields, List.cons_append, List.nil_append,
    List.flatten_cons, List.flatten_nil, List.length_append, Writer.u64_length, Writer.text_length,
    Writer.blob_length, Writer.digest_length, List.length_nil, Limits.maxJournalRecordBytes]
  omega

/-- A write that nothing interrupts either takes place or leaves the store alone. -/
theorem admit_done_failed {call : MutationCall} {s s' : FabricStore} {st : Status}
    (ran : (call.admitMutation .done).exec s = (.error st, s')) : s' = s := by
  have clean : (call.admitMutation .done).FailsCleanOn (fun _ => True) s := by
    refine .get <| .refuseIf fun _ => .refuseIf fun _ => .refuseIf fun _ => .refuseIf fun _ =>
      .refuseIf fun _ => .refuseIf fun _ => .refuseIf fun _ => .ofExcept fun _ _ =>
      .refuseIf fun _ => .bind_pure ?_
    intro e t _ failed
    rw [append, Prog.exec_get_bind] at failed
    by_cases full : maxFileBytes < s.log.length + (fabricFormat.frame (call.record s).encode).length
    · have settled : AppendIo.done.settle s.log.length
          (fabricFormat.frame (call.record s).encode) = .payloadShort 0 := if_pos full
      simp only [MutationCall.record] at settled
      simp only [settled, List.take_zero, List.append_nil] at failed
      cases failed
      rfl
    · have settled : AppendIo.done.settle s.log.length
          (fabricFormat.frame (call.record s).encode) = .done := if_neg full
      simp only [MutationCall.record] at settled
      simp only [settled] at failed
      cases failed
  exact clean st s' trivial ran

/-- No write of the event fails; a crash may still cut one short. -/
def Unfailing : Event → Prop
  | .call op _ => ∀ request io, op = .commit request io → io = .done
  | .restart files => ∀ request io now k,
      files.inFlight = some (.commit request io, now, k) → io = .done
  | .checkpoint | .rebuild | .tick => True

/-- The effect store that a restart brings up is what the last process left on disk. -/
def Resumes (h : History) : Event → Prop
  | .restart files => h.Reopens files
  | .call _ _ | .checkpoint | .rebuild | .tick => True

/-- Runs without write failures, restarts included. -/
inductive UnfailingRun : History → Prop
  | start {config : RegistryConfig} {clock : Step} {boot : BootRecord} {fabric : FabricStore}
      {options : StoreOpenOptions} {header : Bytes} {report : StoreRecoveryReport} {h : History} :
      openStore none none config.storeId options = .ok (fabric, header, report) →
      start config clock boot fabric = some h → UnfailingRun h
  | step {h h' : History} {event : Event} : UnfailingRun h → Unfailing event → h.Resumes event →
      h.step event = some h' → UnfailingRun h'

theorem clean_after {op : Op} {now : Step} {w : Work} (clean : Clean w.state.fabric)
    (unfailing : ∀ request io, op = .commit request io → io = .done) :
    Clean (op.after now w).state.fabric := by
  by_cases commits : ∃ request io, op = .commit request io
  · obtain ⟨request, io, rfl⟩ := commits
    cases unfailing request io rfl
    rcases ran : (Work.commit request now .done).exec w with ⟨r, w'⟩
    have after : (Op.commit request .done).after now w = w' := congrArg Prod.snd ran
    rw [after]
    rcases Work.commit_fabric ran with ⟨same, -⟩ | ⟨result, called, -⟩
    · rwa [same]
    · cases result with
      | error st => rwa [admit_done_failed called]
      | ok r => exact admit_clean clean called
  · rwa [Op.after_fabric commits]

/-- Such a run writes behind a clean log only. -/
theorem UnfailingRun.effects {h : History} (run : UnfailingRun h) :
    EffectRun h ∧ Clean h.live.fabric := by
  induction run with
  | start opened begun =>
    refine ⟨.start opened begun, ?_⟩
    rw [start_fabric begun]
    exact clean_fresh opened
  | @step h h' event _ unfailing resumes stepped ih =>
    obtain ⟨run, clean⟩ := ih
    have faithful : h.Faithful event := by
      cases event with
      | call op now => exact fun _ _ _ => clean
      | restart files => exact ⟨fun _ _ _ _ _ _ _ => clean, resumes⟩
      | checkpoint | rebuild | tick => trivial
    refine ⟨run.step faithful stepped, ?_⟩
    cases step_cases stepped with
    | called op now =>
      have after : Clean (op.after now h.work).state.fabric := clean_after clean unfailing
      exact after
    | saved => exact clean
    | rebuilt s fills =>
      rcases fills with rfl | rfl
      · exact clean
      · exact clean
    | ticked room => exact clean
    | reloaded files s ran =>
      obtain ⟨header, k, options, header', report, opened⟩ := resumes
      have left : Clean (h.leftFabric files) := by
        unfold leftFabric
        cases flight : files.inFlight with
        | none => exact clean
        | some call =>
          obtain ⟨op, now, cut⟩ := call
          exact clean_after (w := h.work) clean fun request io same =>
            unfailing request io now cut (same ▸ flight)
      have same : s.fabric = files.fabric := RegistryState.reload_fabric.run rfl ran
      have fresh := clean_opened (left.readable.cut k) opened
      rw [← same] at fresh
      exact fresh

/-- In every run an open grant writes: no mark of its extents is above its token, none at
its token is another's, and a call with its bindings passes every check up to the write. -/
theorem open_grant_writes (h : History) (unfailing : UnfailingRun h) (g : EpochGrant)
    (member : g ∈ h.live.lineage.grants) (active : g.isOpen = true) :
    (∀ e ∈ g.extents.extents, h.live.fabric.highWater e ≤ g.fenceToken ∧
      (h.live.fabric.highWater e = g.fenceToken → ∃ owner,
        h.live.fabric.ownerOf e = some owner ∧ owner.ownerIncarnation = g.incarnation)) ∧
    gate h.live.fabric.owners g.fenceToken g.incarnation g.extents.extents =
      (.ok ⟨⟩ : Except Status PUnit.{1}) ∧
    ∀ operation payloadDigest now io, operationValid operation = true →
      (admitMutation g.domain g.fenceToken g.extents g.epoch g.incarnation g.id operation
        payloadDigest now io).exec h.live.fabric =
      (do
        let r := h.live.fabric.candidate g.domain g.fenceToken g.extents g.epoch g.incarnation g.id
          operation payloadDigest now
        append r io
        pure r : Prog Status FabricStore MutationRecord).exec h.live.fabric := by
  have run := unfailing.effects.1
  have admits := run.admits member active
  have footing := run.reachable.footing
  obtain ⟨token, incarnation⟩ := run.reachable.bound g member
  have passes : gate h.live.fabric.owners g.fenceToken g.incarnation g.extents.extents =
      (.ok ⟨⟩ : Except Status PUnit.{1}) := ExtentMarks.check_ok.mpr admits
  refine ⟨fun e inside => ?_, passes, fun operation payloadDigest now io valid => ?_⟩
  · cases found : h.live.fabric.owners.find e with
    | none =>
      have zero : h.live.fabric.highWater e = 0 := by simp only [highWater, ownerOf, found]
      rw [zero]
      exact ⟨UInt64.zero_le, fun same => absurd same.symm token⟩
    | some state =>
      have high : h.live.fabric.highWater e = state.highWaterToken := by
        simp only [highWater, ownerOf, found]
      obtain ⟨below, owner⟩ := admits e inside state found
      rw [high]
      exact ⟨below, fun same => ⟨state, found, owner same⟩⟩
  · have named := footing.named g member
    have filled := footing.filled g member
    have small : ¬ Limits.maxExtentsPerScope < g.extents.size := Nat.not_lt.mpr g.extents.bounded
    rw [admitMutation, Prog.exec_get_bind, Prog.exec_refuseIf, if_neg (by simp [run.ruled.opened]),
      Prog.exec_refuseIf, if_neg (by simp [named]), Prog.exec_refuseIf, if_neg (by simp [filled]),
      Prog.exec_refuseIf, if_neg token, Prog.exec_refuseIf, if_neg incarnation, Prog.exec_refuseIf,
      if_neg (by simp [valid]), Prog.exec_refuseIf, if_neg small, passes, Prog.exec_ofExcept_bind,
      Prog.exec_refuseIf, if_neg (Nat.not_lt.mpr (mutationRecord_fits valid))]

/-- Calls only, and no write of theirs fails. -/
def calling (_ : History) : Event → Bool
  | .call (.commit _ .done) _ => true
  | .call (.commit _ _) _ | .restart _ => false
  | _ => true

theorem calling_unfailing {h : History} {event : Event} (checked : calling h event = true) :
    Unfailing event ∧ h.Resumes event := by
  cases event with
  | call op now =>
    refine ⟨?_, trivial⟩
    rintro request io rfl
    cases io with
    | done => rfl
    | headShort _ | payloadShort _ | flushFailed _ _ => cases checked
  | restart files => cases checked
  | checkpoint | rebuild | tick => exact ⟨trivial, trivial⟩

theorem UnfailingRun.called {h h' : History} {events : List Event} (run : UnfailingRun h)
    (ran : h.guarded calling events = some h') : UnfailingRun h' := by
  induction events generalizing h with
  | nil =>
    cases ran
    exact run
  | cons event rest ih =>
    unfold guarded at ran
    rw [List.foldlM_cons] at ran
    obtain ⟨h₁, stepped, ran⟩ := Option.bind_eq_some_iff.mp ran
    split at stepped
    · rename_i checked
      obtain ⟨unfailing, resumes⟩ := calling_unfailing checked
      exact ih (run.step unfailing resumes stepped) ran
    · cases stepped

/-- A domain that has changed hands and written under both. -/
theorem open_grant_writes_handed : ∃ h g, UnfailingRun h ∧ g ∈ h.live.lineage.grants ∧
    g.isOpen = true ∧ h.live.fabric.records.length = 2 ∧
    gate h.live.fabric.owners g.fenceToken g.incarnation g.extents.extents =
      (.ok ⟨⟩ : Except Status PUnit.{1}) := by
  have evaluated : ((start sampleConfig 0 { node := Id.make [110] } sampleFabric).bind
      (guarded calling · handedEvents)).map (fun h =>
        (h.live.lineage.grants.any (·.isOpen), h.live.fabric.records.length)) =
      some (true, 2) := by
    decide +kernel
  obtain ⟨h, ran, shown⟩ := Option.map_eq_some_iff.mp evaluated
  obtain ⟨some', written⟩ := Prod.mk.inj shown
  obtain ⟨g, member, active⟩ := List.any_eq_true.mp some'
  obtain ⟨h₀, begun, ran⟩ := Option.bind_eq_some_iff.mp ran
  have opened : openStore none none sampleConfig.storeId {} =
      .ok (sampleFabric, sampleHeader, { created := true }) := rfl
  have run := (UnfailingRun.start opened begun).called ran
  exact ⟨h, g, run, member, active, written, (open_grant_writes h run g member active).2.1⟩

end History
end SplitBrainFabric
