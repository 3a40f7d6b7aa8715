import SplitBrainFabric.WitnessRuns

/-! A witness that is restarted now and then, beside one that gets the same requests and is
not. The first forgets; what it forgets is just what it would have refused to contradict. -/

namespace SplitBrainFabric
open Words Runs

/-- What a statement says, without the numbers its witness gave it. -/
def WitnessAttestation.content (a : WitnessAttestation) :
    DomainId × Digest256 × Epoch × IncarnationId × FenceToken :=
  (a.subjectDomain, a.subjectScope, a.epoch, a.incarnation, a.fenceToken)

inductive WitnessMove where
  | attest (request : AttestRequest)
  | restart

structure Twins where
  restarted : WitnessLog
  steady : WitnessLog

namespace WitnessService

/-- Requests that get as far as the clock. -/
structure Posed (request : AttestRequest) : Prop where
  domain : request.subjectDomain.isEmpty = false
  scope : request.subjectScope.isEmpty = false
  holder : request.epoch ≠ 0 ∧ request.incarnation ≠ 0 ∧ request.fenceToken ≠ 0
  step : request.requesterStep ≠ 0

variable {s s' : WitnessService} {request : AttestRequest}

theorem objection_clock {st : Status} (objects : objection request s = some (s', st)) :
    s'.clock = s.clock := by
  unfold objection contradiction at objects
  split at objects
  · split_ifs at objects <;> · cases objects; rfl
  · split_ifs at objects
    cases objects
    rfl

theorem attest_unposed (unposed : ¬ Posed request) :
    ((attest request).exec s).2 = s := by
  simp only [attest, Prog.exec_refuseIf]
  split
  · rfl
  rename_i domain
  split
  · rfl
  rename_i scope
  split
  · rfl
  rename_i holder
  split
  · rfl
  rename_i step
  rw [not_or, not_or] at holder
  exact absurd ⟨by simpa using domain, by simpa using scope, holder, step⟩ unposed

theorem attest_posed (posed : Posed request) :
    ((attest request).exec s).2.clock = tryIncrement s.clock := by
  have holder : ¬ (request.epoch = 0 ∨ request.incarnation = 0 ∨ request.fenceToken = 0) := by
    simp only [not_or]
    exact posed.holder
  rw [attest, Prog.exec_refuseIf, if_neg (by simp [posed.domain]), Prog.exec_refuseIf,
    if_neg (by simp [posed.scope]), Prog.exec_refuseIf, if_neg holder, Prog.exec_refuseIf,
    if_neg posed.step, Prog.exec_get_bind, Prog.exec_refuseIf]
  unfold tryIncrement
  split
  · rfl
  rw [Prog.exec_modify_bind, Prog.exec_get_bind]
  cases objects : objection request { s with clock := s.clock + 1 } with
  | some refusal =>
    have kept := objection_clock objects
    exact kept
  | none =>
    simp only [Prog.exec_refuseIf]
    split
    · rfl
    · rfl

/-- Of two clocks the one that is behind stays behind. -/
theorem attest_clock_le {t : WitnessService} (behind : s.clock ≤ t.clock) :
    ((attest request).exec s).2.clock ≤ ((attest request).exec t).2.clock := by
  by_cases posed : Posed request
  · rw [attest_posed posed, attest_posed posed]
    exact tryIncrement_mono behind
  · rw [attest_unposed posed, attest_unposed posed]
    exact behind

theorem clock_le_attest : s.clock ≤ ((attest request).exec s).2.clock := by
  by_cases posed : Posed request
  · rw [attest_posed posed]
    exact le_tryIncrement s.clock
  · rw [attest_unposed posed]

end WitnessService

namespace WitnessLog

variable {l : WitnessLog} {request : AttestRequest}

/-- The subjects that have been spoken about. -/
def subjects (stated : List WitnessAttestation) : List SubjectKey :=
  (stated.map WitnessAttestation.subject).dedup

/-- The request does not contradict anything that was stated. -/
def Agrees (stated : List WitnessAttestation) (request : AttestRequest) : Prop :=
  ∀ a ∈ stated, a.subject = request.subject → a.epoch ≤ request.epoch ∧
    (a.epoch = request.epoch → a.holder = (request.incarnation, request.fenceToken))

theorem Kept.found_iff (kept : l.Kept) (k : SubjectKey) :
    (l.service.subjects.find k).isSome = true ↔ k ∈ subjects l.stated := by
  have last := congrArg Option.isSome (kept.minutes k).last
  rw [Option.isSome_map, Option.isSome_map] at last
  rw [last, subjects, List.mem_dedup, List.mem_map]
  constructor
  · intro spoken
    obtain ⟨a, latest⟩ := Option.isSome_iff_exists.mp spoken
    obtain ⟨member, concerned⟩ := LastWriter.latest_mem latest
    exact ⟨a, member, concerns_iff.mp concerned⟩
  · rintro ⟨a, member, same⟩
    obtain ⟨u, latest, -⟩ :=
      LastWriter.latest_follows kept.lawful member (concerns_iff.mpr same)
    rw [latest]
    rfl

theorem Kept.size (kept : l.Kept) : l.service.subjects.size = (subjects l.stated).length := by
  have keys : (l.service.subjects.rows.map AttestedSubject.key).Perm (subjects l.stated) :=
    (List.perm_ext_iff_of_nodup (SortedTable.keys_nodup _) (List.nodup_dedup _)).mpr fun k =>
      SortedTable.mem_keys.trans (kept.found_iff k)
  rw [← keys.length_eq, List.length_map]
  rfl

/-- The memory of a witness says what all its statements say. -/
theorem Kept.accommodates_iff (kept : l.Kept) (request : AttestRequest) :
    l.service.Accommodates request ↔ Agrees l.stated request ∧
      (request.subject ∈ subjects l.stated ∨
        (subjects l.stated).length < l.service.config.maxSubjects.toNat) := by
  have found := kept.found_iff request.subject
  have last := (kept.minutes request.subject).last
  cases row : l.service.subjects.find request.subject with
  | none =>
    have unheard : request.subject ∉ subjects l.stated := by
      rw [← found, row]
      exact Bool.false_ne_true
    unfold AttestRequest.subject at row
    simp only [WitnessService.Accommodates, row, kept.size]
    constructor
    · refine fun room => ⟨fun a member same => ?_, .inr room⟩
      have spoken : a.subject ∈ subjects l.stated :=
        List.mem_dedup.mpr (List.mem_map_of_mem member)
      exact absurd (same ▸ spoken) unheard
    · rintro ⟨-, known | room⟩
      · exact absurd known unheard
      · exact room
  | some p =>
    rw [row] at found last
    obtain ⟨u, latest, same⟩ := Option.map_eq_some_iff.mp last.symm
    obtain ⟨epoch, holder⟩ := Prod.mk.inj same
    obtain ⟨member, concerned⟩ := LastWriter.latest_mem latest
    unfold AttestRequest.subject at row
    simp only [WitnessService.Accommodates, row]
    constructor
    · rintro ⟨above, agree⟩
      refine ⟨fun a spoken same => ?_, .inl (found.mp rfl)⟩
      obtain ⟨u', latest', follows⟩ :=
        LastWriter.latest_follows kept.lawful spoken (concerns_iff.mpr same)
      rw [latest] at latest'
      cases latest'
      have below : a.epoch ≤ p.epoch := epoch ▸ follows.1
      refine ⟨below.trans above, fun equal => ?_⟩
      have level : request.epoch = p.epoch := le_antisymm (equal ▸ below) above
      obtain ⟨incarnation, token⟩ := agree level
      rw [follows.2 ((equal.trans level).trans epoch.symm), holder]
      exact Prod.ext incarnation token.symm
    · rintro ⟨agrees, -⟩
      obtain ⟨above, agree⟩ := agrees u member (concerns_iff.mp concerned)
      rw [epoch] at above
      refine ⟨above, fun level => ?_⟩
      have equal := agree (epoch.trans level.symm)
      rw [holder] at equal
      obtain ⟨incarnation, token⟩ := Prod.mk.inj equal
      exact ⟨incarnation, token.symm⟩

theorem receive_service (l : WitnessLog) (request : AttestRequest) :
    (l.receive request).service = ((WitnessService.attest request).exec l.service).2 := by
  rcases ran : (WitnessService.attest request).exec l.service with ⟨r, s⟩
  rw [receive, ran]
  cases r with
  | ok a => rfl
  | error st => rfl

section Content

variable {stated stated' : List WitnessAttestation}

theorem content_inj {a b : WitnessAttestation} (same : a.content = b.content) :
    a.subject = b.subject ∧ a.epoch = b.epoch ∧ a.holder = b.holder := by
  simp only [WitnessAttestation.content, Prod.mk.injEq] at same
  obtain ⟨domain, scope, epoch, incarnation, token⟩ := same
  exact ⟨keyFor_inj.mpr ⟨domain, scope⟩, epoch, Prod.ext incarnation token⟩

theorem agrees_congr (same : stated.map (·.content) = stated'.map (·.content))
    (agrees : Agrees stated request) : Agrees stated' request := by
  intro a member subject
  have inside : a.content ∈ stated.map (·.content) := same ▸ List.mem_map_of_mem member
  obtain ⟨b, memberB, equal⟩ := List.mem_map.mp inside
  obtain ⟨subjectB, epoch, holder⟩ := content_inj equal
  rw [← epoch, ← holder]
  exact agrees b memberB (subjectB.trans subject)

theorem subjects_congr (same : stated.map (·.content) = stated'.map (·.content)) :
    subjects stated = subjects stated' := by
  have mapped : ∀ l : List WitnessAttestation, l.map WitnessAttestation.subject =
      (l.map (·.content)).map fun c => keyFor c.1 c.2.1 := by
    intro l
    rw [List.map_map]
    rfl
  rw [subjects, subjects, mapped, mapped, same]

end Content

end WitnessLog

namespace Twins

open WitnessLog (Agrees subjects)

def fresh (config : WitnessConfig) (clock : Step) : Twins :=
  ⟨⟨.fresh config clock, []⟩, ⟨.fresh config clock, []⟩⟩

/-- A restart clears the memory of one of the two. -/
def after (clock : Step) (t : Twins) : WitnessMove → Twins
  | .attest request => ⟨t.restarted.receive request, t.steady.receive request⟩
  | .restart =>
    { t with restarted := { t.restarted with
        service := .fresh t.restarted.service.config clock } }

/-- What the restarted witness states the other one states as well. -/
def Vouched (t : Twins) : WitnessMove → Prop
  | .attest request => ∀ a s,
      (WitnessService.attest request).exec t.restarted.service = (.ok a, s) →
      ∃ b s', (WitnessService.attest request).exec t.steady.service = (.ok b, s') ∧
        b.content = a.content
  | .restart => True

/-- The request agrees with all the restarted witness has ever stated, and a witness that
has forgotten none of it has room for one more. -/
structure Recalled (t : Twins) (request : AttestRequest) : Prop where
  agrees : Agrees t.restarted.stated request
  room : request.subject ∈ subjects t.restarted.stated ∨
    (subjects t.restarted.stated).length < t.restarted.service.config.maxSubjects.toNat
  sequence : t.restarted.stated.length < maxWord.toNat
  clock : t.steady.service.clock ≠ maxWord

def Recalls (t : Twins) : WitnessMove → Prop
  | .attest request => t.restarted.service.Admits request → Recalled t request
  | .restart => True

/-- The two have said the same, and the restarted one remembers no more of it. -/
structure Coupled (clock : Step) (t : Twins) : Prop where
  kept : t.steady.Kept
  stated : t.restarted.stated.map (·.content) = t.steady.stated.map (·.content)
  memory : ∀ k p, t.restarted.service.subjects.find k = some p →
    ∃ q, t.steady.service.subjects.find k = some q ∧ q.epoch = p.epoch ∧ q.holder = p.holder
  sequence : t.restarted.service.lastSequence ≤ t.steady.service.lastSequence
  behind : t.restarted.service.clock ≤ t.steady.service.clock
  start : clock ≤ t.steady.service.clock
  config : t.restarted.service.config = t.steady.service.config

variable {clock : Step} {t : Twins} {request : AttestRequest}

theorem coupled_fresh (config : WitnessConfig) (clock : Step) : Coupled clock (fresh config clock) where
  kept := WitnessLog.kept_fresh config clock
  stated := rfl
  memory := fun _ _ found => by cases found
  sequence := le_rfl
  behind := le_rfl
  start := le_rfl
  config := rfl

theorem ne_maxWord_of_le {a b : UInt64} (below : a ≤ b) (room : b ≠ maxWord) : a ≠ maxWord :=
  fun full => room (le_antisymm (le_maxWord b) (full ▸ below))

/-- A table that remembers less has room wherever the larger one has. -/
theorem Coupled.room (coupled : t.Coupled clock) {k : SubjectKey}
    (forgotten : t.restarted.service.subjects.find k = none)
    (room : t.steady.service.subjects.find k = none →
      t.steady.service.subjects.size < t.steady.service.config.maxSubjects.toNat) :
    t.restarted.service.subjects.size < t.restarted.service.config.maxSubjects.toNat := by
  have inside : ∀ x ∈ t.restarted.service.subjects.rows.map AttestedSubject.key,
      x ∈ t.steady.service.subjects.rows.map AttestedSubject.key := by
    intro x member
    obtain ⟨p, found⟩ := Option.isSome_iff_exists.mp (SortedTable.mem_keys.mp member)
    obtain ⟨q, found', -⟩ := coupled.memory x p found
    exact SortedTable.mem_keys.mpr (by rw [found']; rfl)
  have distinct := SortedTable.keys_nodup t.restarted.service.subjects
  rw [coupled.config]
  cases known : t.steady.service.subjects.find k with
  | none =>
    have fewer := (List.subperm_of_subset distinct inside).length_le
    rw [List.length_map, List.length_map] at fewer
    exact lt_of_le_of_lt fewer (room known)
  | some q =>
    have absent : k ∉ t.restarted.service.subjects.rows.map AttestedSubject.key := by
      rw [SortedTable.mem_keys, forgotten]
      exact Bool.false_ne_true
    have member : k ∈ t.steady.service.subjects.rows.map AttestedSubject.key :=
      SortedTable.mem_keys.mpr (by rw [known]; rfl)
    have all : (k :: t.restarted.service.subjects.rows.map AttestedSubject.key) ⊆
        t.steady.service.subjects.rows.map AttestedSubject.key :=
      List.cons_subset.mpr ⟨member, inside⟩
    have fewer := (List.subperm_of_subset (distinct.cons absent) all).length_le
    rw [List.length_cons, List.length_map, List.length_map] at fewer
    exact lt_of_lt_of_le fewer coupled.kept.bounded

/-- The restarted witness refuses nothing that the other one admits. -/
theorem Coupled.admits (coupled : t.Coupled clock) (admits : t.steady.service.Admits request) :
    t.restarted.service.Admits request where
  domain := admits.domain
  scope := admits.scope
  holder := admits.holder
  step := admits.step
  clock := ne_maxWord_of_le coupled.behind admits.clock
  sequence := ne_maxWord_of_le coupled.sequence admits.sequence
  memory := by
    have memory := admits.memory
    unfold WitnessService.Accommodates at memory ⊢
    cases found : t.restarted.service.subjects.find
        (keyFor request.subjectDomain request.subjectScope.digest) with
    | none =>
      refine coupled.room found fun unknown => ?_
      simpa only [unknown] using memory
    | some p =>
      obtain ⟨q, known, epoch, holder⟩ := coupled.memory _ p found
      obtain ⟨incarnation, token⟩ := Prod.mk.inj holder
      simp only [known] at memory
      simpa only [← epoch, ← incarnation, ← token] using memory

theorem Coupled.recalled_iff (coupled : t.Coupled clock)
    (admits : t.restarted.service.Admits request) :
    t.steady.service.Admits request ↔ t.Recalled request := by
  have subjects := WitnessLog.subjects_congr coupled.stated
  have length : t.restarted.stated.length = t.steady.service.lastSequence.toNat := by
    have same := congrArg List.length coupled.stated
    rw [List.length_map, List.length_map] at same
    rw [same, coupled.kept.sequence]
  have accommodates := coupled.kept.accommodates_iff request
  rw [← subjects, ← coupled.config] at accommodates
  constructor
  · intro steady
    obtain ⟨agrees, room⟩ := accommodates.mp steady.memory
    refine ⟨WitnessLog.agrees_congr coupled.stated.symm agrees, room, ?_, steady.clock⟩
    rw [length]
    exact UInt64.lt_iff_toNat_lt.mp (lt_of_le_of_ne (le_maxWord _) steady.sequence)
  · intro recalled
    have agrees := WitnessLog.agrees_congr coupled.stated recalled.agrees
    refine ⟨admits.domain, admits.scope, admits.holder, admits.step, recalled.clock,
      accommodates.mpr ⟨agrees, recalled.room⟩, fun full => ?_⟩
    have short := recalled.sequence
    rw [length, full] at short
    exact lt_irrefl _ short

theorem vouched_attest_iff : t.Vouched (.attest request) ↔
    (t.restarted.service.Admits request → t.steady.service.Admits request) := by
  constructor
  · intro vouched admits
    obtain ⟨b, s', ran, -⟩ := vouched _ _ (WitnessService.attest_exec admits)
    exact (WitnessService.attest_accepted ran).1
  · intro follows a s ran
    obtain ⟨admits, rfl, -⟩ := WitnessService.attest_accepted ran
    exact ⟨_, _, WitnessService.attest_exec (follows admits), rfl⟩

theorem Coupled.seconded_iff (coupled : t.Coupled clock) (move : WitnessMove) :
    t.Vouched move ↔ t.Recalls move := by
  cases move with
  | restart => exact Iff.rfl
  | attest request =>
    rw [vouched_attest_iff]
    exact forall_congr' fun admits => coupled.recalled_iff admits

theorem Coupled.clocks (coupled : t.Coupled clock) (request : AttestRequest) :
    (t.restarted.receive request).service.clock ≤ (t.steady.receive request).service.clock ∧
      clock ≤ (t.steady.receive request).service.clock := by
  rw [WitnessLog.receive_service, WitnessLog.receive_service]
  exact ⟨WitnessService.attest_clock_le coupled.behind,
    coupled.start.trans WitnessService.clock_le_attest⟩

/-- Both witnesses admit the request. -/
theorem Coupled.stating (coupled : t.Coupled clock)
    (admits : t.restarted.service.Admits request) (admits' : t.steady.service.Admits request) :
    (t.after clock (.attest request)).Coupled clock := by
  have kept := coupled.kept.receive request
  obtain ⟨behind, start⟩ := coupled.clocks request
  refine ⟨kept, ?_, fun k p found => ?_, ?_, behind, start, ?_⟩
  · simp only [after, WitnessLog.receive_admitted admits, WitnessLog.receive_admitted admits',
      List.map_append, coupled.stated]
    rfl
  · simp only [after, WitnessLog.receive_admitted admits, WitnessLog.receive_admitted admits',
      WitnessService.attested_find] at found ⊢
    by_cases here : request.subject = k
    · rw [if_pos here] at found
      cases found
      rw [if_pos here]
      exact ⟨_, rfl, rfl, rfl⟩
    · rw [if_neg here] at found ⊢
      exact coupled.memory k p found
  · simp only [after, WitnessLog.receive_admitted admits, WitnessLog.receive_admitted admits']
    show t.restarted.service.lastSequence + 1 ≤ t.steady.service.lastSequence + 1
    rw [UInt64.le_iff_toNat_le, toNat_succ admits.sequence, toNat_succ admits'.sequence]
    exact Nat.succ_le_succ (UInt64.le_iff_toNat_le.mp coupled.sequence)
  · simp only [after, WitnessLog.receive_config, coupled.config]

theorem Coupled.refusing (coupled : t.Coupled clock)
    (refuses : ¬ t.restarted.service.Admits request)
    (refuses' : ¬ t.steady.service.Admits request) :
    (t.after clock (.attest request)).Coupled clock := by
  have kept := coupled.kept.receive request
  obtain ⟨behind, start⟩ := coupled.clocks request
  obtain ⟨refusal, stated⟩ := WitnessLog.receive_refused refuses
  obtain ⟨refusal', stated'⟩ := WitnessLog.receive_refused refuses'
  refine ⟨kept, ?_, fun k p found => ?_, ?_, behind, start, ?_⟩
  · simp only [after, stated, stated', coupled.stated]
  · simp only [after, refusal.subjects, refusal'.subjects] at found ⊢
    exact coupled.memory k p found
  · simp only [after, refusal.sequence, refusal'.sequence, coupled.sequence]
  · simp only [after, refusal.config, refusal'.config, coupled.config]

theorem Coupled.after (coupled : t.Coupled clock) (move : WitnessMove) (vouched : t.Vouched move) :
    (t.after clock move).Coupled clock := by
  cases move with
  | attest request =>
    by_cases admits : t.restarted.service.Admits request
    · exact coupled.stating admits (vouched_attest_iff.mp vouched admits)
    · exact coupled.refusing admits fun admits' => admits (coupled.admits admits')
  | restart =>
    exact ⟨coupled.kept, coupled.stated, fun _ _ found => (by cases found), UInt64.zero_le,
      coupled.start, coupled.start, coupled.config⟩

/-- In a run the restarted witness states only what the other one states exactly when every
request it admits agrees with all it ever stated, and the other has the room to admit it. -/
theorem vouched_iff (config : WitnessConfig) (clock : Step) (moves : List WitnessMove) :
    Each (after clock) Vouched (fresh config clock) moves ↔
      Each (after clock) Recalls (fresh config clock) moves := by
  have keeps : ∀ t m, Coupled clock t → Vouched t m → Coupled clock (after clock t m) :=
    fun _ m coupled vouched => coupled.after m vouched
  have agree : ∀ t m, Coupled clock t → (Vouched t m ↔ Recalls t m) :=
    fun _ m coupled => coupled.seconded_iff m
  exact each_congr keeps agree (coupled_fresh config clock)

section Forgotten

theorem forgottenExtent_named : (Id.make [120] : ExtentId).isEmpty = false := by decide

/-- The claim of an incarnation to epoch one of a scope. -/
def forgottenClaim (incarnation : IncarnationId) : AttestRequest where
  subjectDomain := Id.make [100]
  subjectScope := Scope.single (Id.make [120]) forgottenExtent_named
  epoch := 1
  incarnation := incarnation
  fenceToken := 1
  requesterStep := 1

def forgottenConfig : WitnessConfig :=
  { witness := Id.make [119], faultDomain := Id.make [102] }

def forgottenTwins : Twins :=
  ((fresh forgottenConfig 1).after 1 (.attest (forgottenClaim 7))).after 1 .restart

/-- After a restart a second incarnation gets its statement for the same epoch. -/
theorem restart_forgets : ¬ ∀ config clock moves,
    Each (after clock) Vouched (fresh config clock) moves := by
  intro vouched
  obtain ⟨-, -, later, -⟩ :=
    vouched forgottenConfig 1 [.attest (forgottenClaim 7), .restart, .attest (forgottenClaim 8)]
  have issued : ((WitnessService.attest (forgottenClaim 8)).exec
      forgottenTwins.restarted.service).1.isOk = true := by decide +kernel
  have refused : ((WitnessService.attest (forgottenClaim 8)).exec
      forgottenTwins.steady.service).1.isOk = false := by decide +kernel
  rcases ran : (WitnessService.attest (forgottenClaim 8)).exec
    forgottenTwins.restarted.service with ⟨r, s⟩
  rw [ran] at issued
  cases r with
  | error st => cases issued
  | ok a =>
    obtain ⟨b, s', ran', -⟩ := later a s ran
    change (WitnessService.attest (forgottenClaim 8)).exec forgottenTwins.steady.service = _ at ran'
    rw [ran'] at refused
    cases refused

end Forgotten

end Twins

end SplitBrainFabric
