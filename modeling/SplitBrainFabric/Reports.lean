import SplitBrainFabric.Answers
import SplitBrainFabric.ClientLink
import SplitBrainFabric.Provenance
import SplitBrainFabric.Retries

/-! What a coordinator may believe of its own report. An attempt that it books as applied is a
commit that the registry performed, for whatever lies between the two. -/

namespace SplitBrainFabric
open Words Runs

/-- An attempt shows what was asked of the registry, and what it answered. -/
structure MutationAttempt.Shows (a : MutationAttempt) (config : CoordinatorConfig)
    (operation : Bytes) (request : CommitRequest) (response : CommitResponse) : Prop where
  domain : request.domain = config.domain
  scope : request.scope = config.scope
  epoch : request.epoch = a.epoch
  attempt : request.attemptSequence = a.attempt
  payload : request.payloadDigest = operationDigest operation a.attempt
  worded : request.operation = operation
  token : response.admittedToken = a.fenceToken
  sequence : response.storeSequence = a.storeSequence
  digest : response.effectDigest = a.effectDigest

/-- A record of the effect log is what an attempt says was done. -/
structure MutationAttempt.Stands (a : MutationAttempt) (config : CoordinatorConfig)
    (operation : Bytes) (record : MutationRecord) : Prop where
  domain : record.domain = config.domain
  scope : record.scope = config.scope
  epoch : record.epoch = a.epoch
  token : record.fenceToken = a.fenceToken
  sequence : record.storeSequence = a.storeSequence
  payload : record.payloadDigest = operationDigest operation a.attempt
  worded : record.operation = operation
  digest : record.recordDigest = a.effectDigest

/-- What an attempt saw of its requests is what came of them. -/
def AttemptTrace.Heard (told : RegistryRequest → Exchange → Prop) (replies : AttemptReplies)
    (trace : AttemptTrace) : Prop :=
  ∀ p ∈ trace.sent.zip [replies.decide, replies.commit], told p.1 p.2

theorem classify_applied {st : Status} (applied : classify st = .applied) : st.isOk = true := by
  unfold classify at applied
  unfold Status.isOk
  split at applied
  all_goals first
    | (rename_i outcome; rw [outcome]; rfl)
    | cases applied

theorem classify_verified (st : Status) : classify st ≠ .acknowledgedNotVerified := by
  unfold classify
  split <;> exact nofun

namespace CoordinatorReport

theorem push_mem {attempt a : MutationAttempt} {report : CoordinatorReport}
    (member : a ∈ (report.push attempt).attempts) : a ∈ report.attempts ∨ a = attempt := by
  unfold push at member
  split at member
  · exact (List.mem_append.mp member).imp_right List.mem_singleton.mp
  · exact .inl member

theorem bookRefusal_attempts (outcome : MutationOutcome) (report : CoordinatorReport) :
    (report.bookRefusal outcome).attempts = report.attempts := by
  cases outcome <;> rfl

theorem bookCommit_attempts (outcome : MutationOutcome) (report : CoordinatorReport) :
    (report.bookCommit outcome).attempts = report.attempts := by
  cases outcome <;> rfl

end CoordinatorReport

namespace Mutation

variable {operation : Bytes} {replies : AttemptReplies} {m m' : Mutation}

/-- What becomes of an attempt: nothing that it could book as applied, a decision that says
`Ok` without authority, or an answer to a commit. -/
inductive Fate (operation : Bytes) (replies : AttemptReplies) (config : CoordinatorConfig) :
    List RegistryRequest → MutationAttempt → Prop
  | lost {sent : List RegistryRequest} {a : MutationAttempt} (failed : a.outcome ≠ .applied)
    (verified : a.outcome ≠ .acknowledgedNotVerified) : Fate operation replies config sent a
  | denied {request : DecideRequest} {response : DecideResponse} {a : MutationAttempt}
    (exclusive : request.mode = .exclusiveMutation)
    (heard : replies.decide.response .decideResponse DecideResponse.decode = .ok response)
    (ok : response.status.isOk = true) (bare : response.decision.isAuthoritative = false)
    (verified : a.outcome ≠ .acknowledgedNotVerified) :
    Fate operation replies config [.decide request] a
  | answered {decided : DecideRequest} {request : CommitRequest} {response : CommitResponse}
    {a : MutationAttempt}
    (heard : replies.commit.response .commitResponse CommitResponse.decode = .ok response)
    (ok : response.status.isOk = true) (shows : a.Shows config operation request response)
    (outcome : a.outcome = if response.verified then .applied else .acknowledgedNotVerified) :
    Fate operation replies config [.decide decided, .commit request] a

/-- One attempt more, and what became of it. -/
structure Books (operation : Bytes) (replies : AttemptReplies) (m m' : Mutation)
    (trace : AttemptTrace) (a : MutationAttempt) : Prop where
  traces : m'.traces = m.traces ++ [trace]
  config : m'.coordinator.config = m.coordinator.config
  attempts : ∀ b ∈ m'.report.attempts, b ∈ m.report.attempts ∨ b = a
  fate : Fate operation replies m.coordinator.config trace.sent a

theorem books_of {c : Coordinator} {report : CoordinatorReport} {attempt : MutationAttempt}
    {refused : Bool} {sent : List RegistryRequest} (traces : m'.traces = m.record c refused)
    (config : m'.coordinator.config = m.coordinator.config)
    (pushed : m'.report.attempts = (report.push attempt).attempts)
    (booked : report.attempts = m.report.attempts)
    (grown : c.client.sent = m.coordinator.client.sent ++ sent)
    (fate : Fate operation replies m.coordinator.config sent attempt) :
    ∃ trace a, Books operation replies m m' trace a := by
  refine ⟨_, attempt, traces, config, fun b member => ?_, ?_⟩
  · rw [pushed] at member
    exact booked ▸ CoordinatorReport.push_mem member
  · rw [grown, List.drop_left]
    exact fate

end Mutation

namespace Coordinator

variable {c c' : Coordinator} {exchange : Exchange}

/-- A decision comes from an answer to a decide on a mutation; without one the verdict stays
unknown. -/
theorem evaluate_asks {bundle : EvidenceBundle} {answer : Status × AuthorityDecision}
    (ran : c.evaluate bundle exchange = (answer, c')) :
    ∃ client sent, c' = { c with client := client } ∧ client.sent = c.client.sent ++ sent ∧
      ((∃ st, answer = (st, {})) ∨ ∃ request response, sent = [.decide request] ∧
        request.mode = .exclusiveMutation ∧
        exchange.response .decideResponse DecideResponse.decode = .ok response ∧
        answer = (if response.status.isOk then .ok else response.status, response.decision)) := by
  unfold evaluate at ran
  simp only at ran
  rcases decided : (RegistryClient.decide _ exchange).exec c.client with ⟨r, client⟩
  rw [decided] at ran
  rcases RegistryClient.ask_spec decided with ⟨-, rfl, st, rfl⟩ | ⟨-, sent, got, -⟩
  · cases ran
    exact ⟨c.client, [], rfl, (List.append_nil _).symm, .inl ⟨st, rfl⟩⟩
  cases r with
  | error st =>
    cases ran
    exact ⟨client, _, rfl, sent, .inl ⟨st, rfl⟩⟩
  | ok response =>
    cases ran
    exact ⟨client, _, rfl, sent, .inr ⟨_, response, rfl, rfl, got.symm, rfl⟩⟩

theorem commit_asks {operation : Bytes} {r : Except Status CommitResponse}
    (ran : c.commit operation exchange = (r, c')) :
    ∃ client sent, c' = { c with client := client } ∧ client.sent = c.client.sent ++ sent ∧
      ∀ response, r = .ok response → ∃ request, sent = [.commit request] ∧
        exchange.response .commitResponse CommitResponse.decode = .ok response ∧
        ∀ a : MutationAttempt, a.attempt = c.attemptSequence → a.epoch = c.epoch →
          a.fenceToken = response.admittedToken → a.storeSequence = response.storeSequence →
          a.effectDigest = response.effectDigest →
          a.Shows c.config operation request response := by
  unfold commit at ran
  simp only at ran
  rcases committed : (RegistryClient.commit _ exchange).exec c.client with ⟨r', client⟩
  rw [committed] at ran
  cases ran
  rcases RegistryClient.ask_spec committed with ⟨-, rfl, st, rfl⟩ | ⟨-, sent, got, -⟩
  · exact ⟨c.client, [], rfl, (List.append_nil _).symm, fun response none => by cases none⟩
  · refine ⟨client, _, rfl, sent, fun response ok => ⟨_, rfl, got.symm.trans ok, ?_⟩⟩
    intro a attempt epoch token sequence digest
    exact ⟨rfl, rfl, epoch.symm, attempt.symm, by rw [attempt], rfl, token.symm, sequence.symm,
      digest.symm⟩

end Coordinator

namespace Mutation

variable {operation : Bytes} {replies : AttemptReplies} {m m' : Mutation}

/-- An attempt asks for a decision, and with one that permits it for a commit. -/
theorem turn_books (m : Mutation) :
    ∃ trace a, Books operation replies m (turn operation replies m) trace a := by
  unfold turn
  simp only
  obtain ⟨witnesses, gathered⟩ := m.coordinator.evidence_keeps replies.statements
  rcases heard : m.coordinator.evidence replies.statements with ⟨bundle, c⟩
  rw [heard] at gathered
  simp only at gathered
  subst gathered
  simp only
  rcases judged : Coordinator.evaluate bundle replies.decide
    { m.coordinator with witnesses := witnesses } with ⟨⟨evaluated, decision⟩, c₁⟩
  obtain ⟨client, sent, rfl, grown, asked⟩ := Coordinator.evaluate_asks judged
  have grown : client.sent = m.coordinator.client.sent ++ sent := grown
  simp only
  split
  · rename_i denied
    refine books_of rfl rfl rfl (CoordinatorReport.bookRefusal_attempts _ _) grown ?_
    rcases asked with ⟨st, same⟩ | ⟨request, response, rfl, exclusive, heard, same⟩
    · cases same
      exact .lost nofun nofun
    cases same
    have verified : (if response.decision.verdict = .unknown then .unknown
        else classify (if (if response.status.isOk then .ok else response.status).isOk then
          response.decision.status else if response.status.isOk then .ok else response.status)) ≠
        MutationOutcome.acknowledgedNotVerified := by
      split
      · exact nofun
      · exact classify_verified _
    cases ok : response.status.isOk with
    | true =>
      simp only [ok, if_true] at denied verified ⊢
      exact .denied exclusive heard ok (denied.resolve_left nofun) verified
    | false =>
      simp only [ok, Bool.false_eq_true, if_false] at verified ⊢
      refine .lost (fun applied => ?_) verified
      split at applied
      · cases applied
      · cases (classify_applied applied).symm.trans ok
  rename_i permitted
  rcases finished : Coordinator.commit operation replies.commit
    { m.coordinator with witnesses := witnesses, client := client } with ⟨committed, c₂⟩
  obtain ⟨client', sent', rfl, grown', answers⟩ := Coordinator.commit_asks finished
  have both : client'.sent = m.coordinator.client.sent ++ (sent ++ sent') := by
    rw [← List.append_assoc, ← grown]
    exact grown'
  cases committed with
  | error st => exact books_of rfl rfl rfl rfl both (.lost nofun nofun)
  | ok response =>
    obtain ⟨request, rfl, heard, shows⟩ := answers response rfl
    simp only
    split
    · rename_i barred
      refine books_of rfl rfl rfl (CoordinatorReport.bookCommit_attempts _ _) both ?_
      refine .lost (fun applied => ?_) (classify_verified _)
      cases (classify_applied applied).symm.trans barred
    rename_i fine
    rcases asked with ⟨st, same⟩ | ⟨decided, _, rfl, -, -, -⟩
    · cases same
      exact absurd (.inr rfl) permitted
    refine books_of rfl rfl rfl ?_ both (.answered heard (by simpa using fine)
      (shows _ rfl rfl rfl rfl rfl) rfl)
    split
    · rfl
    · rfl

/-- A round of the loop is an attempt, unless the attempts cannot be numbered any more. -/
theorem attempt_books {r : Except Status PUnit}
    (ran : (attempt operation replies).exec m = (r, m')) :
    ((∃ st, r = .error st) ∧ m'.traces = m.traces ∧ m'.coordinator.config = m.coordinator.config ∧
      m'.report.attempts = m.report.attempts) ∨
    r = .ok ⟨⟩ ∧ ∃ trace a, Books operation replies m m' trace a := by
  rw [attempt, Prog.exec_modify_bind, Prog.exec_get_bind, Prog.exec_refuseIf] at ran
  split at ran
  · cases ran
    exact .inl ⟨⟨_, rfl⟩, rfl, rfl, rfl⟩
  · cases ran
    obtain ⟨trace, a, books⟩ := @turn_books operation replies { m with
      report := { m.report with attempted := m.report.attempted + 1 }
      coordinator := { m.coordinator with
        attemptSequence := m.coordinator.attemptSequence + 1 } }
    exact .inr ⟨rfl, trace, a, books.traces, books.config, books.attempts, books.fate⟩

section Belief

variable {told : RegistryRequest → Exchange → Prop} {config : CoordinatorConfig}
  {a : MutationAttempt}

/-- What comes of the requests to a registry that means what it says: no bare `Ok` to a decide
on a mutation, and no commit that it does not vouch for. -/
structure Vouches (told : RegistryRequest → Exchange → Prop) : Prop where
  decides : ∀ request exchange response, told (.decide request) exchange →
    request.mode = .exclusiveMutation →
    exchange.response .decideResponse DecideResponse.decode = .ok response →
    response.status.isOk = true → response.decision.isAuthoritative = true
  commits : ∀ request exchange response, told (.commit request) exchange →
    exchange.response .commitResponse CommitResponse.decode = .ok response →
    response.status.isOk = true → response.verified = true

/-- An attempt that is booked as applied shows a commit that was answered with `Ok`. -/
def Believable (told : RegistryRequest → Exchange → Prop) (config : CoordinatorConfig)
    (operation : Bytes) (a : MutationAttempt) : Prop :=
  a.outcome ≠ .acknowledgedNotVerified ∧ (a.outcome = .applied →
    ∃ request response exchange, told (.commit request) exchange ∧
      exchange.response .commitResponse CommitResponse.decode = .ok response ∧
      response.status.isOk = true ∧ a.Shows config operation request response)

theorem Fate.believable {trace : AttemptTrace} (vouches : Vouches told)
    (fate : Fate operation replies config trace.sent a) (heard : trace.Heard told replies) :
    Believable told config operation a := by
  obtain ⟨refused, sent⟩ := trace
  simp only at fate
  cases fate with
  | lost failed verified => exact ⟨verified, fun applied => absurd applied failed⟩
  | denied exclusive answer ok bare verified =>
    have granted := vouches.decides _ _ _ (heard _ List.mem_cons_self) exclusive answer ok
    cases granted.symm.trans bare
  | answered answer ok shows outcome =>
    have committed := heard _ (List.mem_cons_of_mem _ List.mem_cons_self)
    have verified := vouches.commits _ _ _ committed answer ok
    rw [verified] at outcome
    refine ⟨?_, fun _ => ⟨_, _, _, committed, answer, ok, shows⟩⟩
    rw [outcome]
    exact nofun

/-- The induction over the attempts. -/
theorem loop_believable (vouches : Vouches told) {l : List AttemptReplies} {m m' : Mutation}
    {r : Except Status PUnit} (ran : (l.forM (attempt operation)).exec m = (r, m')) :
    ∃ traces, m'.traces = m.traces ++ traces ∧ m'.coordinator.config = m.coordinator.config ∧
      ((∀ p ∈ traces.zip l, p.1.Heard told p.2) → ∀ a ∈ m'.report.attempts,
        a ∈ m.report.attempts ∨ Believable told m.coordinator.config operation a) := by
  induction l generalizing m with
  | nil =>
    cases ran
    exact ⟨[], (List.append_nil _).symm, rfl, fun _ a member => .inl member⟩
  | cons replies rest ih =>
    rw [Prog.forM_cons, Prog.exec_bind] at ran
    rcases tried : (attempt operation replies).exec m with ⟨result, m₁⟩
    rw [tried] at ran
    rcases attempt_books tried with ⟨⟨st, rfl⟩, traces, config, attempts⟩ |
      ⟨rfl, trace, a, books⟩
    · cases ran
      refine ⟨[], traces.trans (List.append_nil _).symm, config, fun _ a member => .inl ?_⟩
      rwa [attempts] at member
    · obtain ⟨traces, logged, config, later⟩ := ih ran
      refine ⟨trace :: traces, ?_, config.trans books.config, fun heard b member => ?_⟩
      · rw [logged, books.traces, List.append_assoc]
        rfl
      obtain ⟨now, heard⟩ := List.forall_mem_cons.mp heard
      rcases later heard b member with old | believable
      · rcases books.attempts b old with older | rfl
        · exact .inl older
        · exact .inr (books.fate.believable vouches now)
      · rw [books.config] at believable
        exact .inr believable

theorem enter_keeps {exchange : Exchange} {m m' : Mutation} {r : Except Status PUnit}
    (ran : (enter exchange).exec m = (r, m')) : m'.coordinator.config = m.coordinator.config ∧
      m'.report.attempts = m.report.attempts := by
  have acquires : (Coordinator.acquireAuthority exchange).Keeps
      (·.config = m.coordinator.config) := by
    refine .get fun c same => .refuseIf fun _ => .refuseIf fun _ =>
      .bind (.modify fun _ same => same) fun _ => .bind (.of_run fun c r c' same ran => ?_) fun _ => .refuseIf fun _ =>
        .modify fun _ same => same
    rw [Prog.exec_zoom] at ran
    cases ran
    exact same
  rw [enter, Prog.exec_get_bind, Prog.exec_ite] at ran
  split at ran
  · cases ran
    exact ⟨rfl, rfl⟩
  rcases acquired : (Coordinator.acquireAuthority exchange).exec m.coordinator with ⟨result, c⟩
  have config : c.config = m.coordinator.config := acquires.run rfl acquired
  rw [acquired] at ran
  cases result with
  | ok u =>
    cases ran
    exact ⟨config, rfl⟩
  | error st =>
    cases ran
    exact ⟨config, rfl⟩

/-- A whole call, from an empty report. -/
theorem mutate_believable (vouches : Vouches told) {count : UInt64} {services : Services}
    {r : Except Status PUnit} (fresh : m.report.attempts = [])
    (ran : (Coordinator.mutate operation count services).exec m = (r, m'))
    (heard : ∀ p ∈ m'.traces.zip (services.first count.toNat), p.1.Heard told p.2) :
    ∀ a ∈ m'.report.attempts, Believable told m.coordinator.config operation a := by
  rw [Coordinator.mutate, Prog.exec_modify_bind, Prog.exec_refuseIf] at ran
  split at ran
  · cases ran
    intro a member
    have member : a ∈ m.report.attempts := member
    rw [fresh] at member
    cases member
  rw [Prog.exec_modify_bind, Prog.exec_bind] at ran
  rcases entered : (enter services.allocation).exec { m with traces := [], report := {} }
    with ⟨result, m₁⟩
  rw [entered] at ran
  obtain ⟨config, attempts⟩ := enter_keeps entered
  have traces : m₁.traces = [] := (enter_cases entered).1
  have attempts : m₁.report.attempts = [] := attempts
  have config : m₁.coordinator.config = m.coordinator.config := config
  cases result with
  | error st =>
    cases ran
    rw [attempts]
    exact List.forall_mem_nil _
  | ok u =>
    simp only at ran
    rw [Prog.exec_bind] at ran
    rcases looped : ((services.first count.toNat).forM (attempt operation)).exec m₁
      with ⟨ended, m₂⟩
    rw [looped] at ran
    obtain ⟨logged, log, -, believable⟩ := loop_believable vouches looped
    have same : m'.traces = m₂.traces ∧ m'.report.attempts = m₂.report.attempts := by
      cases ended with
      | ok u => cases ran; exact ⟨rfl, rfl⟩
      | error st => cases ran; exact ⟨rfl, rfl⟩
    rw [traces, List.nil_append] at log
    rw [same.1, log] at heard
    rw [same.2, ← config]
    intro a member
    refine (believable heard a member).resolve_left fun old => ?_
    rw [attempts] at old
    cases old

end Belief

end Mutation

/-- A commit that succeeds answers with the record that it has put into the effect log. -/
theorem Work.commit_records {w w' : Work} {request : CommitRequest} {now : Step} {io : AppendIo}
    {response : CommitResponse} (ran : (commit request now io).exec w = (.ok response, w')) :
    response.verified = true ∧ ∃ record ∈ w'.state.fabric.records,
      record = (effectCall request now).record w.state.fabric ∧
      response.admittedToken = record.fenceToken ∧
      response.storeSequence = record.storeSequence ∧
      response.effectDigest = record.recordDigest := by
  generalize answered : (Except.ok response : Except CommitResponse CommitResponse) = r at ran
  cases commit_mutates ran with
  | refused refusal fails => cases answered
  | barred names worded holds admitted => cases answered
  | written names worded holds admitted emitted =>
    rename_i g record fabric result
    cases result with
    | error st => cases answered
    | ok u =>
      cases answered
      obtain ⟨-, same, -, -, accepted, -⟩ :=
        @MutationCall.admit_ok (effectCall request now) _ _ _ _ admitted
      have kept : w'.state.fabric = fabric := (emit_setup emitted).fabric
      refine ⟨rfl, record, ?_, same, rfl, rfl, rfl⟩
      rw [kept, accepted]
      exact List.mem_append_right _ (List.mem_singleton_self record)

/-- The exchange is one that the end of a connection logged for the request. -/
def ClientEnd.Logs (c : ClientEnd) (request : RegistryRequest) (exchange : Exchange) : Prop :=
  ∃ entry ∈ c.log, entry.1 = requestFrame request.type entry.1.header.requestId request.encode ∧
    entry.2.exchange = exchange

namespace Linked

variable {k : Nat} {s : Linked}

/-- A frame that is served by an event is the next one, and the hub goes on as it would. -/
theorem after_served {event : LinkEvent} {p : Frame × Frame}
    (served : p ∈ (s.after k event).link.served) : p ∈ s.link.served ∨
      ∃ io part, event = .serve io part ∧ s.hub.replies k io = some p ∧
        (s.after k (.serve io part)).hub = s.hub.after (.serve k io part.isNone) := by
  cases event with
  | serve io part =>
    rw [Linked.after] at served
    split at served
    · exact .inl served
    rename_i frame reply next
    cases part with
    | none =>
      refine (List.mem_append.mp served).imp_right fun last => ?_
      obtain rfl := List.mem_singleton.mp last
      refine ⟨io, none, rfl, next, ?_⟩
      simp only [Linked.after, next]
      rfl
    | some n =>
      simp only at served
      split at served
      · refine (List.mem_append.mp served).imp_right fun last => ?_
        obtain rfl := List.mem_singleton.mp last
        refine ⟨io, some n, rfl, next, ?_⟩
        simp only [Linked.after, next, if_pos ‹n < _›]
        rfl
      · exact .inl served
  | hub event =>
    rw [Linked.after] at served
    split at served
    · exact .inl served
    · exact .inl served
  | deliver n =>
    rw [Linked.after] at served
    split at served
    · exact .inl served
    · exact .inl served
  | hangUp => exact .inl served
  | ask type request payload =>
    simp only [Linked.after] at served
    split at served
    · exact .inl served
    · exact .inl served
  | askPart type request payload n why =>
    simp only [Linked.after] at served
    split at served
    · exact .inl served
    · exact .inl served
  | receive n =>
    rw [Linked.after] at served
    split at served
    · exact .inl served
    · exact .inl served
  | lose why => exact .inl served

/-- A frame that was served was served by an event. -/
theorem served_origin {service : RegistryService} {events : List LinkEvent} {p : Frame × Frame}
    (served : p ∈ (run (after k) { hub := RegistryHub.opened service } events).link.served) :
    ∃ before io part rest, events = before ++ .serve io part :: rest ∧
      let s := run (after k) { hub := RegistryHub.opened service } before
      s.hub.replies k io = some p ∧
        (s.after k (.serve io part)).hub = s.hub.after (.serve k io part.isNone) := by
  have origin := run_origin (I := fun _ => True) (H := fun (s : Linked) p => p ∈ s.link.served)
    (C := fun s e p => ∃ io part, e = .serve io part ∧ s.hub.replies k io = some p ∧
      (s.after k (.serve io part)).hub = s.hub.after (.serve k io part.isNone))
    (fun _ _ _ => trivial) (fun _ _ _ _ => after_served)
    (s := { hub := RegistryHub.opened service }) trivial events served
  rcases origin with none | ⟨before, e, rest, split, io, part, rfl, went⟩
  · cases none
  · exact ⟨before, io, part, rest, split, went⟩

/-- An answer that a client logged is the reply to a frame that says what the client asked. -/
theorem Tied.logged (tied : s.Tied k) {request : RegistryRequest} {type : MessageType}
    {payload : Bytes} (logs : s.link.client.Logs request (.answered type payload)) :
    ∃ p ∈ s.link.served, p.1.header.type = request.type ∧ p.1.payload = request.encode ∧
      p.2.header.type = type ∧ p.2.payload = payload := by
  obtain ⟨⟨frame, reply⟩, member, same, exchange⟩ := logs
  cases reply with
  | unwritten why => cases exchange
  | unread why => cases exchange
  | heard answer =>
    cases exchange
    have answers : (frame, answer) ∈ s.link.client.answers :=
      List.mem_filterMap.mpr ⟨_, member, rfl⟩
    have paired := tied.matched.subset (List.mem_map_of_mem (f := fun p : Frame × Frame =>
      (p.1.completed, p.2)) answers)
    obtain ⟨p, served, match'⟩ := List.mem_map.mp paired
    obtain ⟨asked, replied⟩ := Prod.mk.inj match'
    have asked : p.1 = frame.completed := asked
    have replied : p.2.completed = answer := replied
    have same : frame = requestFrame request.type frame.header.requestId request.encode := same
    refine ⟨p, served, ?_, ?_, ?_, ?_⟩
    · rw [asked, same]
      rfl
    · rw [asked, same]
      rfl
    · rw [← replied]
      rfl
    · rw [← replied]
      rfl

end Linked

namespace RegistryHub

variable {h : RegistryHub} {k : Nat} {io : RequestIo}

theorem replies_answer {p : Frame × Frame} (next : h.replies k io = some p) :
    h.Serving k ∧ (h.workers k).pending.head? = some p.1 ∧
      (h.service.answer io p.1 (h.workers k).binding).1.exchange =
        .answered p.2.header.type p.2.payload := by
  unfold replies at next
  simp only at next
  split at next
  · obtain ⟨frame, head, rfl⟩ := Option.map_eq_some_iff.mp next
    exact ⟨‹_›, head, rfl⟩
  · cases next

/-- Serving a commit that is answered with `Ok` puts its record into the effect log. -/
theorem commit_served {frame : Frame} {request : CommitRequest} {response : CommitResponse}
    (written : Bool) (serving : h.Serving k) (head : (h.workers k).pending.head? = some frame)
    (type : frame.header.type = .commitRequest) (payload : frame.payload = request.encode)
    (answer : (h.service.answer io frame (h.workers k).binding).1.exchange.response
      .commitResponse CommitResponse.decode = .ok response) (ok : response.status.isOk = true) :
    response.verified = true ∧ (∃ b, h.committed (.serve k io written) = some (b, request)) ∧
      ∃ record ∈ (h.after (.serve k io written)).service.state.fabric.records,
        record = (Work.effectCall request h.now).record h.service.work.state.fabric ∧
        response.admittedToken = record.fenceToken ∧
        response.storeSequence = record.storeSequence ∧
        response.effectDigest = record.recordDigest := by
  obtain ⟨asks, room, done⟩ := RegistryService.commit_heard type payload answer ok
  have requested : h.requested (.serve k io written) =
      some ((h.workers k).binding, .commit request io.fabric) := by
    have running : k ∈ h.alive ∧ (h.workers k).leaving = false := serving
    simp only [requested, if_pos running, head, Option.bind_some, asks, Option.map_some]
  have commits : ((Work.commit request h.now io.fabric).exec h.service.work).1 = .ok response :=
    done
  rcases ran : (Work.commit request h.now io.fabric).exec h.service.work with ⟨r, w⟩
  rw [ran] at commits
  cases commits
  obtain ⟨verified, record, member, shape⟩ := Work.commit_records ran
  have state : (h.after (.serve k io written)).service.state = w.state := by
    have performed : (h.service.performed (.commit request io.fabric)).state = w.state :=
      congrArg (fun x : Except CommitResponse CommitResponse × Work => x.2.state) ran
    cases requested_performed requested room with
    | silent none same kept => exact same.trans performed
    | written appended same kept => exact same.trans performed
  refine ⟨verified, ⟨(h.workers k).binding, ?_⟩, record, ?_, shape⟩
  · rw [committed, requested]
    simp only [ran]
  · rw [state]
    exact member

end RegistryHub

namespace Linked

variable {k : Nat} {service : RegistryService} {events : List LinkEvent} {exchange : Exchange}

/-- An answer that a client logged came of serving a frame that says what the client asked. -/
theorem logged_origin (tied : (run (after k) { hub := RegistryHub.opened service } events).Tied k)
    {request : RegistryRequest} {ρ : Type} {expected : MessageType} {read : Reader.Read ρ}
    {response : ρ} (heard : exchange.response expected read = .ok response)
    (logs : (run (after k) { hub := RegistryHub.opened service } events).link.client.Logs request
      exchange) :
    ∃ before io part rest frame, events = before ++ .serve io part :: rest ∧
      let s := run (after k) { hub := RegistryHub.opened service } before
      s.hub.Serving k ∧ (s.hub.workers k).pending.head? = some frame ∧
        frame.header.type = request.type ∧ frame.payload = request.encode ∧
        (s.hub.service.answer io frame (s.hub.workers k).binding).1.exchange.response expected
          read = .ok response ∧
        (s.after k (.serve io part)).hub = s.hub.after (.serve k io part.isNone) := by
  cases exchange with
  | unwritten why => cases heard
  | unread why => cases heard
  | answered type payload =>
    obtain ⟨p, served, asked, encoded, rfl, rfl⟩ := tied.logged logs
    obtain ⟨before, io, part, rest, split, next, went⟩ := served_origin served
    obtain ⟨serving, head, answer⟩ := RegistryHub.replies_answer next
    refine ⟨before, io, part, rest, p.1, split, serving, head, asked, encoded, ?_, went⟩
    rw [answer]
    exact heard

/-- A commit that a client is answered with `Ok` took effect, and the answer shows the record
of it. -/
theorem logged_commit (tied : (run (after k) { hub := RegistryHub.opened service } events).Tied k)
    {request : CommitRequest} {response : CommitResponse}
    (heard : exchange.response .commitResponse CommitResponse.decode = .ok response)
    (ok : response.status.isOk = true)
    (logs : (run (after k) { hub := RegistryHub.opened service } events).link.client.Logs
      (.commit request) exchange) :
    response.verified = true ∧ ∃ before io part rest, events = before ++ .serve io part :: rest ∧
      let s := run (after k) { hub := RegistryHub.opened service } before
      (∃ b, s.hub.committed (.serve k io part.isNone) = some (b, request)) ∧
      ∃ record ∈ (s.after k (.serve io part)).hub.service.state.fabric.records,
        record = (Work.effectCall request s.hub.now).record s.hub.service.work.state.fabric ∧
        response.admittedToken = record.fenceToken ∧
        response.storeSequence = record.storeSequence ∧
        response.effectDigest = record.recordDigest := by
  obtain ⟨before, io, part, rest, frame, split, serving, head, type, payload, answer, went⟩ :=
    logged_origin tied heard logs
  obtain ⟨verified, committed, records⟩ :=
    RegistryHub.commit_served part.isNone serving head type payload answer ok
  refine ⟨verified, before, io, part, rest, split, committed, ?_⟩
  rw [went]
  exact records

theorem logged_vouches
    (tied : (run (after k) { hub := RegistryHub.opened service } events).Tied k) :
    Mutation.Vouches
      (run (after k) { hub := RegistryHub.opened service } events).link.client.Logs where
  decides request exchange response logs exclusive heard ok := by
    obtain ⟨before, io, part, rest, frame, -, -, -, type, payload, answer, -⟩ :=
      logged_origin tied heard logs
    exact RegistryService.decide_heard exclusive type payload answer ok
  commits request exchange response logs heard ok := (logged_commit tied heard ok logs).1

/-- What a coordinator books as applied stands in the effect log of the registry, put there by
the commit of just this attempt; and whatever is acknowledged is verified. The coordinator
looks at no request id, and between the two the bytes may come in any pieces and the connection
may break anywhere, while other connections do what they like and the disk fails where it
likes. -/
theorem applied_stands (k : Nat) (service : RegistryService) (events : List LinkEvent)
    (small : Each (after k) (Small k) { hub := RegistryHub.opened service } events)
    (operation : Bytes) (count : UInt64) (services : Services) (m : Mutation)
    (fresh : m.report.attempts = [])
    (heard : ∀ p ∈ ((Coordinator.mutate operation count services).exec m).2.traces.zip
      (services.first count.toNat), p.1.Heard
        (run (after k) { hub := RegistryHub.opened service } events).link.client.Logs p.2) :
    ∀ a ∈ ((Coordinator.mutate operation count services).exec m).2.report.attempts,
      a.outcome ≠ .acknowledgedNotVerified ∧ (a.outcome = .applied →
        ∃ before io part rest, events = before ++ .serve io part :: rest ∧
          let s := run (after k) { hub := RegistryHub.opened service } before
          (∃ b request, s.hub.committed (.serve k io part.isNone) = some (b, request) ∧
            request.attemptSequence = a.attempt) ∧
          ∃ record ∈ (s.after k (.serve io part)).hub.service.state.fabric.records,
            a.Stands m.coordinator.config operation record) := by
  have tied : (run (after k) { hub := RegistryHub.opened service } events).Tied k :=
    each_invariant (fun _ e tied small => tied.after e small) (.start k service) small
  intro a member
  obtain ⟨verified, applied⟩ := Mutation.mutate_believable (logged_vouches tied) fresh
    (Prod.eta _).symm heard a member
  refine ⟨verified, fun booked => ?_⟩
  obtain ⟨request, response, exchange, logs, answer, ok, shows⟩ := applied booked
  obtain ⟨-, before, io, part, rest, split, ⟨b, committed⟩, record, stands, same, token, sequence,
    digest⟩ := logged_commit tied answer ok logs
  refine ⟨before, io, part, rest, split, ⟨b, request, committed, shows.attempt⟩, record, stands, ?_⟩
  have domain : record.domain = request.domain := congrArg MutationRecord.domain same
  have scope : record.scope = request.scope := congrArg MutationRecord.scope same
  have epoch : record.epoch = request.epoch := congrArg MutationRecord.epoch same
  have payload : record.payloadDigest = request.payloadDigest :=
    congrArg MutationRecord.payloadDigest same
  have worded : record.operation = request.operation := congrArg MutationRecord.operation same
  exact ⟨domain.trans shows.domain, scope.trans shows.scope, epoch.trans shows.epoch,
    token.symm.trans shows.token, sequence.symm.trans shows.sequence,
    payload.trans shows.payload, worded.trans shows.worded, digest.symm.trans shows.digest⟩

end Linked
end SplitBrainFabric
