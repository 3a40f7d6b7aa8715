import Mathlib.Algebra.Ring.Nat
import SplitBrainFabric.Coordinator

/-! When a coordinator retries under an authority it was refused: whenever a request is left
for another attempt. -/

namespace SplitBrainFabric
open Words

/-- No attempt sends a decide or a commit under an authority that an earlier one of the
call was refused. -/
def NeverRetries (traces : List AttemptTrace) : Prop :=
  traces.Pairwise fun earlier later => ∀ pair, earlier.refused = some pair →
    ∀ request ∈ later.sent, request.authority ≠ some pair

namespace Exchange

/-- The exchange brings a decision, and it permits the mutation. -/
def permits (e : Exchange) : Bool :=
  match e.response .decideResponse DecideResponse.decode with
  | .ok response => response.status.isOk && response.decision.isAuthoritative
  | .error _ => false

/-- The exchange brings the response to a commit, and it is a refusal. -/
def bars (e : Exchange) : Bool :=
  match e.response .commitResponse CommitResponse.decode with
  | .ok response => !response.status.isOk
  | .error _ => false

theorem answered_of_permits {e : Exchange} (permitted : e.permits = true) : e.Answered := by
  cases e with
  | answered type payload => trivial
  | unwritten why => cases permitted
  | unread why => cases permitted

end Exchange

namespace AttemptReplies

/-- The attempt is refused, by the decide or at the effect boundary. -/
def Refuses (r : AttemptReplies) : Prop := r.decide.permits = true → r.commit.bars = true

/-- The requests the attempt makes of the registry. -/
def asks (r : AttemptReplies) : Nat := if r.decide.permits then 2 else 1

theorem asks_pos (r : AttemptReplies) : 0 < r.asks := by
  unfold asks
  split <;> omega

/-- The connection outlives the attempt. -/
def Survives (r : AttemptReplies) : Prop :=
  r.decide.Answered ∧ (r.decide.permits = true → r.commit.Answered)

instance (r : AttemptReplies) : Decidable r.Survives := inferInstanceAs (Decidable (_ ∧ _))

end AttemptReplies

/-- After these attempts a request is left for another one: the connection is there, the
session has not used up its requests, and the attempts can still be numbered. -/
structure Coordinator.Reaches (c : Coordinator) (replies : List AttemptReplies) : Prop where
  survives : ∀ r ∈ replies, r.Survives
  affords : (replies.map AttemptReplies.asks).sum < c.client.budget
  numbered : c.attemptSequence.toNat + replies.length < maxWord.toNat

/-- A refused attempt that is not the last one is the last that can be made. -/
def Coordinator.Relents (c : Coordinator) (replies : List AttemptReplies) : Prop :=
  ∀ done r rest, replies = done ++ r :: rest → rest ≠ [] → r.Refuses → ¬ c.Reaches (done ++ [r])

namespace Coordinator

/-- The coordinator of the first attempt: the one that holds authority, or the one that has
just acquired it. -/
def Starts (exchange : Exchange) (c c' : Coordinator) : Prop :=
  if c.authority = true then c' = c
  else (acquireAuthority exchange).exec c = (.ok ⟨⟩, c')

/-- The operation is one to attempt, and there is authority to attempt it under. -/
def Enters (operation : Bytes) (exchange : Exchange) (c c' : Coordinator) : Prop :=
  ¬ (operation = [] ∨ Limits.maxTextLength < operation.length) ∧ c.Starts exchange c'

theorem Starts.unique {exchange : Exchange} {c c₁ c₂ : Coordinator} (one : c.Starts exchange c₁)
    (other : c.Starts exchange c₂) : c₁ = c₂ := by
  unfold Starts at one other
  split at one
  · rw [if_pos ‹_›] at other
    exact one.trans other.symm
  · rw [if_neg ‹_›] at other
    exact congrArg Prod.snd (one.symm.trans other)

theorem reaches_nil {c : Coordinator} :
    c.Reaches [] ↔ 0 < c.client.budget ∧ c.attemptSequence ≠ maxWord := by
  constructor
  · rintro ⟨-, affords, few⟩
    refine ⟨affords, fun full => ?_⟩
    rw [full] at few
    exact absurd few (Nat.lt_irrefl _)
  · rintro ⟨affords, room⟩
    refine ⟨List.forall_mem_nil _, affords, ?_⟩
    exact UInt64.lt_iff_toNat_lt.mp (lt_of_le_of_ne (le_maxWord _) room)

theorem Reaches.asks_le {c : Coordinator} {first : AttemptReplies} (left : c.Reaches [first]) :
    first.asks ≤ c.client.budget := by
  have affords := left.affords
  rw [List.map_singleton, List.sum_singleton] at affords
  omega

theorem relents_cons {c c' : Coordinator} {first : AttemptReplies} {rest : List AttemptReplies}
    (reaches : ∀ l, c.Reaches (first :: l) ↔ c'.Reaches l) : c.Relents (first :: rest) ↔
      (rest ≠ [] → first.Refuses → ¬ c.Reaches [first]) ∧ c'.Relents rest := by
  constructor
  · intro relents
    refine ⟨relents [] first rest rfl, fun done r later split some refuses left => ?_⟩
    apply relents (first :: done) r later (by rw [split]; rfl) some refuses
    exact (reaches (done ++ [r])).mpr left
  · rintro ⟨now, later⟩ done r others split some refuses left
    cases done with
    | nil =>
      cases split
      exact now some refuses left
    | cons x done =>
      obtain ⟨same, tail⟩ := List.cons.inj split
      subst same
      exact later done r others tail some refuses ((reaches (done ++ [r])).mp left)

theorem evidence_keeps (statements : Nat → Exchange) (c : Coordinator) :
    ∃ witnesses, (c.evidence statements).2 = { c with witnesses := witnesses } := by
  unfold evidence collectEvidence
  split_ifs
  · exact ⟨c.witnesses, rfl⟩
  · exact ⟨_, rfl⟩
  · exact ⟨c.witnesses, rfl⟩

variable {c c' : Coordinator} {exchange : Exchange}

/-- A decide that is not sent permits nothing; one that is sent permits what its answer
does. -/
theorem evaluate_spec {bundle : EvidenceBundle} {answer : Status × AuthorityDecision}
    (ran : c.evaluate bundle exchange = (answer, c')) :
    ∃ client, c' = { c with client := client } ∧
      ((c.client.budget = 0 ∧ client = c.client ∧ answer.2.isAuthoritative = false) ∨
      (0 < c.client.budget ∧ (∃ request, client.sent = c.client.sent ++ [request] ∧
          request.authority = some (c.epoch, c.token)) ∧
        client.budget = (if exchange.Answered then c.client.budget - 1 else 0) ∧
        (¬ (answer.1.isOk = false ∨ answer.2.isAuthoritative = false) ↔
          exchange.permits = true))) := by
  unfold evaluate at ran
  simp only at ran
  rcases decided : (RegistryClient.decide _ exchange).exec c.client with ⟨r, client⟩
  rw [decided] at ran
  rcases RegistryClient.ask_spec decided with ⟨spent, rfl, st, rfl⟩ | ⟨affords, sent, got, left⟩
  · cases ran
    exact ⟨c.client, rfl, .inl ⟨spent, rfl, rfl⟩⟩
  · rw [Exchange.permits, ← got]
    cases r with
    | error st =>
      cases ran
      refine ⟨client, rfl, .inr ⟨affords, ⟨_, sent, rfl⟩, left, ?_⟩⟩
      simp [AuthorityDecision.isAuthoritative]
    | ok response =>
      cases ran
      refine ⟨client, rfl, .inr ⟨affords, ⟨_, sent, rfl⟩, left, ?_⟩⟩
      have fine : Status.ok.isOk = true := rfl
      cases ok : response.status.isOk with
      | true => simp [fine, ok]
      | false => simp [ok]

theorem commit_spec {operation : Bytes} {r : Except Status CommitResponse}
    (ran : c.commit operation exchange = (r, c')) :
    ∃ client, c' = { c with client := client } ∧
      ((c.client.budget = 0 ∧ client = c.client ∧ ∃ st, r = .error st) ∨
      (0 < c.client.budget ∧ (∃ request, client.sent = c.client.sent ++ [request] ∧
          request.authority = some (c.epoch, c.token)) ∧
        client.budget = (if exchange.Answered then c.client.budget - 1 else 0) ∧
        r = exchange.response .commitResponse CommitResponse.decode)) := by
  unfold commit at ran
  simp only at ran
  rcases committed : (RegistryClient.commit _ exchange).exec c.client with ⟨r', client⟩
  rw [committed] at ran
  cases ran
  rcases RegistryClient.ask_spec committed with ⟨spent, rfl, st, rfl⟩ | ⟨affords, sent, got, left⟩
  · exact ⟨c.client, rfl, .inl ⟨spent, rfl, st, rfl⟩⟩
  · exact ⟨client, rfl, .inr ⟨affords, ⟨_, sent, rfl⟩, left, got⟩⟩

end Coordinator

namespace Mutation

variable {operation : Bytes} {replies : AttemptReplies}

/-- What an attempt does to the session, and what shows of it. -/
structure Tries (replies : AttemptReplies) (m m' : Mutation) (trace : AttemptTrace) : Prop where
  logged : m'.traces = m.traces ++ [trace]
  epoch : m'.coordinator.epoch = m.coordinator.epoch
  token : m'.coordinator.token = m.coordinator.token
  numbered : m'.coordinator.attemptSequence = m.coordinator.attemptSequence
  budget : m'.coordinator.client.budget =
    if replies.Survives then m.coordinator.client.budget - replies.asks else 0
  silent : trace.sent = [] ↔ m.coordinator.client.budget = 0
  under : ∀ request ∈ trace.sent,
    request.authority = some (m.coordinator.epoch, m.coordinator.token)
  own : ∀ pair, trace.refused = some pair → pair = (m.coordinator.epoch, m.coordinator.token)
  refused : replies.asks ≤ m.coordinator.client.budget →
    (trace.refused ≠ none ↔ replies.Refuses)

/-- How far an attempt gets with the requests that are left: no decide is sent, the decide
does not permit it, no commit is sent, or the commit is. -/
inductive Stops (replies : AttemptReplies) (budget left : Nat) (sent : List RegistryRequest)
    (refused : Bool) : Prop
  | unasked (none : budget = 0) (spent : left = 0) (silent : sent = [])
  | denied (some : 0 < budget) (said : sent ≠ []) (barred : ¬ replies.decide.permits = true)
      (after : left = if replies.decide.Answered then budget - 1 else 0) (ruled : refused = true)
  | uncommitted (last : budget = 1) (said : sent ≠ [])
      (permitted : replies.decide.permits = true) (spent : left = 0)
  | committed (more : 1 < budget) (said : sent ≠ [])
      (permitted : replies.decide.permits = true)
      (after : left = if replies.commit.Answered then budget - 1 - 1 else 0)
      (ruled : refused = true ↔ replies.commit.bars = true)

namespace Stops

variable {budget left : Nat} {sent : List RegistryRequest} {refused : Bool}

theorem spends (stops : Stops replies budget left sent refused) :
    left = if replies.Survives then budget - replies.asks else 0 := by
  cases stops with
  | unasked none spent silent => simp only [none, spent, Nat.zero_sub, ite_self]
  | denied some said barred after ruled =>
    have asks : replies.asks = 1 := if_neg barred
    have survives : replies.decide.Answered ↔ replies.Survives :=
      ⟨fun answered => ⟨answered, fun permitted => absurd permitted barred⟩, And.left⟩
    rw [after, asks]
    exact if_congr survives rfl rfl
  | uncommitted last said permitted spent =>
    have asks : replies.asks = 2 := if_pos permitted
    rw [spent, asks, last]
    exact (ite_self 0).symm
  | committed more said permitted after ruled =>
    have asks : replies.asks = 2 := if_pos permitted
    have answered := Exchange.answered_of_permits permitted
    have survives : replies.commit.Answered ↔ replies.Survives :=
      ⟨fun outlives => ⟨answered, fun _ => outlives⟩, fun both => both.2 permitted⟩
    rw [after, asks, Nat.sub_sub]
    exact if_congr survives rfl rfl

theorem silent_iff (stops : Stops replies budget left sent refused) : sent = [] ↔ budget = 0 := by
  cases stops with
  | unasked none spent silent => exact ⟨fun _ => none, fun _ => silent⟩
  | denied some said barred after ruled =>
    exact ⟨fun silent => absurd silent said, fun none => absurd none (Nat.pos_iff_ne_zero.mp some)⟩
  | uncommitted last said permitted spent =>
    exact ⟨fun silent => absurd silent said, fun none => absurd (last.symm.trans none) one_ne_zero⟩
  | committed more said permitted after ruled =>
    exact ⟨fun silent => absurd silent said, fun none => by omega⟩

theorem refused_iff (stops : Stops replies budget left sent refused)
    (enough : replies.asks ≤ budget) : refused = true ↔ replies.Refuses := by
  cases stops with
  | unasked none spent silent =>
    have asks := replies.asks_pos
    omega
  | denied some said barred after ruled =>
    exact ⟨fun _ permitted => absurd permitted barred, fun _ => ruled⟩
  | uncommitted last said permitted spent =>
    have asks : replies.asks = 2 := if_pos permitted
    omega
  | committed more said permitted after ruled =>
    rw [ruled]
    exact ⟨fun barred _ => barred, fun refuses => refuses permitted⟩

end Stops

/-- What an attempt is seen to do: it touches the clients and the flag at most, and what it
sends it sends under the authority it began with. -/
structure Ends (replies : AttemptReplies) (m m' : Mutation) (witnesses : List WitnessClient)
    (client : RegistryClient) (held refused : Bool) (sent : List RegistryRequest) : Prop where
  coordinator : m'.coordinator = { m.coordinator with
    witnesses := witnesses, client := client, authority := held }
  logged : m'.traces =
    m.record { m.coordinator with witnesses := witnesses, client := client } refused
  grown : client.sent = m.coordinator.client.sent ++ sent
  under : ∀ request ∈ sent, request.authority = some (m.coordinator.epoch, m.coordinator.token)
  stops : Stops replies m.coordinator.client.budget client.budget sent refused

/-- An attempt sends a decide if a request is left for it, and a commit if the decide
permits it and another one is left. -/
theorem turn_ends (m : Mutation) : ∃ witnesses client held refused sent,
    Ends replies m (turn operation replies m) witnesses client held refused sent := by
  unfold turn
  simp only
  obtain ⟨witnesses, gathered⟩ := m.coordinator.evidence_keeps replies.statements
  rcases heard : m.coordinator.evidence replies.statements with ⟨bundle, c⟩
  rw [heard] at gathered
  simp only at gathered
  subst gathered
  simp only
  rcases judged : Coordinator.evaluate bundle replies.decide
    { m.coordinator with witnesses := witnesses } with ⟨answer, c₁⟩
  obtain ⟨client, rfl, ⟨none, rfl, unauthorised⟩ | ⟨affords, ⟨request, sent, carries⟩, left,
    permits⟩⟩ := Coordinator.evaluate_spec judged
  · simp only
    rw [if_pos (.inr unauthorised)]
    exact ⟨witnesses, m.coordinator.client, false, true, [], rfl, rfl, (List.append_nil _).symm,
      List.forall_mem_nil _, .unasked none none rfl⟩
  simp only
  have asked : ∀ r ∈ [request], r.authority =
      some (m.coordinator.epoch, m.coordinator.token) := by
    intro r member
    rw [List.mem_singleton.mp member]
    exact carries
  by_cases permitted : replies.decide.permits = true
  · rw [if_neg (permits.mpr permitted)]
    have left : client.budget = m.coordinator.client.budget - 1 :=
      left.trans (if_pos (Exchange.answered_of_permits permitted))
    rcases finished : Coordinator.commit operation replies.commit
      { m.coordinator with witnesses := witnesses, client := client } with ⟨committed, c₂⟩
    obtain ⟨client', rfl, ⟨spent, rfl, st, rfl⟩ | ⟨more, ⟨request', sent', carries'⟩, left', got⟩⟩ :=
      Coordinator.commit_spec finished
    · have spent : client'.budget = 0 := spent
      have last : m.coordinator.client.budget = 1 := by
        have affords : 0 < m.coordinator.client.budget := affords
        omega
      exact ⟨witnesses, client', false, false, [request], rfl, rfl, sent, asked,
        .uncommitted last (List.cons_ne_nil _ _) permitted spent⟩
    · have more : 1 < m.coordinator.client.budget := by
        have more : 0 < client.budget := more
        omega
      have left' : client'.budget =
          if replies.commit.Answered then m.coordinator.client.budget - 1 - 1 else 0 := by
        rw [← left]
        exact left'
      have both : client'.sent = m.coordinator.client.sent ++ [request, request'] := by
        have later : client'.sent = client.sent ++ [request'] := sent'
        rw [later, sent, List.append_assoc]
        rfl
      have under : ∀ r ∈ [request, request'],
          r.authority = some (m.coordinator.epoch, m.coordinator.token) := by
        intro r member
        rcases List.mem_pair.mp member with rfl | rfl
        · exact carries
        · exact carries'
      have stops : ∀ refused, (refused = true ↔ replies.commit.bars = true) →
          Stops replies m.coordinator.client.budget client'.budget [request, request'] refused :=
        fun _ => .committed more (List.cons_ne_nil _ _) permitted left'
      rw [Exchange.bars, ← got] at stops
      cases committed with
      | error st =>
        exact ⟨witnesses, client', false, false, _, rfl, rfl, both, under, stops _ Iff.rfl⟩
      | ok response =>
        simp only at stops ⊢
        by_cases barred : response.status.isOk = false
        · rw [if_pos barred]
          exact ⟨witnesses, client', false, true, _, rfl, rfl, both, under,
            stops _ (by simp [barred])⟩
        · rw [if_neg barred]
          exact ⟨witnesses, client', m.coordinator.authority, false, _, rfl, rfl, both, under,
            stops _ (by simpa using barred)⟩
  · have refused : answer.1.isOk = false ∨ answer.2.isAuthoritative = false := by
      by_contra passed
      exact permitted (permits.mp passed)
    rw [if_pos refused]
    exact ⟨witnesses, client, false, true, [request], rfl, rfl, sent, asked,
      .denied affords (List.cons_ne_nil _ _) permitted left rfl⟩

theorem turn_tries (m : Mutation) : ∃ trace, Tries replies m (turn operation replies m) trace := by
  obtain ⟨witnesses, client, held, refused, sent, coordinator, logged, grown, under, stops⟩ :=
    @turn_ends operation replies m
  refine ⟨⟨if refused then some (m.coordinator.epoch, m.coordinator.token) else none, sent⟩, ?_⟩
  constructor
  · rw [logged, record, grown, List.drop_left]
  · rw [coordinator]
  · rw [coordinator]
  · rw [coordinator]
  · rw [coordinator]
    exact stops.spends
  · exact stops.silent_iff
  · exact under
  · intro pair named
    cases refused with
    | false => cases named
    | true => exact (Option.some.inj named).symm
  · intro enough
    rw [← stops.refused_iff enough]
    cases refused with
    | false => simp
    | true => simp

/-- A round of the loop is an attempt, unless the attempts cannot be numbered any more. -/
theorem attempt_cases {m m' : Mutation} {r : Except Status PUnit}
    (ran : (attempt operation replies).exec m = (r, m')) :
    (m.coordinator.attemptSequence = maxWord ∧ (∃ st, r = .error st) ∧ m'.traces = m.traces) ∨
    (m.coordinator.attemptSequence ≠ maxWord ∧ r = .ok ⟨⟩ ∧ ∃ n trace, Tries replies n m' trace ∧
      n.traces = m.traces ∧ n.coordinator = { m.coordinator with
        attemptSequence := m.coordinator.attemptSequence + 1 }) := by
  rw [attempt, Prog.exec_modify_bind, Prog.exec_get_bind, Prog.exec_refuseIf] at ran
  by_cases full : m.coordinator.attemptSequence = maxWord
  · rw [if_pos full] at ran
    cases ran
    exact .inl ⟨full, ⟨_, rfl⟩, rfl⟩
  · rw [if_neg full] at ran
    cases ran
    obtain ⟨trace, tries⟩ := @turn_tries operation replies _
    exact .inr ⟨full, rfl, _, trace, tries, rfl, rfl⟩

/-- What is left for more attempts is what is left after the first of them. -/
theorem reaches_cons {m n m' : Mutation} {trace : AttemptTrace} (tries : Tries replies n m' trace)
    (room : m.coordinator.attemptSequence ≠ maxWord)
    (numbered : n.coordinator = { m.coordinator with
      attemptSequence := m.coordinator.attemptSequence + 1 }) (rest : List AttemptReplies) :
    m.coordinator.Reaches (replies :: rest) ↔ m'.coordinator.Reaches rest := by
  have budget := tries.budget
  have sequence := tries.numbered
  rw [numbered] at budget sequence
  have next : m'.coordinator.attemptSequence.toNat = m.coordinator.attemptSequence.toNat + 1 := by
    rw [sequence]
    exact toNat_succ room
  constructor
  · rintro ⟨survives, affords, few⟩
    obtain ⟨first, others⟩ := List.forall_mem_cons.mp survives
    rw [List.map_cons, List.sum_cons] at affords
    rw [List.length_cons] at few
    refine ⟨others, ?_, by omega⟩
    rw [budget, if_pos first]
    exact Nat.lt_sub_of_add_lt (by rw [Nat.add_comm]; exact affords)
  · rintro ⟨others, affords, few⟩
    rw [budget] at affords
    by_cases first : replies.Survives
    · rw [if_pos first] at affords
      refine ⟨List.forall_mem_cons.mpr ⟨first, others⟩, ?_, ?_⟩
      · rw [List.map_cons, List.sum_cons, Nat.add_comm]
        exact Nat.add_lt_of_lt_sub affords
      · rw [List.length_cons]
        omega
    · rw [if_neg first] at affords
      exact absurd affords (Nat.not_lt_zero _)

/-- What shows of a loop. -/
structure Shows (replies : List AttemptReplies) (m : Mutation) (traces : List AttemptTrace) :
    Prop where
  under : ∀ t ∈ traces, ∀ request ∈ t.sent,
    request.authority = some (m.coordinator.epoch, m.coordinator.token)
  speaks : (∃ t ∈ traces, t.sent ≠ []) ↔ replies ≠ [] ∧ m.coordinator.Reaches []
  retries : NeverRetries traces ↔ m.coordinator.Relents replies

theorem Shows.nil {m : Mutation} {replies : List AttemptReplies}
    (ends : replies = [] ∨ m.coordinator.attemptSequence = maxWord) : Shows replies m [] := by
  refine ⟨nofun, ⟨nofun, ?_⟩, ⟨fun _ done r rest split _ _ reaches => ?_, fun _ => .nil⟩⟩
  · rintro ⟨some, reaches⟩
    have few := reaches.numbered
    rw [ends.resolve_left some] at few
    exact absurd few (by simp)
  · have few := reaches.numbered
    rcases ends with rfl | full
    · cases done <;> cases split
    · rw [full] at few
      omega

theorem Shows.cons {m n m₁ : Mutation} {first : AttemptReplies} {rest : List AttemptReplies}
    {trace : AttemptTrace} {traces : List AttemptTrace} (tries : Tries first n m₁ trace)
    (room : m.coordinator.attemptSequence ≠ maxWord)
    (numbered : n.coordinator = { m.coordinator with
      attemptSequence := m.coordinator.attemptSequence + 1 }) (shows : Shows rest m₁ traces) :
    Shows (first :: rest) m (trace :: traces) := by
  have reaches := reaches_cons tries room numbered
  have held : (m₁.coordinator.epoch, m₁.coordinator.token) =
      (m.coordinator.epoch, m.coordinator.token) := by
    rw [tries.epoch, tries.token, numbered]
  obtain ⟨under, speaks, retries⟩ := shows
  have silent := tries.silent
  have own := tries.own
  have heads := tries.under
  have refused := tries.refused
  rw [held] at under
  simp only [numbered] at silent own heads refused
  constructor
  · exact List.forall_mem_cons.mpr ⟨heads, under⟩
  · rw [List.exists_mem_cons_iff, speaks, ← reaches, Coordinator.reaches_nil, Ne, silent]
    constructor
    · rintro (some | ⟨-, more⟩)
      · exact ⟨List.cons_ne_nil _ _, Nat.pos_of_ne_zero some, room⟩
      · exact ⟨List.cons_ne_nil _ _, (Nat.zero_le _).trans_lt more.affords, room⟩
    · rintro ⟨-, some, -⟩
      exact .inl (Nat.pos_iff_ne_zero.mp some)
  · have heads : (∀ later ∈ traces, ∀ pair, trace.refused = some pair →
        ∀ request ∈ later.sent, request.authority ≠ some pair) ↔
        (rest ≠ [] → first.Refuses → ¬ m.coordinator.Reaches [first]) := by
      constructor
      · intro obeys more refuses left
        obtain ⟨pair, gone⟩ := Option.ne_none_iff_exists'.mp ((refused left.asks_le).mpr refuses)
        obtain ⟨later, member, some⟩ := speaks.mpr ⟨more, (reaches []).mp left⟩
        obtain ⟨request, sent⟩ := List.exists_mem_of_ne_nil _ some
        apply obeys later member pair gone request sent
        rw [under later member request sent, own pair gone]
      · intro stops later member pair gone request sent _
        obtain ⟨more, left⟩ := speaks.mp ⟨later, member, List.ne_nil_of_mem sent⟩
        have left := (reaches []).mpr left
        have some : trace.refused ≠ none := by
          rw [gone]
          nofun
        exact stops more ((refused left.asks_le).mp some) left
    rw [Coordinator.relents_cons reaches, NeverRetries, List.pairwise_cons, heads]
    exact and_congr_right fun _ => retries

/-- The induction over the attempts: a refused one is followed by a request exactly when one
is left. -/
theorem loop_shows {replies : List AttemptReplies} {m m' : Mutation} {r : Except Status PUnit}
    (ran : (replies.forM (attempt operation)).exec m = (r, m')) :
    ∃ traces, m'.traces = m.traces ++ traces ∧ Shows replies m traces := by
  induction replies generalizing m with
  | nil =>
    cases ran
    exact ⟨[], (List.append_nil _).symm, .nil (.inl rfl)⟩
  | cons first rest ih =>
    rw [Prog.forM_cons, Prog.exec_bind] at ran
    rcases tried : (attempt operation first).exec m with ⟨result, m₁⟩
    rw [tried] at ran
    rcases attempt_cases tried with ⟨full, ⟨st, rfl⟩, same⟩ |
      ⟨room, rfl, n, trace, tries, before, numbered⟩
    · cases ran
      exact ⟨[], same.trans (List.append_nil _).symm, .nil (.inr full)⟩
    · obtain ⟨traces, logged, shows⟩ := ih ran
      refine ⟨trace :: traces, ?_, .cons tries room numbered shows⟩
      rw [logged, tries.logged, before, List.append_assoc]
      rfl

theorem enter_cases {exchange : Exchange} {m m' : Mutation} {r : Except Status PUnit}
    (ran : (enter exchange).exec m = (r, m')) : m'.traces = m.traces ∧
      ((r = .ok ⟨⟩ ∧ m.coordinator.Starts exchange m'.coordinator) ∨
      ((∃ st, r = .error st) ∧ ∀ c, ¬ m.coordinator.Starts exchange c)) := by
  rw [enter, Prog.exec_get_bind, Prog.exec_ite] at ran
  unfold Coordinator.Starts
  by_cases held : m.coordinator.authority = true
  · rw [if_pos held] at ran
    cases ran
    refine ⟨rfl, .inl ⟨rfl, ?_⟩⟩
    rw [if_pos held]
    rfl
  · simp only [if_neg held]
    rw [if_neg held] at ran
    rcases acquired : (Coordinator.acquireAuthority exchange).exec m.coordinator with ⟨result, c⟩
    rw [acquired] at ran
    cases result with
    | ok u =>
      cases ran
      exact ⟨rfl, .inl ⟨rfl, rfl⟩⟩
    | error st =>
      cases ran
      exact ⟨rfl, .inr ⟨⟨st, rfl⟩, fun c' same => by cases same⟩⟩

end Mutation

theorem Services.first_succ (services : Services) (i : Nat) :
    services.first (i + 1) = services.first i ++ [services.attempts i] := by
  rw [first, List.range_succ, List.map_append]
  rfl

theorem Services.take_first (services : Services) {i n : Nat} (within : i ≤ n) :
    (services.first n).take i = services.first i := by
  rw [first, ← List.map_take, List.take_range, Nat.min_eq_left within, first]

theorem Coordinator.relents_first (c : Coordinator) (services : Services) (n : Nat) :
    c.Relents (services.first n) ↔ ∀ i, i + 1 < n → (services.attempts i).Refuses →
      ¬ c.Reaches (services.first (i + 1)) := by
  have length : ∀ k, (services.first k).length = k := by
    intro k
    rw [Services.first, List.length_map, List.length_range]
  constructor
  · intro relents i inside refuses
    have split : services.first n =
        services.first i ++ services.attempts i :: (services.first n).drop (i + 1) := by
      have whole := List.take_append_drop (i + 1) (services.first n)
      rw [services.take_first inside.le, services.first_succ, List.append_assoc] at whole
      exact whole.symm
    rw [services.first_succ]
    apply relents _ _ _ split _ refuses
    rw [← List.length_pos_iff, List.length_drop, length]
    omega
  · intro stops done r rest split some refuses
    have size := congrArg List.length split
    rw [length, List.length_append, List.length_cons] at size
    have more := List.length_pos_iff.mpr some
    have front : services.first (done.length + 1) = done ++ [r] := by
      rw [← services.take_first (by omega : done.length + 1 ≤ n), split,
        List.take_length_add_append]
      rfl
    have last := front
    rw [services.first_succ] at last
    obtain ⟨-, here⟩ := List.append_inj last (length _)
    rw [← front]
    apply stops done.length (by omega)
    rw [(List.cons.inj here).1]
    exact refuses

/-- In one call nothing is retried under a refused authority exactly when every refused
attempt but the last of the count is the last that can be made. -/
theorem never_retries_iff (operation : Bytes) (count : UInt64) (services : Services)
    (m : Mutation) :
    NeverRetries ((Coordinator.mutate operation count services).exec m).2.traces ↔
      ∀ c, m.coordinator.Enters operation services.allocation c → ∀ i, i + 1 < count.toNat →
        (services.attempts i).Refuses → ¬ c.Reaches (services.first (i + 1)) := by
  rcases ran : (Coordinator.mutate operation count services).exec m with ⟨r, m'⟩
  rw [Coordinator.mutate, Prog.exec_modify_bind, Prog.exec_refuseIf] at ran
  by_cases unspeakable : operation = [] ∨ Limits.maxTextLength < operation.length
  · rw [if_pos unspeakable] at ran
    cases ran
    exact ⟨fun _ _ enters => absurd unspeakable enters.1, fun _ => .nil⟩
  rw [if_neg unspeakable, Prog.exec_modify_bind, Prog.exec_bind] at ran
  rcases entered : (Mutation.enter services.allocation).exec
    { m with traces := [], report := {} } with ⟨result, m₁⟩
  rw [entered] at ran
  obtain ⟨untraced, ⟨rfl, starts⟩ | ⟨⟨st, rfl⟩, never⟩⟩ := Mutation.enter_cases entered
  · simp only at ran
    rw [Prog.exec_bind] at ran
    rcases looped : ((services.first count.toNat).forM (Mutation.attempt operation)).exec m₁
      with ⟨ended, m₂⟩
    rw [looped] at ran
    obtain ⟨traces, logged, shows⟩ := Mutation.loop_shows looped
    have same : m'.traces = traces := by
      have kept : m'.traces = m₂.traces := by cases ended <;> cases ran <;> rfl
      rw [kept, logged, untraced]
      rfl
    rw [same, shows.retries, Coordinator.relents_first]
    constructor
    · intro relents c enters
      rw [enters.2.unique starts]
      exact relents
    · intro relents
      exact relents _ ⟨unspeakable, starts⟩
  · cases ran
    have none : m'.traces = [] := untraced
    rw [none]
    exact ⟨fun _ c enters => absurd enters.2 (never c), fun _ => .nil⟩

theorem NeverRetries.shown {traces : List AttemptTrace} (never : NeverRetries traces) :
    (traces.map fun t => (t.refused, t.sent.map (·.authority))).Pairwise fun earlier later =>
      ∀ pair, earlier.1 = some pair → some pair ∉ later.2 := by
  apply List.pairwise_map.mpr
  apply never.imp
  intro earlier later apart pair gone found
  obtain ⟨request, sent, under⟩ := List.mem_map.mp found
  exact apart pair gone request sent under

section Sample

/-- A registry that grants token five, decides in its favour, and then fences the commit. -/
def fencingServices : Services where
  allocation := .answered .allocateEpochResponse (AllocateEpochResponse.encode {
    epoch := 1, fenceToken := 5, grant := 1, policy := Id.make [112], policyGeneration := 1
    allocationStep := 1 })
  attempts _ := {
    statements := fun _ => .unread ⟨.make .closed .connectionClosed, rfl⟩
    decide := .answered .decideResponse (DecideResponse.encode {
      decision := { verdict := .authoritative } })
    commit := .answered .commitResponse (CommitResponse.encode {
      status := .make .fenced .extentFenced }) }

/-- A coordinator that has just connected. -/
def freshCoordinator : Coordinator where
  config := {
    domain := Id.make [100]
    scope := (Scope.make [Id.make [120]]).toOption.getD Scope.empty }
  client := { connected := true, nextRequest := 1 }

/-- The second attempt decides and commits again under the token that was fenced. -/
theorem retries_fenced : ¬ ∀ operation count services (m : Mutation),
    NeverRetries ((Coordinator.mutate operation count services).exec m).2.traces := by
  intro never
  have shown : (((Coordinator.mutate [111] 2 fencingServices).exec
      { coordinator := freshCoordinator }).2.traces.map fun t =>
        (t.refused, t.sent.map (·.authority))) =
      [(some (1, 5), [some (1, 5), some (1, 5)]), (some (1, 5), [some (1, 5), some (1, 5)])] := by
    decide +kernel
  have obeys := (never [111] 2 fencingServices { coordinator := freshCoordinator }).shown
  rw [shown] at obeys
  have later := (List.pairwise_cons.mp obeys).1 _ (List.mem_singleton_self _) (1, 5) rfl
  exact later List.mem_cons_self

end Sample

end SplitBrainFabric
