import SplitBrainFabric.GrantLife

/-! Tokens, grant ids and incarnations are handed out once: each answer is above the
counter it found, and a record as high as the answer is in the log before it is given. -/

namespace SplitBrainFabric
open Words

namespace Work

open RegistryState (apply bumpIncarnation)

/-- No move lowers a counter. -/
theorem preserved_counters (token : FenceToken) (id : GrantId) (incarnation : IncarnationId) :
    Preserved fun s => token ≤ s.tokenCounter ∧ id ≤ s.grantCounter ∧
      incarnation ≤ s.incarnationCounter := by
  have raise : ∀ s record r s', token ≤ s.tokenCounter ∧ id ≤ s.grantCounter ∧
      incarnation ≤ s.incarnationCounter → (apply record).exec s = (r, s') →
      token ≤ s'.tokenCounter ∧ id ≤ s'.grantCounter ∧ incarnation ≤ s'.incarnationCounter := by
    intro s record r s' holds ran
    rcases RegistryState.apply_cases ran with ⟨rfl, -⟩ | ⟨-, -, ⟨st, -, -, rfl⟩ | ⟨entry, -, enacted⟩⟩
    · exact holds
    · exact holds
    · obtain ⟨tokens, -, ids, -, incarnations, -⟩ := RegistryState.enact_counters enacted
      exact ⟨holds.1.trans tokens, holds.2.1.trans ids, holds.2.2.trans incarnations⟩
  exact {
    aside := fun _ _ _ _ holds => holds
    counted := fun _ holds => holds
    single := fun s record r s' holds _ _ ran => raise s record r s' holds ran
    boot := by
      intro s record r s' holds below _ _ ran
      refine raise (bumpIncarnation s) record r s' ⟨holds.1, holds.2.1, ?_⟩ ran
      exact holds.2.2.trans (le_of_lt (lt_succ below))
    grant := fun _ _ _ _ record r s' _ _ holds _ _ ran => raise _ record r s' holds ran }

theorem Reach.counters {w w' : Work} (reached : Reach w w') :
    w.state.tokenCounter ≤ w'.state.tokenCounter ∧ w.state.grantCounter ≤ w'.state.grantCounter ∧
      w.state.incarnationCounter ≤ w'.state.incarnationCounter :=
  (preserved_counters _ _ _).reach (P := fun s => w.state.tokenCounter ≤ s.tokenCounter ∧
    w.state.grantCounter ≤ s.grantCounter ∧ w.state.incarnationCounter ≤ s.incarnationCounter)
    ⟨le_rfl, le_rfl, le_rfl⟩ reached

theorem Minted.above {w w' : Work} {token : FenceToken} (minted : Minted w token w') :
    w.state.tokenCounter < token ∧ ∃ r ∈ w'.emitted, token ≤ r.said.token := by
  obtain ⟨w₁, record, s, fence, scope, before, room, rfl, read, same, -, after⟩ := minted
  refine ⟨lt_of_le_of_lt before.counters.1 (lt_succ room), record, ?_, ?_⟩
  · exact after.emitted.subset (List.mem_append_right _ List.mem_cons_self)
  · rw [JournalRecord.said_of read]
    exact le_of_eq same.symm

theorem Opened.above {w w₁ w' : Work} {g : EpochGrant} (before : Reach w w₁)
    (opened : Opened w₁ g w') :
    (w.state.tokenCounter < g.fenceToken ∧ ∃ r ∈ w'.emitted, g.fenceToken ≤ r.said.token) ∧
      w.state.grantCounter < g.id ∧ ∃ r ∈ w'.emitted, g.id ≤ r.said.grantId := by
  obtain ⟨adopt, record, s₁, s₂, adoption, -, read, -, rfl⟩ := opened
  have opens := adoption.opens
  have member : record ∈ ((w₁.kept adopt s₁).kept record s₂).emitted :=
    List.mem_append_right _ List.mem_cons_self
  have said := JournalRecord.said_of read
  refine ⟨⟨?_, record, member, ?_⟩, ?_, record, member, ?_⟩
  · rw [opens.token]
    exact lt_of_le_of_lt before.counters.1 (lt_succ opens.tokenRoom)
  · rw [said]; exact le_rfl
  · rw [opens.id]
    exact lt_of_le_of_lt before.counters.2.1 (lt_succ opens.idRoom)
  · rw [said]; exact le_rfl

theorem Rebooted.above {w w₁ w' : Work} (before : Reach w w₁) (rebooted : Rebooted w₁ w') :
    w.state.incarnationCounter < w'.state.boot.incarnation ∧
      ∃ r ∈ w'.emitted, w'.state.boot.incarnation ≤ r.said.incarnation := by
  obtain ⟨record, s, boot, room, -, read, incarnation, ran, rfl⟩ := rebooted
  have current : s.boot = boot := by
    obtain ⟨-, -, entry, known, enacted⟩ := RegistryState.apply_ok ran
    rw [read] at known
    cases known
    rw [RegistryState.enact_bootBegin enacted]
  have shown : (w₁.kept record s).state.boot.incarnation = boot.incarnation := by
    rw [← current]
    rfl
  rw [shown]
  refine ⟨?_, record, List.mem_append_right _ List.mem_cons_self, ?_⟩
  · rw [incarnation]
    exact lt_of_le_of_lt before.counters.2.2 (lt_succ room)
  · rw [JournalRecord.said_of read]
    exact le_rfl

end Work

/-- At most one value, above the counter found, and matched by a record left behind. -/
def IssuesAbove (values : List UInt64) (counter : UInt64) (seen : JournalRecord → UInt64)
    (emitted : List JournalRecord) : Prop :=
  values = [] ∨ ∃ v, values = [v] ∧ counter < v ∧ ∃ r ∈ emitted, v ≤ seen r

theorem Op.issues {w : Work} (sound : w.state.lineage.Sound) (now : Step) (op : Op) :
    IssuesAbove (op.issue now w).tokens w.state.tokenCounter (·.said.token)
        (op.after now w).emitted ∧
      IssuesAbove (op.issue now w).grants w.state.grantCounter (·.said.grantId)
        (op.after now w).emitted ∧
      IssuesAbove (op.issue now w).incarnations w.state.incarnationCounter (·.said.incarnation)
        (op.after now w).emitted := by
  cases op with
  | defineDomain _ | definePolicy _ | decide _ _ | commit _ _ =>
    exact ⟨.inl rfl, .inl rfl, .inl rfl⟩
  | allocateIncarnation =>
    rcases ran : (Work.allocateIncarnation now).exec w with ⟨r, w'⟩
    simp only [issue, after, ran]
    cases r with
    | error st => exact ⟨.inl rfl, .inl rfl, .inl rfl⟩
    | ok i =>
      obtain ⟨room, rfl, record, s, read, rfl⟩ := (Work.allocateIncarnation_spec ran).2 i rfl
      refine ⟨.inl rfl, .inl rfl, .inr ⟨_, rfl, lt_succ room, record, ?_, ?_⟩⟩
      · exact List.mem_append_right _ List.mem_cons_self
      · simp only [JournalRecord.said_of read]
        exact le_rfl
  | allocateEpoch request =>
    rcases ran : (Work.allocateEpoch request now).exec w with ⟨r, w'⟩
    simp only [issue, after, ran]
    cases r with
    | error refusal => exact ⟨.inl rfl, .inl rfl, .inl rfl⟩
    | ok response =>
      obtain ⟨-, ⟨g, repeated, -⟩ | ⟨fresh, w₁, before, opened, rfl⟩⟩ :=
        (Work.allocateEpoch_spec sound ran).2 response rfl
      · simp only [repeated, Option.isSome_some, if_true]
        exact ⟨.inl rfl, .inl rfl, .inl rfl⟩
      · simp only [fresh, Option.isSome_none, Bool.false_eq_true, if_false]
        obtain ⟨token, id⟩ := opened.above before
        exact ⟨.inr ⟨_, rfl, token⟩, .inr ⟨_, rfl, id⟩, .inl rfl⟩
  | fence request =>
    rcases ran : (Work.fence request now).exec w with ⟨r, w'⟩
    simp only [issue, after, ran]
    cases r with
    | error refusal => exact ⟨.inl rfl, .inl rfl, .inl rfl⟩
    | ok response =>
      have minted := (Work.fence_spec sound ran).2 response rfl
      exact ⟨.inr ⟨_, rfl, minted.above⟩, .inl rfl, .inl rfl⟩
  | release request =>
    rcases ran : (Work.release request now).exec w with ⟨r, w'⟩
    simp only [issue, after, ran]
    cases r with
    | error refusal => exact ⟨.inl rfl, .inl rfl, .inl rfl⟩
    | ok response =>
      have minted := ((Work.release_spec sound ran).2 response rfl).2
      exact ⟨.inr ⟨_, rfl, minted.above⟩, .inl rfl, .inl rfl⟩
  | recoverAfterRestart =>
    rcases ran : (Work.recoverAfterRestart now).exec w with ⟨r, w'⟩
    simp only [issue, after, ran]
    cases r with
    | error st => exact ⟨.inl rfl, .inl rfl, .inl rfl⟩
    | ok u =>
      obtain ⟨w₁, before, rebooted⟩ := (Work.recoverAfterRestart_spec sound ran).2 rfl
      exact ⟨.inl rfl, .inl rfl, .inr ⟨_, rfl, rebooted.above before⟩⟩

/-- Increasing values, none above everything in the log. -/
structure Ascending (values : List UInt64) (seen : JournalRecord → UInt64)
    (log : List JournalRecord) : Prop where
  increasing : values.Pairwise (· < ·)
  matched : ∀ v ∈ values, ∃ r ∈ log, v ≤ seen r

theorem Ascending.grow {values : List UInt64} {seen : JournalRecord → UInt64}
    {log log' : List JournalRecord} (ascending : Ascending values seen log) (grows : log <+: log') :
    Ascending values seen log' := by
  refine ⟨ascending.increasing, fun v member => ?_⟩
  obtain ⟨r, inside, below⟩ := ascending.matched v member
  exact ⟨r, grows.subset inside, below⟩

theorem Ascending.issue {values new : List UInt64} {seen : JournalRecord → UInt64}
    {log emitted : List JournalRecord} {counter : UInt64} (ascending : Ascending values seen log)
    (covered : ∀ r ∈ log, seen r ≤ counter) (issues : IssuesAbove new counter seen emitted) :
    Ascending (values ++ new) seen (log ++ emitted) := by
  have grown := ascending.grow (List.prefix_append log emitted)
  rcases issues with rfl | ⟨v, rfl, above, r, member, below⟩
  · rwa [List.append_nil]
  · refine ⟨List.pairwise_append.mpr ⟨grown.increasing, List.pairwise_singleton _ _, ?_⟩, ?_⟩
    · intro old inside new last
      rw [List.mem_singleton.mp last]
      obtain ⟨r', held, small⟩ := ascending.matched old inside
      exact lt_of_le_of_lt (small.trans (covered r' held)) above
    · intro x member'
      rcases List.mem_append.mp member' with old | last
      · exact grown.matched x old
      · rw [List.mem_singleton.mp last]
        exact ⟨r, List.mem_append_right log member, below⟩

namespace History

structure IssuedOnce (h : History) : Prop where
  tokens : Ascending h.issued.tokens (·.said.token) h.log
  grants : Ascending h.issued.grants (·.said.grantId) h.log
  incarnations : Ascending h.issued.incarnations (·.said.incarnation) h.log

theorem IssuedOnce.step {h h' : History} {event : Event} (once : IssuedOnce h)
    (tracks : Tracks h.live h.log) (stepped : h.step event = some h') : IssuedOnce h' := by
  have grows := log_grows stepped
  have unchanged : h'.issued = h.issued → IssuedOnce h' := fun same =>
    ⟨same ▸ once.tokens.grow grows, same ▸ once.grants.grow grows,
      same ▸ once.incarnations.grow grows⟩
  cases step_cases stepped with
  | called op now =>
    obtain ⟨tokens, grants, incarnations⟩ := Op.issues (w := h.work) tracks.sound now op
    exact ⟨once.tokens.issue tracks.tokens tokens, once.grants.issue tracks.ids grants,
      once.incarnations.issue tracks.incarnations incarnations⟩
  | saved => exact unchanged rfl
  | rebuilt s fills => exact unchanged rfl
  | ticked room => exact unchanged rfl
  | reloaded files s ran => exact unchanged rfl

/-- No identifier is issued twice: across crashes and restarts, the tokens, grant ids
and incarnations of successful answers only go up. -/
theorem identifiers_increase (h : History) (reached : Reachable (fun _ _ => True) h) :
    h.issued.tokens.Pairwise (· < ·) ∧ h.issued.grants.Pairwise (· < ·) ∧
      h.issued.incarnations.Pairwise (· < ·) := by
  have both : Kept (fun _ => True) h ∧ IssuedOnce h := by
    refine reached.invariant (P := fun h => Kept (fun _ => True) h ∧ IssuedOnce h) ?_ ?_
    · intro config clock boot fabric h begun
      refine ⟨kept_start trivial begun, ?_⟩
      obtain ⟨s, -, rfl⟩ := start_ok begun
      exact ⟨⟨.nil, by simp⟩, ⟨.nil, by simp⟩, ⟨.nil, by simp⟩⟩
    · intro h event h' ⟨kept, once⟩ _ stepped
      exact ⟨kept.step (fun _ _ _ _ _ _ => trivial) stepped, once.step kept.tracks stepped⟩
  exact ⟨both.2.tokens.increasing, both.2.grants.increasing, both.2.incarnations.increasing⟩

/-- An allocation, a crash that cuts a release after its first record, a recovery from
what is left, and two more answers. -/
theorem identifiers_increase_crash : ∃ h, Reachable (fun _ _ => True) h ∧
    h.issued.tokens = [1, 4] ∧ h.issued.grants = [1, 2] ∧ h.issued.incarnations = [1, 2, 3] ∧
    h.issued.tokens.Pairwise (· < ·) ∧ h.issued.grants.Pairwise (· < ·) ∧
      h.issued.incarnations.Pairwise (· < ·) := by
  have evaluated : (sampleStart.bind (guarded (fun _ _ => true) · [
      .call (.defineDomain (sampleDomain 100 120)) 1, .call .allocateIncarnation 2,
      .call (.allocateEpoch (sampleAllocation 100 120 1 1)) 3,
      .restart { inFlight := some (.release { grant := 1 }, 4, 1), config := sampleConfig },
      .call .recoverAfterRestart 5, .call .allocateIncarnation 6,
      .call (.allocateEpoch (sampleAllocation 100 120 3 1)) 7])).map
        (fun h => (h.issued.tokens, h.issued.grants, h.issued.incarnations)) =
      some ([1, 4], [1, 2], [1, 2, 3]) := by
    decide +kernel
  obtain ⟨h, ran, issued⟩ := Option.map_eq_some_iff.mp evaluated
  obtain ⟨tokens, issued⟩ := Prod.mk.inj issued
  obtain ⟨grants, incarnations⟩ := Prod.mk.inj issued
  have reached := sample_reachable ran
  exact ⟨h, reached, tokens, grants, incarnations, identifiers_increase h reached⟩

end History
end SplitBrainFabric
