import SplitBrainFabric.Ledger

/-! The life of a grant over whole histories: exclusive while open, and never open again
once it has left that state. -/

namespace SplitBrainFabric
open Words

/-- Grants in the order in which the log opened them. -/
def opensOf (log : List JournalRecord) : List EpochGrant :=
  log.filterMap fun r =>
    match r.said with
    | .grantOpen g => some g
    | _ => none

theorem opensOf_append (log more : List JournalRecord) :
    opensOf (log ++ more) = opensOf log ++ opensOf more := List.filterMap_append

/-- A record about anything but the opening of a grant. -/
theorem opensOf_other {log : List JournalRecord} {r : JournalRecord}
    (other : ∀ g, r.said ≠ .grantOpen g) : opensOf (log ++ [r]) = opensOf log := by
  rw [opensOf_append]
  have none : opensOf [r] = [] := by
    rw [opensOf, List.filterMap_cons]
    split
    · rfl
    · rename_i g found
      split at found
      · rename_i opened said
        exact absurd said (other opened)
      · cases found
  rw [none, List.append_nil]

theorem opensOf_open {log : List JournalRecord} {r : JournalRecord} {g : EpochGrant}
    (said : r.said = .grantOpen g) : opensOf (log ++ [r]) = opensOf log ++ [g] := by
  rw [opensOf_append]
  simp only [opensOf, List.filterMap_cons, said, List.filterMap_nil]

/-- What a move does to the grants: nothing, one closes, or one that is new in every
respect opens. -/
inductive Turnover (s : RegistryState) (grants opens : List EpochGrant) :
    List EpochGrant → List EpochGrant → Prop
  | none : Turnover s grants opens grants opens
  | closed (g : EpochGrant) : Turnover s grants opens ((Entry.grantClose g).grants grants) opens
  | opened {g : EpochGrant} (fresh : Opens s g) (ready : s.lineage.Openable g) :
    Turnover s grants opens (LineageTable.roomFor grants ++ [g]) (opens ++ [g])

/-- A single record turns over what its entry says. -/
theorem Turnover.single {s : RegistryState} {log : List JournalRecord} {r : JournalRecord}
    (other : ∀ g, r.said ≠ .grantOpen g) :
    Turnover s (grantsOf log) (opensOf log) (grantsOf (log ++ [r])) (opensOf (log ++ [r])) := by
  rw [opensOf_other other, grantsOf_append]
  cases said : r.said with
  | grantOpen g => exact absurd said (other g)
  | grantClose g => exact .closed g
  | silent | bootBegin _ | bootEnd _ | policyDefine _ | domainDefine _ | fence _ _
  | extentAdopt _ _ | commitRecord | incarnationAllocate _ | interruptMark _ => exact .none

theorem said_ne_open {s : RegistryState} {r : JournalRecord}
    (sane : ∀ entry, r.entry = .ok entry → Sane s entry) (g : EpochGrant) :
    r.said ≠ .grantOpen g := by
  intro said
  unfold JournalRecord.said at said
  cases read : r.entry with
  | error st => rw [read] at said; cases said
  | ok entry =>
    rw [read] at said
    simp only at said
    have impossible := sane entry read
    rw [said] at impossible
    exact impossible

theorem said_ne_open_of_boots {s : RegistryState} {r : JournalRecord}
    (boots : ∀ entry, r.entry = .ok entry → s.Boots entry) (g : EpochGrant) :
    r.said ≠ .grantOpen g := by
  intro said
  unfold JournalRecord.said at said
  cases read : r.entry with
  | error st => rw [read] at said; cases said
  | ok entry =>
    rw [read] at said
    simp only at said
    obtain ⟨boot, begun, _⟩ := boots entry read
    rw [said] at begun
    cases begun

theorem Tracks.turnover {log : List JournalRecord} {w w' : Work}
    (tracks : Tracks w.state (log ++ w.emitted)) (move : Work.Move w w') :
    Turnover w.state (grantsOf (log ++ w.emitted)) (opensOf (log ++ w.emitted))
      (grantsOf (log ++ w'.emitted)) (opensOf (log ++ w'.emitted)) := by
  cases move with
  | aside _ _ _ | lost _ _ _ | bootLost _ _ _ _ => exact .none
  | kept next sane ran =>
    simp only [Work.kept, ← List.append_assoc]
    exact .single (said_ne_open sane)
  | booted below next boots ran =>
    simp only [Work.kept, ← List.append_assoc]
    exact .single (said_ne_open_of_boots boots)
  | openLost adoption next read ran =>
    simp only [Work.kept, Work.lost, ← List.append_assoc]
    exact .single (said_ne_open adoption.sane)
  | @opened g adopt record s₁ s₂ adoption next read ran =>
    have adopted := tracks.next_accepted adoption.next adoption.ran
    obtain ⟨now, known⟩ := adoption.read
    have grants : grantsOf (log ++ w.emitted ++ [adopt]) = grantsOf (log ++ w.emitted) := by
      rw [grantsOf_append, JournalRecord.said_of known]
      rfl
    have opens : opensOf (log ++ w.emitted ++ [adopt]) = opensOf (log ++ w.emitted) :=
      opensOf_other (said_ne_open adoption.sane)
    have lineage : s₁.lineage = w.state.lineage :=
      RegistryState.apply_lineage (fun entry read => by rw [known] at read; cases read; rfl)
        adoption.ran
    have ready : w.state.lineage.Openable g := by
      obtain ⟨-, -, entry, said, enacted⟩ := RegistryState.apply_ok ran
      rw [read] at said
      cases said
      have bounded : ((RegistryState.bumpGeneration s₁).observe record).lineage.Bounded :=
        adopted.sound.bounded
      rcases RegistryState.enact_grantOpen bounded enacted with ⟨-, ready, -⟩ | ⟨⟨st, failed⟩, -⟩
      · have same : s₁.lineage.Openable g := ready
        rwa [lineage] at same
      · cases failed
    have said := JournalRecord.said_of read
    simp only [Work.kept, ← List.append_assoc]
    rw [grantsOf_append, said, grants, opensOf_open said, opens]
    exact .opened adoption.opens ready

/-- No two open grants share an extent. -/
def Exclusive (grants : List EpochGrant) : Prop :=
  grants.Pairwise fun g o => g.isOpen = true → o.isOpen = true →
    ∀ e ∈ g.extents.extents, e ∉ o.extents.extents

theorem Exclusive.close {grants : List EpochGrant} (exclusive : Exclusive grants) (g : EpochGrant) :
    Exclusive ((Entry.grantClose g).grants grants) := by
  rcases Entry.grants_close grants g with same | ⟨ends, same⟩
  · rwa [same]
  · have shut : ∀ o : EpochGrant, (o.close g.state g.closeReason g.closedAt).isOpen ≠ true :=
      fun o active => ends (EpochGrant.isOpen_iff.mp active)
    rw [same]
    exact pairwise_updateFirst (fun x _ _ active => absurd active (shut x))
      (fun _ y _ _ active => absurd active (shut y)) exclusive

theorem Exclusive.opened {grants : List EpochGrant} {g : EpochGrant} (exclusive : Exclusive grants)
    (free : ∀ o ∈ grants, o.isOpen = true → o.extents.overlaps g.extents = false) :
    Exclusive (LineageTable.roomFor grants ++ [g]) := by
  refine List.pairwise_append.mpr ⟨exclusive.sublist (LineageTable.roomFor_sublist grants),
    List.pairwise_singleton _ _, ?_⟩
  intro o member g' last active _ e inside
  rw [List.mem_singleton.mp last]
  have apart := free o ((LineageTable.roomFor_sublist grants).subset member) active
  exact Scope.outside_of_apart apart inside

theorem Exclusive.entry {entry : Entry} {grants : List EpochGrant} (exclusive : Exclusive grants)
    (free : ∀ g, entry = .grantOpen g → ∀ o ∈ grants, o.isOpen = true →
      o.extents.overlaps g.extents = false) : Exclusive (entry.grants grants) := by
  cases entry with
  | grantOpen g => exact exclusive.opened (free g rfl)
  | grantClose g => exact exclusive.close g
  | silent | bootBegin _ | bootEnd _ | policyDefine _ | domainDefine _ | fence _ _
  | extentAdopt _ _ | commitRecord | incarnationAllocate _ | interruptMark _ => exact exclusive

theorem Exclusive.turnover {s : RegistryState} {grants opens grants' opens' : List EpochGrant}
    (exclusive : Exclusive grants) (same : s.lineage.grants = grants)
    (turnover : Turnover s grants opens grants' opens') : Exclusive grants' := by
  cases turnover with
  | none => exact exclusive
  | closed g => exact exclusive.close g
  | opened fresh ready => exact exclusive.opened (same ▸ fresh.free)

namespace History

/-- Mutual exclusion: in every history, whatever was called and however often the
registry was restarted, open grants have disjoint extents. -/
theorem mutual_exclusion (h : History) (reached : Reachable (fun _ _ => True) h) :
    Exclusive h.live.lineage.grants := by
  have kept : Kept (fun log => Exclusive (grantsOf log)) h := by
    refine reached.kept List.Pairwise.nil ?_
    intro log w w' tracks exclusive move
    exact exclusive.turnover tracks.grants (tracks.turnover move)
  rw [kept.tracks.grants]
  exact kept.lawful

section Sample

def sampleConfig : RegistryConfig where
  storeId := Id.make [115]
  node := Id.make [110]
  policy := {
    policy := Id.make [112]
    quorum := { policy := Id.make [112], witnesses := [⟨Id.make [97], Id.make [102]⟩] } }

def sampleScope (extent : UInt8) : Scope :=
  match Scope.make [Id.make [extent]] with
  | .ok scope => scope
  | .error _ => Scope.empty

def sampleDomain (name extent : UInt8) : DomainDefinition where
  domain := Id.make [name]
  node := Id.make [110]
  scope := sampleScope extent
  policy := Id.make [112]

def sampleAllocation (name extent : UInt8) (incarnation : IncarnationId) (attempt : Sequence) :
    AllocateEpochRequest where
  domain := Id.make [name]
  scope := sampleScope extent
  incarnation := incarnation
  boot := 1
  attemptSequence := attempt

def sampleStart : Option History := start sampleConfig 0 { node := Id.make [110] } {}

/-- Two domains on different extents, and a replay of the whole journal at the end. -/
def sampleEvents : List Event := [
  .call (.defineDomain (sampleDomain 100 120)) 1, .call (.defineDomain (sampleDomain 101 121)) 2,
  .call .allocateIncarnation 3, .call (.allocateEpoch (sampleAllocation 100 120 1 1)) 4,
  .call (.allocateEpoch (sampleAllocation 101 121 1 2)) 5, .restart { config := sampleConfig }]

def sampleRun : Option History := sampleStart.bind (guarded (fun _ _ => true) · sampleEvents)

theorem sample_reachable {h : History} {events : List Event}
    (ran : sampleStart.bind (guarded (fun _ _ => true) · events) = some h) :
    Reachable (fun _ _ => True) h := by
  obtain ⟨h₀, begun, ran⟩ := Option.bind_eq_some_iff.mp ran
  have first : Reachable (fun _ _ => True) h₀ := ⟨_, _, _, _, h₀, begun, .refl⟩
  exact first.turns (guarded_turns (fun _ _ _ => trivial) ran)

end Sample

theorem mutual_exclusion_sample :
    ∃ h, Reachable (fun _ _ => True) h ∧ (h.live.lineage.grants.filter (·.isOpen)).length = 2 ∧
      Exclusive h.live.lineage.grants := by
  have counted : sampleRun.map (fun h => (h.live.lineage.grants.filter (·.isOpen)).length) =
      some 2 := by
    decide +kernel
  obtain ⟨h, ran, two⟩ := Option.map_eq_some_iff.mp counted
  have reached := sample_reachable ran
  exact ⟨h, reached, two, mutual_exclusion h reached⟩

end History

theorem mem_opensOf {log : List JournalRecord} {g : EpochGrant} :
    g ∈ opensOf log ↔ ∃ r ∈ log, r.said = .grantOpen g := by
  rw [opensOf, List.mem_filterMap]
  constructor
  · rintro ⟨r, member, found⟩
    split at found
    · rename_i opened said
      cases found
      exact ⟨r, member, said⟩
    · cases found
  · rintro ⟨r, member, said⟩
    exact ⟨r, member, by rw [said]⟩

/-- Every grant was opened by the log; all it may have done since is end. -/
theorem closed_from_log {log : List JournalRecord} {o : EpochGrant} (member : o ∈ grantsOf log) :
    ∃ g ∈ opensOf log, ∃ state reason step, o = g.close state reason step := by
  induction log using List.reverseRecOn generalizing o with
  | nil => cases member
  | append_singleton log r ih =>
    have before : ∀ o ∈ grantsOf log, ∃ g ∈ opensOf (log ++ [r]), ∃ state reason step,
        o = g.close state reason step := by
      intro o inside
      obtain ⟨g, opened, same⟩ := ih inside
      exact ⟨g, by rw [opensOf_append]; exact List.mem_append_left _ opened, same⟩
    rw [grantsOf_append] at member
    cases said : r.said with
    | grantOpen g =>
      rw [said] at member
      rcases List.mem_append.mp member with old | last
      · exact before o ((LineageTable.roomFor_sublist _).subset old)
      · rw [List.mem_singleton.mp last, opensOf_open said]
        exact ⟨g, by simp, g.state, g.closeReason, g.closedAt, rfl⟩
    | grantClose g =>
      rw [said] at member
      rcases Entry.grants_close (grantsOf log) g with same | ⟨-, same⟩
      · exact before o (same ▸ member)
      · rw [same] at member
        rcases mem_updateFirst member with old | ⟨x, old, -, rfl⟩
        · exact before o old
        · obtain ⟨first, opened, _, _, _, rfl⟩ := before x old
          exact ⟨first, opened, g.state, g.closeReason, g.closedAt, rfl⟩
    | silent | bootBegin _ | bootEnd _ | policyDefine _ | domainDefine _ | fence _ _
    | extentAdopt _ _ | commitRecord | incarnationAllocate _ | interruptMark _ =>
      rw [said] at member
      exact before o member

/-- It has the id and the token it was opened under. -/
theorem opened_by_log {log : List JournalRecord} {o : EpochGrant} (member : o ∈ grantsOf log) :
    ∃ g ∈ opensOf log, g.id = o.id ∧ g.fenceToken = o.fenceToken := by
  obtain ⟨g, opened, _, _, _, rfl⟩ := closed_from_log member
  exact ⟨g, opened, rfl, rfl⟩

/-- Ids and tokens are opened in increasing order. -/
def Increasing (log : List JournalRecord) : Prop :=
  (opensOf log).Pairwise fun g o => g.id < o.id ∧ g.fenceToken < o.fenceToken

theorem Tracks.increasing {log : List JournalRecord} {w w' : Work}
    (tracks : Tracks w.state (log ++ w.emitted)) (increasing : Increasing (log ++ w.emitted))
    (move : Work.Move w w') : Increasing (log ++ w'.emitted) := by
  have turnover := tracks.turnover move
  unfold Increasing at *
  generalize opensOf (log ++ w'.emitted) = opens' at turnover ⊢
  generalize grantsOf (log ++ w'.emitted) = grants' at turnover
  cases turnover with
  | none => exact increasing
  | closed _ => exact increasing
  | opened fresh ready =>
    refine List.pairwise_append.mpr ⟨increasing, List.pairwise_singleton _ _, ?_⟩
    intro g earlier o last
    rw [List.mem_singleton.mp last]
    obtain ⟨r, member, said⟩ := mem_opensOf.mp earlier
    have id := tracks.ids r member
    have token := tracks.tokens r member
    rw [said] at id token
    rw [fresh.id, fresh.token]
    exact ⟨lt_of_le_of_lt id (lt_succ fresh.idRoom), lt_of_le_of_lt token (lt_succ fresh.tokenRoom)⟩

/-- Records after a grant has left the open state do not open it again. -/
theorem stays_closed {log rest : List JournalRecord} {g : EpochGrant}
    (increasing : Increasing (log ++ rest)) (opened : g ∈ opensOf log)
    (left : ∀ o ∈ grantsOf log, o.isOpen = true → o.id ≠ g.id) :
    ∀ o ∈ grantsOf (log ++ rest), o.isOpen = true → o.id ≠ g.id := by
  induction rest generalizing log with
  | nil => rwa [List.append_nil]
  | cons r rest ih =>
    rw [List.append_cons] at increasing ⊢
    refine ih increasing (by rw [opensOf_append]; exact List.mem_append_left _ opened) ?_
    intro o member active
    rw [grantsOf_append] at member
    cases said : r.said with
    | grantOpen g' =>
      rw [said] at member
      rcases List.mem_append.mp member with old | last
      · exact left o ((LineageTable.roomFor_sublist _).subset old) active
      · rw [List.mem_singleton.mp last]
        unfold Increasing at increasing
        rw [opensOf_append, opensOf_open said, List.append_assoc] at increasing
        have less := (List.pairwise_append.mp increasing).2.2 g opened g' (by simp)
        exact ne_of_gt less.1
    | grantClose g' =>
      rw [said] at member
      rcases Entry.grants_close (grantsOf log) g' with same | ⟨ends, same⟩
      · exact left o (same ▸ member) active
      · rw [same] at member
        rcases mem_updateFirst member with old | ⟨x, -, -, rfl⟩
        · exact left o old active
        · exact absurd (EpochGrant.isOpen_iff.mp active) ends
    | silent | bootBegin _ | bootEnd _ | policyDefine _ | domainDefine _ | fence _ _
    | extentAdopt _ _ | commitRecord | incarnationAllocate _ | interruptMark _ =>
      rw [said] at member
      exact left o member active

namespace History

/-- Any number of further events. -/
abbrev Run : History → History → Prop := Relation.ReflTransGen (Turn fun _ _ => True)

theorem log_grows {h h' : History} {event : Event} (stepped : h.step event = some h') :
    h.log <+: h'.log := by
  cases step_cases stepped with
  | called op now => exact List.prefix_append _ _
  | saved => exact List.prefix_rfl
  | rebuilt s fills => exact List.prefix_rfl
  | ticked room => exact List.prefix_rfl
  | reloaded files s ran =>
    unfold survived
    split
    · exact List.prefix_rfl
    · exact List.prefix_append _ _

theorem Run.log_grows {h h' : History} (run : Run h h') : h.log <+: h'.log := by
  induction run with
  | refl => exact List.prefix_rfl
  | tail _ last ih =>
    obtain ⟨_, _, stepped⟩ := last
    exact ih.trans (History.log_grows stepped)

/-- The life of a grant goes one way: once it is no longer open, through a close of any
kind or an eviction, no later state has it or its token open, and a commit that names
it is refused and leaves everything as it was. -/
theorem grant_one_way (h₁ h₂ h₃ : History) (g : EpochGrant)
    (reached : Reachable (fun _ _ => True) h₁) (held : g ∈ h₁.live.lineage.grants)
    (meanwhile : Run h₁ h₂) (left : ∀ o ∈ h₂.live.lineage.grants, o.isOpen = true → o.id ≠ g.id)
    (later : Run h₂ h₃) :
    (∀ o ∈ h₃.live.lineage.grants, o.isOpen = true → o.id ≠ g.id ∧ o.fenceToken ≠ g.fenceToken) ∧
      ∀ request now io, request.grant = g.id →
        ∃ refusal, (Work.commit request now io).exec h₃.work = (.error refusal, h₃.work) := by
  have kept : ∀ h, Reachable (fun _ _ => True) h → Kept Increasing h := fun h r =>
    r.kept List.Pairwise.nil fun _ _ _ tracks increasing move => tracks.increasing increasing move
  have kept₁ := kept h₁ reached
  have kept₂ := kept h₂ (reached.turns meanwhile)
  have kept₃ := kept h₃ ((reached.turns meanwhile).turns later)
  rw [kept₁.tracks.grants] at held
  obtain ⟨origin, opened, id, token⟩ := opened_by_log held
  obtain ⟨middle, log₂⟩ := Run.log_grows meanwhile
  obtain ⟨rest, log₃⟩ := Run.log_grows later
  have opened₂ : origin ∈ opensOf h₂.log := by
    rw [← log₂, opensOf_append]
    exact List.mem_append_left _ opened
  have opened₃ : origin ∈ opensOf h₃.log := by
    rw [← log₃, opensOf_append]
    exact List.mem_append_left _ opened₂
  have closed : ∀ o ∈ h₃.live.lineage.grants, o.isOpen = true → o.id ≠ g.id := by
    rw [kept₃.tracks.grants, ← log₃, ← id]
    refine stays_closed (log₃ ▸ kept₃.lawful) opened₂ ?_
    rw [← kept₂.tracks.grants, id]
    exact left
  refine ⟨fun o member active => ⟨closed o member active, fun same => ?_⟩, ?_⟩
  · have other := closed o member active
    rw [kept₃.tracks.grants] at member
    obtain ⟨origin', opened', id', token'⟩ := opened_by_log member
    -- Tokens are opened in increasing order, so equal tokens are one opening.
    have distinct : ((opensOf h₃.log).map (·.fenceToken)).Nodup :=
      List.Pairwise.map _ (fun _ _ less => ne_of_lt less.2) kept₃.lawful
    have unique : origin' = origin :=
      List.inj_on_of_nodup_map distinct opened' opened₃ (by rw [token', token, same])
    exact other (by rw [← id', unique, id])
  · intro request now io names
    rcases ran : (Work.commit request now io).exec h₃.work with ⟨r, w'⟩
    rcases (Work.commit_spec ran).2 with ⟨refusal, rfl, rfl⟩ | ⟨o, holds⟩
    · exact ⟨refusal, rfl⟩
    · obtain ⟨member, same⟩ := LineageTable.find_some holds.found
      exact absurd (same.trans names) (closed o member holds.active)

/-- A grant that is released, and a replay of the journal after that. -/
theorem grant_one_way_released : ∃ h₁ h₂ h₃ g, Reachable (fun _ _ => True) h₁ ∧
    g ∈ h₁.live.lineage.grants ∧ g.isOpen = true ∧ Run h₁ h₂ ∧ Run h₂ h₃ ∧
    (∀ o ∈ h₃.live.lineage.grants, o.isOpen = true → o.id ≠ g.id ∧ o.fenceToken ≠ g.fenceToken) ∧
      ∀ request now io, request.grant = g.id →
        ∃ refusal, (Work.commit request now io).exec h₃.work = (.error refusal, h₃.work) := by
  have evaluated : ((sampleStart.bind (guarded (fun _ _ => true) · [
      .call (.defineDomain (sampleDomain 100 120)) 1, .call .allocateIncarnation 2,
      .call (.allocateEpoch (sampleAllocation 100 120 1 1)) 3])).bind fun h₁ =>
    (h₁.guarded (fun _ _ => true) [.call (.release { grant := 1 }) 4]).bind fun h₂ =>
    (h₂.guarded (fun _ _ => true) [.restart { config := sampleConfig }]).map fun _ =>
      (h₁.live.lineage.grants.any (fun g => g.id == 1 && g.isOpen),
        h₂.live.lineage.grants.all (fun g => !g.isOpen))) = some (true, true) := by
    decide +kernel
  obtain ⟨h₁, first, evaluated⟩ := Option.bind_eq_some_iff.mp evaluated
  obtain ⟨h₂, second, evaluated⟩ := Option.bind_eq_some_iff.mp evaluated
  obtain ⟨h₃, third, states⟩ := Option.map_eq_some_iff.mp evaluated
  obtain ⟨opened, closed⟩ := Prod.mk.inj states
  obtain ⟨g, held, known⟩ := List.any_eq_true.mp opened
  have active : g.isOpen = true := (Bool.and_eq_true_iff.mp known).2
  have left : ∀ o ∈ h₂.live.lineage.grants, o.isOpen = true → o.id ≠ g.id := by
    intro o member isOpen
    have shut := List.all_eq_true.mp closed o member
    rw [isOpen] at shut
    cases shut
  have reached := sample_reachable first
  have meanwhile : Run h₁ h₂ := guarded_turns (fun _ _ _ => trivial) second
  have later : Run h₂ h₃ := guarded_turns (fun _ _ _ => trivial) third
  exact ⟨h₁, h₂, h₃, g, reached, held, active, meanwhile, later,
    grant_one_way h₁ h₂ h₃ g reached held meanwhile left later⟩

end History
end SplitBrainFabric
