import Mathlib.Data.List.TakeWhile
import SplitBrainFabric.Library.Runs
import SplitBrainFabric.Authority
import SplitBrainFabric.Fence

/-! The fence table over whole runs of `adopt` and `apply`, the calls that fail included:
its marks only rise, and what a refused `apply` leaves behind. -/

namespace SplitBrainFabric
open Words Runs

structure FenceAdmission where
  admitted : Bool := false
  status : Status := .ok
  explanation : Explanation := {}
  currentHighWater : FenceToken := 0

namespace FenceAdmission

def refusal (status : Status) (highWater : FenceToken) : FenceAdmission where
  status := status
  explanation := Explanation.add {} status.reason
  currentHighWater := highWater

end FenceAdmission

namespace FenceTable

/-- The loop of `admit`; an extent without a mark may be claimed with any token. -/
def admitFrom (t : FenceTable) (presented : FenceToken) (incarnation : IncarnationId)
    (grant : GrantId) (highest : FenceToken) : List ExtentId → FenceAdmission
  | [] => { admitted := true, status := .ok, currentHighWater := highest }
  | e :: rest =>
    match t.find e with
    | none => admitFrom t presented incarnation grant highest rest
    | some state =>
      if presented < state.highWaterToken then
        .refusal (.make .fenced .tokenFloorRejected state.highWaterToken) state.highWaterToken
      else if state.highWaterToken = presented ∧ state.ownerIncarnation ≠ incarnation then
        .refusal (.make .conflict .storeOwnerMismatch state.ownerIncarnation) state.highWaterToken
      else if state.highWaterToken = presented ∧ state.ownerGrant ≠ 0 ∧ state.ownerGrant ≠ grant then
        .refusal (.make .conflict .storeOwnerMismatch state.ownerGrant) state.highWaterToken
      else admitFrom t presented incarnation grant (max highest state.highWaterToken) rest

def admitToken (t : FenceTable) (presented : FenceToken) (scope : Scope) (incarnation : IncarnationId)
    (grant : GrantId) : FenceAdmission :=
  if scope.isEmpty then .refusal (.make .invalid .emptyExtentSet) 0
  else if presented = 0 then .refusal (.make .invalid .fenceTokenMissing) 0
  else t.admitFrom presented incarnation grant 0 scope.extents

section Admit

variable {t : FenceTable} {presented highest : FenceToken} {incarnation : IncarnationId}
  {grant : GrantId}

theorem admitFrom_below {l : List ExtentId}
    (low : ∃ e ∈ l, presented < t.highWater e) :
    (t.admitFrom presented incarnation grant highest l).admitted = false := by
  induction l generalizing highest with
  | nil =>
    obtain ⟨e, member, -⟩ := low
    cases member
  | cons e rest ih =>
    obtain ⟨x, member, below⟩ := low
    unfold admitFrom
    cases found : t.find e with
    | none =>
      have later : x ∈ rest := by
        rcases List.mem_cons.mp member with rfl | later
        · simp only [highWater, found] at below
          exact absurd below (not_lt.mpr UInt64.zero_le)
        · exact later
      exact ih ⟨x, later, below⟩
    | some state =>
      simp only
      split
      · rfl
      rename_i above
      split
      · rfl
      split
      · rfl
      have later : x ∈ rest := by
        rcases List.mem_cons.mp member with rfl | later
        · simp only [highWater, found] at below
          exact absurd below above
        · exact later
      exact ih ⟨x, later, below⟩

/-- A token below the mark of one extent of the scope is refused. -/
theorem admitToken_below {scope : Scope} (low : ∃ e ∈ scope.extents, presented < t.highWater e) :
    (t.admitToken presented scope incarnation grant).admitted = false := by
  unfold admitToken
  split
  · rfl
  split
  · rfl
  exact admitFrom_below low

end Admit

section Stopped

variable {t t' : FenceTable} {record : FenceRecord} {scope : Scope}

/-- The extents the loop of `apply` gets past: those before the first mark above the token. -/
def passed (t : FenceTable) (record : FenceRecord) (l : List ExtentId) : List ExtentId :=
  l.takeWhile fun e => decide (t.highWater e ≤ record.token)

theorem mem_passed {l : List ExtentId} {e : ExtentId} (member : e ∈ t.passed record l) :
    e ∈ l ∧ t.highWater e ≤ record.token :=
  ⟨List.takeWhile_subset _ member,
    of_decide_eq_true (List.all_eq_true.mp List.all_takeWhile e member)⟩

theorem passed_all {l : List ExtentId} (below : ∀ e ∈ l, t.highWater e ≤ record.token) :
    t.passed record l = l := by
  exact List.takeWhile_eq_self_iff.mpr fun e member => decide_eq_true (below e member)

/-- A raised extent stands at the token, so it still lets the loop pass. -/
theorem passed_raised (e : ExtentId) (below : t.highWater e ≤ record.token) (l : List ExtentId) :
    ({ t with extents := t.extents.put (raisedMark record e (t.find e)) } : FenceTable).passed
      record l = t.passed record l := by
  unfold passed
  congr 1
  funext x
  have moved : ({ t with extents := raiseAll record [e] t.extents } : FenceTable).highWater x =
      if x ∈ [e] then record.token else t.highWater x := highWater_raiseAll
  refine decide_eq_decide.mpr ?_
  have raised : ({ t with extents := t.extents.put (raisedMark record e (t.find e)) } :
      FenceTable).highWater x = if x ∈ [e] then record.token else t.highWater x := moved
  rw [raised]
  by_cases same : x = e
  · subst same
    simp [below]
  · simp [same]

theorem raise_forM_state (record : FenceRecord) (l : List ExtentId) (t : FenceTable) :
    ((l.forM (raise record)).exec t).2 =
      { t with extents := raiseAll record (t.passed record l) t.extents } := by
  induction l generalizing t with
  | nil => rfl
  | cons e rest ih =>
    rw [Prog.forM_cons, Prog.exec_bind, raise_exec, passed, List.takeWhile_cons]
    by_cases low : record.token < t.highWater e
    · rw [if_pos low, if_neg (by simpa using low)]
      rfl
    · rw [if_neg low, if_pos (by simpa using not_lt.mp low)]
      have later := ih { t with extents := t.extents.put (raisedMark record e (t.find e)) }
      rw [passed_raised e (not_lt.mp low)] at later
      exact later

/-- What a refused `apply` leaves behind, by where it is refused: at the door, at the
bound of the table, or in the loop. -/
theorem apply_stops {st : Status} (ran : (apply record scope).exec t = (.error st, t')) :
    (scope.isEmpty = true ∨ record.token = 0) ∧ t' = t ∨
      scope.isEmpty = false ∧ record.token ≠ 0 ∧
        (Limits.maxIndexedExtents < t.extents.size + scope.size ∧ t' = t.dropOldest ∨
          t.extents.size + scope.size ≤ Limits.maxIndexedExtents ∧
            t' = { t.dropOldest with
              extents := raiseAll record (t.passed record scope.extents) t.extents }) := by
  simp only [apply, Prog.exec_refuseIf, Prog.exec_modify_bind, Prog.exec_get_bind,
    dropOldest_extents] at ran
  split at ran
  · rename_i empty
    cases ran
    exact .inl ⟨.inl empty, rfl⟩
  rename_i filled
  split at ran
  · rename_i unset
    cases ran
    exact .inl ⟨.inr unset, rfl⟩
  rename_i set
  refine .inr ⟨by simpa using filled, set, ?_⟩
  split at ran
  · rename_i full
    cases ran
    exact .inl ⟨full, rfl⟩
  rename_i room
  refine .inr ⟨not_lt.mp room, ?_⟩
  have state := raise_forM_state record scope.extents t.dropOldest
  have same : t.dropOldest.passed record scope.extents = t.passed record scope.extents := by
    simp only [passed, dropOldest_highWater]
  rw [same, dropOldest_extents] at state
  rw [Prog.exec_bind] at ran
  rcases looped : (scope.extents.forM (raise record)).exec t.dropOldest with ⟨r, s⟩
  rw [looped] at ran state
  cases r with
  | ok u => cases ran
  | error e =>
    cases ran
    exact state

/-- A refused fence would leave the table as it is: it is refused at the door, or its
history has a place left and whatever it writes before it is refused stands there already. -/
def Unharmed (t : FenceTable) (record : FenceRecord) (scope : Scope) : Prop :=
  scope.isEmpty = true ∨ record.token = 0 ∨
    t.records.length < Limits.maxFenceRecords ∧
      (Limits.maxIndexedExtents < t.extents.size + scope.size ∨
        ∀ e ∈ t.passed record scope.extents,
          t.find e = some (raisedMark record e (t.find e)))

theorem raiseAll_standing {l : List ExtentId} {marks : ExtentMarks}
    (standing : ∀ e ∈ l, marks.find e = some (raisedMark record e (marks.find e))) :
    raiseAll record l marks = marks := by
  induction l with
  | nil => rfl
  | cons e rest ih =>
    have same : marks.put (raisedMark record e (marks.find e)) = marks :=
      SortedTable.put_self (standing e List.mem_cons_self)
    have later := ih fun x member => standing x (List.mem_cons_of_mem e member)
    rw [raiseAll, List.foldl_cons, same]
    exact later

theorem dropOldest_short (short : t.records.length < Limits.maxFenceRecords) : t.dropOldest = t :=
  if_neg (not_le.mpr short)

theorem short_of_dropOldest (same : t.dropOldest.records = t.records) :
    t.records.length < Limits.maxFenceRecords := by
  by_contra full
  have length := congrArg List.length same
  rw [dropOldest, if_pos (not_lt.mp full), List.length_tail] at length
  have positive : 0 < Limits.maxFenceRecords := by decide
  omega

/-- `apply` keeps the table when it refuses. -/
def Atomic (t : FenceTable) (record : FenceRecord) (scope : Scope) : Prop :=
  ∀ st t', (apply record scope).exec t = (.error st, t') → t' = t

theorem unharmed_of_refused {st : Status} (ran : (apply record scope).exec t = (.error st, t')) :
    t' = t ↔ Unharmed t record scope := by
  unfold Unharmed
  rcases apply_stops ran with ⟨door, same⟩ | ⟨filled, set, ⟨full, rfl⟩ | ⟨room, rfl⟩⟩
  · refine ⟨fun _ => ?_, fun _ => same⟩
    rcases door with empty | unset
    · exact .inl empty
    · exact .inr (.inl unset)
  · simp only [filled, set, full, true_or, and_true, Bool.false_eq_true, false_or]
    exact ⟨fun same => short_of_dropOldest (congrArg FenceTable.records same), dropOldest_short⟩
  · have fits : ¬ Limits.maxIndexedExtents < t.extents.size + scope.size := not_lt.mpr room
    simp only [filled, set, fits, Bool.false_eq_true, false_or]
    constructor
    · intro same
      have records := congrArg FenceTable.records same
      refine ⟨short_of_dropOldest records, fun e member => ?_⟩
      have marks := congrArg FenceTable.extents same
      simp only at marks
      have here := find_raiseAll record (t.passed record scope.extents) t.extents e
      rw [if_pos member, marks] at here
      exact here
    · rintro ⟨short, standing⟩
      rw [raiseAll_standing standing, dropOldest_short short]

theorem dropOldest_generation (t : FenceTable) : t.dropOldest.generation = t.generation := by
  unfold dropOldest
  split <;> rfl

theorem applied_generation : (applied t record scope).generation = tryIncrement t.generation := by
  have incarnation : ∀ u : FenceTable, (noteIncarnation record u).generation = u.generation := by
    intro u
    unfold noteIncarnation
    split_ifs <;> rfl
  have epoch : ∀ u : FenceTable, (noteEpoch record u).generation = u.generation := by
    intro u
    unfold noteEpoch
    split_ifs <;> rfl
  simp only [applied, bumpGeneration, epoch, incarnation, dropOldest_generation]

/-- A fence is atomic exactly when it goes through, or is refused where it does no harm; the
generation moves with every fence that goes through and with no other. -/
theorem apply_atomic_iff (t : FenceTable) (record : FenceRecord) (scope : Scope) :
    (Atomic t record scope ↔ Fenceable t record scope ∨ Unharmed t record scope) ∧
      (∀ st t', (apply record scope).exec t = (.error st, t') → t'.generation = t.generation) ∧
      ∀ t', (apply record scope).exec t = (.ok ⟨⟩, t') →
        t'.generation = tryIncrement t.generation := by
  rcases ran : (apply record scope).exec t with ⟨r, t'⟩
  refine ⟨?_, ?_, ?_⟩
  · cases r with
    | ok u =>
      have ready := (apply_ok ran).1
      refine ⟨fun _ => .inl ready, fun _ st t'' refused => ?_⟩
      rw [ran] at refused
      cases refused
    | error st =>
      have unready : ¬ Fenceable t record scope := by
        intro ready
        rw [apply_exec ready] at ran
        cases ran
      rw [or_iff_right unready, ← unharmed_of_refused ran]
      constructor
      · exact fun atomic => atomic st t' ran
      · rintro same st' t'' refused
        rw [ran] at refused
        cases refused
        exact same
  · rintro st t'' ⟨⟩
    rcases apply_stops ran with ⟨-, rfl⟩ | ⟨-, -, ⟨-, rfl⟩ | ⟨-, rfl⟩⟩
    · rfl
    · exact t.dropOldest_generation
    · exact t.dropOldest_generation
  · rintro t'' ⟨⟩
    obtain ⟨-, rfl⟩ := apply_ok ran
    exact applied_generation

end Stopped

section Harmed

theorem harmed_named : ∀ e ∈ [(Id.make [97] : ExtentId), Id.make [98]], e.isEmpty = false := by
  decide

def harmedScope : Scope := ⟨[Id.make [97], Id.make [98]], by decide, by decide, harmed_named⟩

/-- The second extent of the scope stands at token five. -/
def harmedTable : FenceTable :=
  ((adopt (Scope.single (Id.make [98]) (harmed_named _ (by decide))) 5 1 9 1 1).exec {}).2

def harmedFence : FenceRecord := { token := 3, domain := Id.make [100] }

/-- The fence is refused at the second extent, and has given the first one a mark. -/
theorem apply_not_atomic : ¬ ∀ t record scope, Atomic t record scope := by
  intro atomic
  have refused : ((apply harmedFence harmedScope).exec harmedTable).1 =
      .error (.make .fenced .fenceTokenRegressed 5) := by decide
  have same : ((apply harmedFence harmedScope).exec harmedTable).2 = harmedTable :=
    atomic harmedTable harmedFence harmedScope _ _ (Prod.ext refused rfl)
  have marked : ((apply harmedFence harmedScope).exec harmedTable).2.highWater (Id.make [97]) = 3 :=
    by decide
  rw [same] at marked
  exact absurd marked (by decide)

end Harmed

end FenceTable

inductive FenceCall where
  | adopt (scope : Scope) (token : FenceToken) (epoch : Epoch) (incarnation : IncarnationId)
    (grant : GrantId) (now : Step)
  | apply (record : FenceRecord) (scope : Scope)

namespace FenceCall

def program : FenceCall → Prog Status FenceTable PUnit
  | .adopt scope token epoch incarnation grant now =>
    FenceTable.adopt scope token epoch incarnation grant now
  | .apply record scope => FenceTable.apply record scope

def scope : FenceCall → Scope
  | .adopt scope .. => scope
  | .apply _ scope => scope

def token : FenceCall → FenceToken
  | .adopt _ token .. => token
  | .apply record _ => record.token

/-- Whom the call is made for. -/
def incarnation : FenceCall → IncarnationId
  | .adopt _ _ _ incarnation .. => incarnation
  | .apply record _ => record.fencedIncarnation

/-- What the call leaves at an extent it writes. -/
def mark (old : Option ExtentFenceState) (e : ExtentId) : FenceCall → ExtentFenceState
  | .adopt _ token epoch incarnation grant now => ⟨e, token, epoch, incarnation, grant, now⟩
  | .apply record _ => FenceTable.raisedMark record e old

@[simp] theorem mark_token (old : Option ExtentFenceState) (e : ExtentId) (c : FenceCall) :
    (c.mark old e).highWaterToken = c.token := by cases c <;> rfl

/-- A call that succeeds writes every extent of its scope; one that fails may have written
some of them. -/
structure Writes (c : FenceCall) (t t' : FenceTable) (written : List ExtentId) : Prop where
  inside : ∀ e ∈ written, e ∈ c.scope.extents
  above : ∀ e ∈ written, t.highWater e ≤ c.token
  set : written ≠ [] → c.token ≠ 0
  marks : ∀ e, t'.find e = if e ∈ written then some (c.mark (t.find e) e) else t.find e

theorem Writes.nothing {c : FenceCall} {t t' : FenceTable} (same : t'.extents = t.extents) :
    c.Writes t t' [] where
  inside := fun _ member => absurd member List.not_mem_nil
  above := fun _ member => absurd member List.not_mem_nil
  set := fun some' => absurd rfl some'
  marks := fun e => by simp [FenceTable.find, same]

theorem Writes.highWater {c : FenceCall} {t t' : FenceTable} {written : List ExtentId}
    (writes : c.Writes t t' written) (e : ExtentId) :
    t'.highWater e = if e ∈ written then c.token else t.highWater e := by
  rw [FenceTable.highWater, writes.marks]
  by_cases member : e ∈ written
  · simp [member]
  · simp [member, FenceTable.highWater]

theorem Writes.rises {c : FenceCall} {t t' : FenceTable} {written : List ExtentId}
    (writes : c.Writes t t' written) (e : ExtentId) : t.highWater e ≤ t'.highWater e := by
  rw [writes.highWater]
  split
  · rename_i member
    exact writes.above e member
  · exact le_rfl

theorem writes_of_ok {c : FenceCall} {t t' : FenceTable}
    (ran : c.program.exec t = (.ok ⟨⟩, t')) : c.Writes t t' c.scope.extents := by
  cases c with
  | adopt scope token epoch incarnation grant now =>
    obtain ⟨ready, rfl⟩ := FenceTable.adopt_ok ran
    refine ⟨fun _ member => member, fun e member => ?_, fun _ => ready.set, fun e =>
      FenceTable.adopted_find e⟩
    cases found : t.find e with
    | none => simp [FenceTable.highWater, found]
    | some state =>
      rw [FenceTable.highWater, found]
      exact (ready.admits e member state found).1
  | apply record scope =>
    obtain ⟨ready, rfl⟩ := FenceTable.apply_ok ran
    exact ⟨fun _ member => member, ready.admits, fun _ => ready.set, FenceTable.applied_find⟩

theorem writes_of_error {c : FenceCall} {t t' : FenceTable} {st : Status}
    (ran : c.program.exec t = (.error st, t')) : ∃ written, c.Writes t t' written := by
  cases c with
  | adopt scope token epoch incarnation grant now =>
    obtain rfl := FenceTable.adopt_failsClean st t' trivial ran
    exact ⟨[], .nothing rfl⟩
  | apply record scope =>
    rcases FenceTable.apply_stops ran with ⟨-, rfl⟩ | ⟨-, set, ⟨-, rfl⟩ | ⟨-, rfl⟩⟩
    · exact ⟨[], .nothing rfl⟩
    · exact ⟨[], .nothing t.dropOldest_extents⟩
    · refine ⟨t.passed record scope.extents, fun e member => (FenceTable.mem_passed member).1,
        fun e member => (FenceTable.mem_passed member).2, fun _ => set, fun e => ?_⟩
      exact FenceTable.find_raiseAll record _ t.extents e

theorem writes (c : FenceCall) (t : FenceTable) :
    ∃ written, c.Writes t (c.program.exec t).2 written := by
  rcases ran : c.program.exec t with ⟨r, t'⟩
  cases r with
  | ok u => exact ⟨_, writes_of_ok ran⟩
  | error st => exact writes_of_error ran

end FenceCall

namespace FenceTable

def after (t : FenceTable) (c : FenceCall) : FenceTable := (c.program.exec t).2

/-- Non-zero tokens within the two bounds; that the marks are sorted is part of their type. -/
structure Marked (t : FenceTable) : Prop extends Bounded t where
  tokens : ∀ e state, t.find e = some state → state.highWaterToken ≠ 0

theorem Marked.after {t : FenceTable} (marked : t.Marked) (c : FenceCall) : (t.after c).Marked where
  toBounded := by
    rcases ran : c.program.exec t with ⟨r, t'⟩
    rw [FenceTable.after, ran]
    cases c with
    | adopt scope token epoch incarnation grant now =>
      cases r with
      | ok u =>
        obtain ⟨ready, rfl⟩ := adopt_ok ran
        exact marked.toBounded.adopt ready
      | error st =>
        obtain rfl := adopt_failsClean st t' trivial ran
        exact marked.toBounded
    | apply record scope => exact marked.toBounded.apply ran
  tokens := by
    intro e state found
    obtain ⟨written, writes⟩ := c.writes t
    rw [FenceTable.after, writes.marks] at found
    split at found
    · rename_i member
      cases found
      rw [FenceCall.mark_token]
      exact writes.set (List.ne_nil_of_mem member)
    · exact marked.tokens e state found

theorem marked_empty : Marked {} where
  extents := Nat.zero_le _
  records := Nat.zero_le _
  tokens := fun _ _ found => by cases found

theorem highWater_run (t : FenceTable) (calls : List FenceCall) (e : ExtentId) :
    t.highWater e ≤ (run after t calls).highWater e := by
  refine run_relation (R := fun t t' => t.highWater e ≤ t'.highWater e) (fun _ => le_rfl)
    (fun _ _ _ => le_trans) (fun t c => ?_) t calls
  obtain ⟨written, writes⟩ := c.writes t
  exact writes.rises e

/-- Whatever calls come in whatever order, the marks stay well formed and only rise, and a
token below one that was taken for a scope is refused on every extent of it from then on. -/
theorem marks_only_rise (calls : List FenceCall) :
    ((run after {} calls).extents.rows.Pairwise (·.extent < ·.extent) ∧
      (∀ state ∈ (run after {} calls).extents.rows, state.highWaterToken ≠ 0) ∧
      (run after {} calls).extents.rows.length ≤ Limits.maxIndexedExtents) ∧
    (∀ later e, (run after {} calls).highWater e ≤ (run after {} (calls ++ later)).highWater e) ∧
    ∀ c later, (c.program.exec (run after {} calls)).1 = .ok ⟨⟩ →
      ∀ presented scope incarnation grant, presented < c.token →
        (∃ e ∈ c.scope.extents, e ∈ scope.extents) →
        ((run after {} (calls ++ c :: later)).admitToken presented scope incarnation grant).admitted =
          false := by
  have keeps : ∀ t c, Marked t → Marked (after t c) := fun _ c marked => marked.after c
  have marked : (run after {} calls).Marked := run_invariant keeps marked_empty calls
  refine ⟨⟨(run after {} calls).extents.sorted, fun state member => ?_, marked.extents⟩,
    fun later e => ?_, ?_⟩
  · exact marked.tokens state.extent state (SortedTable.find_mem member)
  · rw [run_append]
    exact highWater_run _ later e
  · intro c later accepted presented scope incarnation grant low shared
    obtain ⟨e, mine, theirs⟩ := shared
    rcases ran : c.program.exec (run after {} calls) with ⟨r, t'⟩
    rw [ran] at accepted
    cases accepted
    have raised : t'.highWater e = c.token := by
      rw [(FenceCall.writes_of_ok ran).highWater, if_pos mine]
    have still := highWater_run t' later e
    have split : run after {} (calls ++ c :: later) = run after t' later := by
      rw [run_append]
      show run after (after (run after {} calls) c) later = run after t' later
      rw [after, ran]
    rw [split]
    refine admitToken_below ⟨e, theirs, ?_⟩
    rw [raised] at still
    exact lt_of_lt_of_le low still

end FenceTable
end SplitBrainFabric
