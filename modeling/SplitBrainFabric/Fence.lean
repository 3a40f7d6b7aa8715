import SplitBrainFabric.Library.Program
import SplitBrainFabric.Library.SortedTable
import SplitBrainFabric.Scope
import Mathlib.Data.Prod.Lex

/-! The durable fence table: per-extent high-water marks, the bounded fence history,
and the incarnations and epochs it names. -/

namespace SplitBrainFabric
open Words

structure FenceRecord where
  token : FenceToken := 0
  domain : DomainId := Id.empty
  scope : Digest256 := Digest256.zero
  fencedEpoch : Epoch := 0
  fencedIncarnation : IncarnationId := 0
  cause : Reason := .none
  issuedAt : Step := 0
  supersededGrant : GrantId := 0
  registrySequence : Sequence := 1
  previousHighWater : FenceToken := 0
  deriving DecidableEq

structure ExtentFenceState where
  extent : ExtentId := Id.empty
  highWaterToken : FenceToken := 0
  highWaterEpoch : Epoch := 0
  ownerIncarnation : IncarnationId := 0
  ownerGrant : GrantId := 0
  updatedAt : Step := 0
  deriving DecidableEq

/-- Marks sorted by extent, at most one for each. -/
abbrev ExtentMarks := SortedTable ExtentFenceState.extent

namespace ExtentMarks

/-- Overwrite or insert the mark of every listed extent. -/
def stamp (mark : ExtentId → ExtentFenceState) (l : List ExtentId) (marks : ExtentMarks) :
    ExtentMarks :=
  l.foldl (fun m e => m.put (mark e)) marks

theorem find_stamp {mark : ExtentId → ExtentFenceState} (placed : ∀ e, (mark e).extent = e)
    (l : List ExtentId) (marks : ExtentMarks) (x : ExtentId) :
    (stamp mark l marks).find x = if x ∈ l then some (mark x) else marks.find x := by
  induction l generalizing marks with
  | nil => rfl
  | cons e rest ih =>
    have step := ih (marks.put (mark e))
    rw [SortedTable.find_put, placed e] at step
    refine step.trans ?_
    by_cases later : x ∈ rest
    · simp [later]
    · by_cases here : e = x
      · simp [later, here]
      · simp [later, here, Ne.symm here]

/-- One extent after another, the first objection wins: a mark above the token, or at
the token under another incarnation. -/
def check (below foreign : ExtentFenceState → Status) (marks : ExtentMarks) (token : FenceToken)
    (incarnation : IncarnationId) : List ExtentId → Except Status PUnit
  | [] => .ok ⟨⟩
  | e :: rest =>
    match marks.find e with
    | none => check below foreign marks token incarnation rest
    | some state =>
      if token < state.highWaterToken then .error (below state)
      else if state.highWaterToken = token ∧ state.ownerIncarnation ≠ incarnation then
        .error (foreign state)
      else check below foreign marks token incarnation rest

def Admits (marks : ExtentMarks) (token : FenceToken) (incarnation : IncarnationId)
    (l : List ExtentId) : Prop :=
  ∀ e ∈ l, ∀ state, marks.find e = some state → state.highWaterToken ≤ token ∧
    (state.highWaterToken = token → state.ownerIncarnation = incarnation)

theorem check_ok {below foreign : ExtentFenceState → Status} {marks : ExtentMarks}
    {token : FenceToken} {incarnation : IncarnationId} {l : List ExtentId} :
    check below foreign marks token incarnation l = .ok ⟨⟩ ↔
      Admits marks token incarnation l := by
  induction l with
  | nil => simp [check, Admits]
  | cons e rest ih =>
    unfold check
    cases found : marks.find e with
    | none => simpa [Admits, found] using ih
    | some state =>
      by_cases low : token < state.highWaterToken
      · simp [Admits, low, found]
      · by_cases other : state.highWaterToken = token ∧ state.ownerIncarnation ≠ incarnation
        · simp only [if_neg low, if_pos other]
          constructor
          · intro h; cases h
          · intro all
            exact absurd ((all e List.mem_cons_self state found).2 other.1) other.2
        · have kept : state.highWaterToken = token → state.ownerIncarnation = incarnation := by
            intro same
            by_contra differ
            exact other ⟨same, differ⟩
          simp only [if_neg low, if_neg other, ih, Admits, List.mem_cons, forall_eq_or_imp,
            found, Option.some.injEq]
          constructor
          · intro all
            exact ⟨fun s same => same ▸ ⟨not_lt.mp low, kept⟩, all⟩
          · exact fun all => all.2

end ExtentMarks

abbrev IncarnationSet := SortedTable (id : IncarnationId → IncarnationId)

abbrev EpochSet := SortedTable (fun p : DomainId × Epoch => toLex p)

structure FenceTable where
  extents : ExtentMarks := SortedTable.empty
  records : List FenceRecord := []
  fencedIncarnations : IncarnationSet := SortedTable.empty
  fencedEpochs : EpochSet := SortedTable.empty
  generation : Generation := 1
  deriving DecidableEq

namespace FenceTable

def find (t : FenceTable) (e : ExtentId) : Option ExtentFenceState := t.extents.find e

def highWater (t : FenceTable) (e : ExtentId) : FenceToken :=
  match t.find e with
  | some state => state.highWaterToken
  | none => 0

def incarnationFenced (t : FenceTable) (i : IncarnationId) : Bool :=
  if i = 0 then false else (t.fencedIncarnations.find i).isSome

def epochFenced (t : FenceTable) (d : DomainId) (e : Epoch) : Bool :=
  if d.isEmpty || e == 0 then false else (t.fencedEpochs.find (toLex (d, e))).isSome

def bumpGeneration (t : FenceTable) : FenceTable :=
  { t with generation := tryIncrement t.generation }

/-- The first loop of `adopt`: it looks at every extent before any is written. -/
def adoptCheck (t : FenceTable) (token : FenceToken) (incarnation : IncarnationId)
    (l : List ExtentId) : Except Status PUnit :=
  ExtentMarks.check (fun s => .make .fenced .fenceTokenRegressed s.highWaterToken)
    (fun s => .make .conflict .storeOwnerMismatch s.ownerIncarnation) t.extents token incarnation l

def adopt (scope : Scope) (token : FenceToken) (epoch : Epoch) (incarnation : IncarnationId)
    (grant : GrantId) (now : Step) : Prog Status FenceTable PUnit := do
  Prog.refuseIf (scope.isEmpty = true) (.make .invalid .emptyExtentSet)
  Prog.refuseIf (token = 0) (.make .invalid .fenceTokenMissing)
  Prog.refuseIf (incarnation = 0) (.make .invalid .valueOutOfRange)
  let t ← get
  Prog.ofExcept (t.adoptCheck token incarnation scope.extents)
  Prog.refuseIf (Limits.maxIndexedExtents < t.extents.size + scope.size)
    (.make .exhausted .boundedTableFull (UInt64.ofNat t.extents.size))
  modify fun t => bumpGeneration { t with
    extents := ExtentMarks.stamp (⟨·, token, epoch, incarnation, grant, now⟩) scope.extents
      t.extents }

/-- What `adopt` needs of the table it finds. -/
structure Adoptable (t : FenceTable) (scope : Scope) (token : FenceToken)
    (incarnation : IncarnationId) : Prop where
  filled : scope.isEmpty = false
  set : token ≠ 0
  owner : incarnation ≠ 0
  admits : ExtentMarks.Admits t.extents token incarnation scope.extents
  room : t.extents.size + scope.size ≤ Limits.maxIndexedExtents

def adopted (t : FenceTable) (scope : Scope) (token : FenceToken) (epoch : Epoch)
    (incarnation : IncarnationId) (grant : GrantId) (now : Step) : FenceTable :=
  bumpGeneration { t with
    extents := ExtentMarks.stamp (⟨·, token, epoch, incarnation, grant, now⟩) scope.extents
      t.extents }

section Adopt

variable {t t' : FenceTable} {scope : Scope} {token : FenceToken} {epoch : Epoch}
  {incarnation : IncarnationId} {grant : GrantId} {now : Step}

theorem adopt_ok (ran : (adopt scope token epoch incarnation grant now).exec t = (.ok ⟨⟩, t')) :
    Adoptable t scope token incarnation ∧
      t' = adopted t scope token epoch incarnation grant now := by
  obtain ⟨filled, ran⟩ := Prog.refuseIf_ok ran
  obtain ⟨set, ran⟩ := Prog.refuseIf_ok ran
  obtain ⟨owner, ran⟩ := Prog.refuseIf_ok ran
  rw [Prog.exec_get_bind] at ran
  obtain ⟨_, admits, ran⟩ := Prog.ofExcept_ok ran
  obtain ⟨room, ran⟩ := Prog.refuseIf_ok ran
  refine ⟨⟨by simpa using filled, set, owner, ExtentMarks.check_ok.mp admits, by omega⟩, ?_⟩
  cases ran
  rfl

theorem adopt_failsClean : (adopt scope token epoch incarnation grant now).FailsClean t :=
  .refuseIf fun _ => .refuseIf fun _ => .refuseIf fun _ => .get <|
    .ofExcept fun _ _ => .refuseIf fun _ => .modify _ _

theorem adopt_exec (ready : Adoptable t scope token incarnation) :
    (adopt scope token epoch incarnation grant now).exec t =
      (.ok ⟨⟩, adopted t scope token epoch incarnation grant now) := by
  have room : ¬ Limits.maxIndexedExtents < t.extents.size + scope.size := Nat.not_lt.mpr ready.room
  rw [adopt, Prog.exec_refuseIf, if_neg (by simp [ready.filled]), Prog.exec_refuseIf,
    if_neg ready.set, Prog.exec_refuseIf, if_neg ready.owner, Prog.exec_get_bind,
    adoptCheck, ExtentMarks.check_ok.mpr ready.admits, Prog.exec_ofExcept_bind,
    Prog.exec_refuseIf, if_neg room]
  rfl

end Adopt

/-- What a fence leaves for one extent; the owner changes only when one is named. -/
def raisedMark (record : FenceRecord) (e : ExtentId) (old : Option ExtentFenceState) :
    ExtentFenceState where
  extent := e
  highWaterToken := record.token
  highWaterEpoch := record.fencedEpoch
  ownerIncarnation :=
    if record.fencedIncarnation ≠ 0 then record.fencedIncarnation
    else match old with
      | some state => state.ownerIncarnation
      | none => record.fencedIncarnation
  ownerGrant := record.supersededGrant
  updatedAt := record.issuedAt

def raise (record : FenceRecord) (e : ExtentId) : Prog Status FenceTable PUnit := do
  let t ← get
  match t.find e with
  | some state =>
    Prog.refuseIf (record.token < state.highWaterToken)
      (.make .fenced .fenceTokenRegressed state.highWaterToken)
    modify fun t => { t with extents := t.extents.put (raisedMark record e (some state)) }
  | none => modify fun t => { t with extents := t.extents.put (raisedMark record e none) }

def dropOldest (t : FenceTable) : FenceTable :=
  if Limits.maxFenceRecords ≤ t.records.length then { t with records := t.records.tail } else t

def noteIncarnation (record : FenceRecord) (t : FenceTable) : FenceTable :=
  if record.fencedIncarnation = 0 then t
  else if (t.fencedIncarnations.find record.fencedIncarnation).isSome then t
  else if t.fencedIncarnations.size < Limits.maxFenceRecords then
    { t with fencedIncarnations := t.fencedIncarnations.put record.fencedIncarnation }
  else t

def noteEpoch (record : FenceRecord) (t : FenceTable) : FenceTable :=
  if record.domain.isEmpty || record.fencedEpoch == 0 then t
  else if (t.fencedEpochs.find (toLex (record.domain, record.fencedEpoch))).isSome then t
  else if t.fencedEpochs.size < Limits.maxFenceRecords then
    { t with fencedEpochs := t.fencedEpochs.put (record.domain, record.fencedEpoch) }
  else t

def apply (record : FenceRecord) (scope : Scope) : Prog Status FenceTable PUnit := do
  Prog.refuseIf (scope.isEmpty = true) (.make .invalid .emptyExtentSet)
  Prog.refuseIf (record.token = 0) (.make .invalid .fenceTokenMissing)
  modify dropOldest
  let t ← get
  Prog.refuseIf (Limits.maxIndexedExtents < t.extents.size + scope.size)
    (.make .exhausted .boundedTableFull (UInt64.ofNat t.extents.size))
  scope.extents.forM (raise record)
  modify (noteIncarnation record)
  modify (noteEpoch record)
  modify fun t => bumpGeneration { t with records := t.records ++ [record] }

def raiseAll (record : FenceRecord) (l : List ExtentId) (marks : ExtentMarks) : ExtentMarks :=
  l.foldl (fun m e => m.put (raisedMark record e (m.find e))) marks

@[simp] theorem raisedMark_extent (record : FenceRecord) (e : ExtentId)
    (old : Option ExtentFenceState) : (raisedMark record e old).extent = e := rfl

@[simp] theorem raisedMark_token (record : FenceRecord) (e : ExtentId)
    (old : Option ExtentFenceState) : (raisedMark record e old).highWaterToken = record.token := rfl

theorem raisedMark_again (record : FenceRecord) (e : ExtentId) (old : Option ExtentFenceState) :
    raisedMark record e (some (raisedMark record e old)) = raisedMark record e old := by
  by_cases named : record.fencedIncarnation = 0
  · simp [raisedMark, named]
  · simp [raisedMark, named]

theorem find_raiseAll (record : FenceRecord) (l : List ExtentId) (marks : ExtentMarks)
    (x : ExtentId) :
    (raiseAll record l marks).find x =
      if x ∈ l then some (raisedMark record x (marks.find x)) else marks.find x := by
  induction l generalizing marks with
  | nil => rfl
  | cons e rest ih =>
    have step := ih (marks.put (raisedMark record e (marks.find e)))
    rw [SortedTable.find_put] at step
    refine step.trans ?_
    by_cases here : e = x
    · subst here
      by_cases later : e ∈ rest
      · simp [later, raisedMark_again]
      · simp [later]
    · by_cases later : x ∈ rest
      · simp [later, here]
      · simp [later, here, Ne.symm here]

theorem raise_exec (record : FenceRecord) (e : ExtentId) (t : FenceTable) :
    (raise record e).exec t =
      if record.token < t.highWater e then
        (.error (.make .fenced .fenceTokenRegressed (t.highWater e)), t)
      else (.ok ⟨⟩, { t with extents := t.extents.put (raisedMark record e (t.find e)) }) := by
  rw [raise, Prog.exec_get_bind]
  cases found : t.find e with
  | none =>
    have zero : ¬ record.token < t.highWater e := by
      simp only [highWater, found]
      exact not_lt.mpr UInt64.zero_le
    rw [if_neg zero]
    rfl
  | some state =>
    have high : t.highWater e = state.highWaterToken := by simp only [highWater, found]
    rw [high]
    simp only [Prog.exec_refuseIf, Prog.exec_modify]

theorem highWater_raiseAll {record : FenceRecord} {l : List ExtentId} {t : FenceTable}
    {x : ExtentId} :
    ({ t with extents := raiseAll record l t.extents } : FenceTable).highWater x =
      if x ∈ l then record.token else t.highWater x := by
  by_cases inside : x ∈ l
  · simp [highWater, find, find_raiseAll, inside]
  · simp [highWater, find, find_raiseAll, inside]

/-- The loop raises a leading part of the scope, all of it unless it is refused. -/
theorem raise_forM (record : FenceRecord) (l : List ExtentId) (t : FenceTable) :
    ∃ done rest, l = done ++ rest ∧ (∀ e ∈ done, t.highWater e ≤ record.token) ∧
      ((l.forM (raise record)).exec t).2 = { t with extents := raiseAll record done t.extents } ∧
      (((l.forM (raise record)).exec t).1 = .ok ⟨⟩ ∧ rest = [] ∨
        ∃ e ∈ rest, record.token < t.highWater e ∧
          ((l.forM (raise record)).exec t).1 =
            .error (.make .fenced .fenceTokenRegressed (t.highWater e))) := by
  induction l generalizing t with
  | nil => exact ⟨[], [], rfl, by simp, rfl, .inl ⟨rfl, rfl⟩⟩
  | cons e l ih =>
    rw [Prog.forM_cons, Prog.exec_bind, raise_exec]
    by_cases low : record.token < t.highWater e
    · simp only [if_pos low]
      exact ⟨[], e :: l, rfl, by simp, rfl, .inr ⟨e, List.mem_cons_self, low, rfl⟩⟩
    · simp only [if_neg low]
      obtain ⟨done, rest, parts, below, marks, result⟩ :=
        ih { t with extents := t.extents.put (raisedMark record e (t.find e)) }
      have shift : ∀ x, ({ t with extents := t.extents.put (raisedMark record e (t.find e)) } :
          FenceTable).highWater x = if x = e then record.token else t.highWater x := by
        intro x
        have one : ({ t with extents := raiseAll record [e] t.extents } : FenceTable).highWater x =
            if x ∈ [e] then record.token else t.highWater x := highWater_raiseAll
        simp only [List.mem_singleton] at one
        exact one
      refine ⟨e :: done, rest, by simp [parts], ?_, marks, ?_⟩
      · intro x member
        rcases List.mem_cons.mp member with rfl | later
        · exact not_lt.mp low
        · have h := below x later
          rw [shift] at h
          split at h
          · rename_i same; rw [same]; exact not_lt.mp low
          · exact h
      · refine result.imp_right ?_
        rintro ⟨x, member, above, refused⟩
        rw [shift] at above refused
        split at above
        · exact absurd above (lt_irrefl _)
        · rename_i differ
          rw [if_neg differ] at refused
          exact ⟨x, member, above, refused⟩

/-- What `apply` needs of the table it finds. -/
structure Fenceable (t : FenceTable) (record : FenceRecord) (scope : Scope) : Prop where
  filled : scope.isEmpty = false
  set : record.token ≠ 0
  room : t.extents.size + scope.size ≤ Limits.maxIndexedExtents
  admits : ∀ e ∈ scope.extents, t.highWater e ≤ record.token

def applied (t : FenceTable) (record : FenceRecord) (scope : Scope) : FenceTable :=
  let raised : FenceTable :=
    { t.dropOldest with extents := raiseAll record scope.extents t.extents }
  let noted := noteEpoch record (noteIncarnation record raised)
  bumpGeneration { noted with records := noted.records ++ [record] }

@[simp] theorem dropOldest_extents (t : FenceTable) : t.dropOldest.extents = t.extents := by
  unfold dropOldest
  split <;> rfl

@[simp] theorem dropOldest_fencedIncarnations (t : FenceTable) :
    t.dropOldest.fencedIncarnations = t.fencedIncarnations := by
  unfold dropOldest
  split <;> rfl

@[simp] theorem noteIncarnation_extents (record : FenceRecord) (t : FenceTable) :
    (noteIncarnation record t).extents = t.extents := by
  unfold noteIncarnation
  split_ifs <;> rfl

@[simp] theorem noteIncarnation_records (record : FenceRecord) (t : FenceTable) :
    (noteIncarnation record t).records = t.records := by
  unfold noteIncarnation
  split_ifs <;> rfl

@[simp] theorem noteEpoch_extents (record : FenceRecord) (t : FenceTable) :
    (noteEpoch record t).extents = t.extents := by
  unfold noteEpoch
  split_ifs <;> rfl

@[simp] theorem noteEpoch_records (record : FenceRecord) (t : FenceTable) :
    (noteEpoch record t).records = t.records := by
  unfold noteEpoch
  split_ifs <;> rfl

@[simp] theorem noteEpoch_fencedIncarnations (record : FenceRecord) (t : FenceTable) :
    (noteEpoch record t).fencedIncarnations = t.fencedIncarnations := by
  unfold noteEpoch
  split_ifs <;> rfl

theorem dropOldest_find (t : FenceTable) (e : ExtentId) : t.dropOldest.find e = t.find e := by
  simp only [find, dropOldest_extents]

theorem dropOldest_highWater (t : FenceTable) (e : ExtentId) :
    t.dropOldest.highWater e = t.highWater e := by
  simp only [highWater, dropOldest_find]

section Apply

variable {t t' : FenceTable} {record : FenceRecord} {scope : Scope}

theorem apply_ok (ran : (apply record scope).exec t = (.ok ⟨⟩, t')) :
    Fenceable t record scope ∧ t' = applied t record scope := by
  obtain ⟨filled, ran⟩ := Prog.refuseIf_ok ran
  obtain ⟨set, ran⟩ := Prog.refuseIf_ok ran
  rw [Prog.exec_modify_bind, Prog.exec_get_bind] at ran
  obtain ⟨room, ran⟩ := Prog.refuseIf_ok ran
  obtain ⟨_, s, looped, ran⟩ := Prog.bind_ok ran
  obtain ⟨done, rest, parts, below, marks, result⟩ := raise_forM record scope.extents t.dropOldest
  rw [looped] at marks result
  rcases result with ⟨_, rfl⟩ | ⟨_, _, _, refused⟩
  · rw [List.append_nil] at parts
    simp only at marks
    subst marks
    rw [← parts] at below
    simp only [dropOldest_highWater] at below
    rw [dropOldest_extents] at room
    refine ⟨⟨by simpa using filled, set, by omega, below⟩, ?_⟩
    cases ran
    rw [dropOldest_extents, ← parts]
    rfl
  · cases refused

theorem apply_exec (ready : Fenceable t record scope) :
    (apply record scope).exec t = (.ok ⟨⟩, applied t record scope) := by
  have room : ¬ Limits.maxIndexedExtents < t.dropOldest.extents.size + scope.size := by
    rw [dropOldest_extents]
    exact Nat.not_lt.mpr ready.room
  obtain ⟨done, rest, parts, below, marks, result⟩ := raise_forM record scope.extents t.dropOldest
  have looped : (scope.extents.forM (raise record)).exec t.dropOldest =
      (.ok ⟨⟩, { t.dropOldest with extents := raiseAll record scope.extents t.extents }) := by
    rcases result with ⟨fine, rfl⟩ | ⟨e, member, above, _⟩
    · rw [List.append_nil] at parts
      rw [dropOldest_extents, ← parts] at marks
      exact Prod.ext fine marks
    · have inside : e ∈ scope.extents := by rw [parts]; exact List.mem_append_right done member
      have small := ready.admits e inside
      rw [dropOldest_highWater] at above
      exact absurd above (not_lt.mpr small)
  rw [apply, Prog.exec_refuseIf, if_neg (by simp [ready.filled]), Prog.exec_refuseIf,
    if_neg ready.set, Prog.exec_modify_bind, Prog.exec_get_bind, Prog.exec_refuseIf,
    if_neg room, Prog.exec_bind_ok looped]
  rfl

/-- A refused fence may have dropped the oldest record and raised some extents. -/
theorem apply_error {st : Status} (ran : (apply record scope).exec t = (.error st, t')) :
    ∃ done rest, scope.extents = done ++ rest ∧ (∀ e ∈ done, t.highWater e ≤ record.token) ∧
      t'.extents = raiseAll record done t.extents ∧
      t'.fencedIncarnations = t.fencedIncarnations ∧
      (t'.records = t.records ∨ t'.records = t.dropOldest.records) ∧
      (rest = [] → t' = t ∨ t' = t.dropOldest) := by
  have same : ∀ s : FenceTable, s = t ∨ s = t.dropOldest →
      ∃ done rest, scope.extents = done ++ rest ∧ (∀ e ∈ done, t.highWater e ≤ record.token) ∧
        s.extents = raiseAll record done t.extents ∧
        s.fencedIncarnations = t.fencedIncarnations ∧
        (s.records = t.records ∨ s.records = t.dropOldest.records) ∧
        (rest = [] → s = t ∨ s = t.dropOldest) := by
    rintro s (rfl | rfl)
    · exact ⟨[], scope.extents, rfl, by simp, rfl, rfl, .inl rfl, fun _ => .inl rfl⟩
    · exact ⟨[], scope.extents, rfl, by simp, by simp [raiseAll], by simp, .inr rfl,
        fun _ => .inr rfl⟩
  simp only [apply, Prog.exec_refuseIf, Prog.exec_modify_bind, Prog.exec_get_bind] at ran
  split at ran
  · cases ran; exact same t (.inl rfl)
  split at ran
  · cases ran; exact same t (.inl rfl)
  split at ran
  · cases ran; exact same _ (.inr rfl)
  obtain ⟨done, rest, parts, below, marks, result⟩ := raise_forM record scope.extents t.dropOldest
  rw [Prog.exec_bind] at ran
  rcases looped : (scope.extents.forM (raise record)).exec t.dropOldest with ⟨r, s⟩
  rw [looped] at ran marks result
  simp only [dropOldest_highWater] at below
  cases r with
  | ok _ => cases ran
  | error e =>
    cases ran
    simp only at marks
    subst marks
    refine ⟨done, rest, parts, below, by simp, by simp, .inr rfl, ?_⟩
    rintro rfl
    rcases result with ⟨fine, _⟩ | ⟨_, member, _⟩
    · cases fine
    · cases member

/-- A refused fence above every mark has at most dropped the oldest record. -/
theorem apply_refused_table {st : Status} (above : ∀ e, t.highWater e ≤ record.token)
    (ran : (apply record scope).exec t = (.error st, t')) : t' = t ∨ t' = t.dropOldest := by
  simp only [apply, Prog.exec_refuseIf, Prog.exec_modify_bind, Prog.exec_get_bind] at ran
  split at ran
  · cases ran; exact .inl rfl
  split at ran
  · cases ran; exact .inl rfl
  split at ran
  · cases ran; exact .inr rfl
  obtain ⟨_, _, _, _, _, result⟩ := raise_forM record scope.extents t.dropOldest
  rw [Prog.exec_bind] at ran
  rcases looped : (scope.extents.forM (raise record)).exec t.dropOldest with ⟨r, s⟩
  rw [looped] at ran result
  rcases result with ⟨fine, -⟩ | ⟨e, -, low, -⟩
  · rw [show r = .ok ⟨⟩ from fine] at ran
    cases ran
  · rw [dropOldest_highWater] at low
    exact absurd low (not_lt.mpr (above e))

/-- It has raised nothing. -/
theorem apply_refused {st : Status} (above : ∀ e, t.highWater e ≤ record.token)
    (ran : (apply record scope).exec t = (.error st, t')) : t'.extents = t.extents := by
  rcases apply_refused_table above ran with rfl | rfl
  · rfl
  · exact dropOldest_extents t

theorem apply_outcome {st : Status} (ran : (apply record scope).exec t = (.error st, t')) :
    st.outcome ≠ .alreadyExists := by
  simp only [apply, Prog.exec_refuseIf, Prog.exec_modify_bind, Prog.exec_get_bind] at ran
  split at ran
  · cases ran; exact nofun
  split at ran
  · cases ran; exact nofun
  split at ran
  · cases ran; exact nofun
  obtain ⟨_, _, _, _, _, result⟩ := raise_forM record scope.extents t.dropOldest
  rw [Prog.exec_bind] at ran
  rcases looped : (scope.extents.forM (raise record)).exec t.dropOldest with ⟨r, s⟩
  rw [looped] at ran result
  rcases result with ⟨fine, _⟩ | ⟨e, _, _, refused⟩
  · rw [show r = .ok ⟨⟩ from fine] at ran
    cases ran
  · rw [show r = _ from refused] at ran
    cases ran
    exact nofun

/-- Within the two bounds of the table. -/
structure Bounded (t : FenceTable) : Prop where
  extents : t.extents.size ≤ Limits.maxIndexedExtents
  records : t.records.length ≤ Limits.maxFenceRecords

theorem size_raiseAll (record : FenceRecord) (l : List ExtentId) (marks : ExtentMarks) :
    (raiseAll record l marks).size ≤ marks.size + l.length := by
  induction l generalizing marks with
  | nil => exact le_rfl
  | cons e rest ih =>
    have step := ih (marks.put (raisedMark record e (marks.find e)))
    have one := SortedTable.size_put_le marks (raisedMark record e (marks.find e))
    rw [List.length_cons]
    exact step.trans (by omega)

theorem size_stamp (mark : ExtentId → ExtentFenceState) (l : List ExtentId) (marks : ExtentMarks) :
    (ExtentMarks.stamp mark l marks).size ≤ marks.size + l.length := by
  induction l generalizing marks with
  | nil => exact le_rfl
  | cons e rest ih =>
    have step := ih (marks.put (mark e))
    have one := SortedTable.size_put_le marks (mark e)
    rw [List.length_cons]
    exact step.trans (by omega)

theorem dropOldest_length (bounded : t.Bounded) :
    t.dropOldest.records.length < Limits.maxFenceRecords := by
  have records := bounded.records
  unfold dropOldest
  split
  · rename_i full
    rw [List.length_tail]
    simp only [Limits.maxFenceRecords] at full records ⊢
    omega
  · omega

theorem Bounded.dropOldest (bounded : t.Bounded) : t.dropOldest.Bounded :=
  ⟨by rw [dropOldest_extents]; exact bounded.extents, le_of_lt (dropOldest_length bounded)⟩

theorem Bounded.apply {r : Except Status PUnit} (bounded : t.Bounded)
    (ran : (apply record scope).exec t = (r, t')) : t'.Bounded := by
  simp only [FenceTable.apply, Prog.exec_refuseIf, Prog.exec_modify_bind, Prog.exec_get_bind] at ran
  split at ran
  · cases ran; exact bounded
  split at ran
  · cases ran; exact bounded
  split at ran
  · cases ran; exact bounded.dropOldest
  rename_i room
  rw [dropOldest_extents] at room
  obtain ⟨done, rest, parts, -, marks, -⟩ := raise_forM record scope.extents t.dropOldest
  have length : done.length ≤ scope.size := by
    rw [Scope.size, parts, List.length_append]
    omega
  have extents : (raiseAll record done t.extents).size ≤ Limits.maxIndexedExtents := by
    have size := size_raiseAll record done t.extents
    omega
  rw [Prog.exec_bind] at ran
  rcases looped : (scope.extents.forM (raise record)).exec t.dropOldest with ⟨r, s⟩
  rw [looped] at ran marks
  simp only [dropOldest_extents] at marks
  subst marks
  cases r with
  | error st => cases ran; exact ⟨extents, le_of_lt (dropOldest_length bounded)⟩
  | ok u =>
    have records := dropOldest_length bounded
    cases ran
    refine ⟨?_, ?_⟩
    · simpa [bumpGeneration] using extents
    · simp only [bumpGeneration, noteEpoch_records, noteIncarnation_records, List.length_append,
        List.length_singleton]
      omega

theorem Bounded.adopt {token : FenceToken} {epoch : Epoch} {incarnation : IncarnationId}
    {grant : GrantId} {now : Step} (bounded : t.Bounded)
    (ready : Adoptable t scope token incarnation) :
    (adopted t scope token epoch incarnation grant now).Bounded := by
  refine ⟨?_, bounded.records⟩
  have size := size_stamp (⟨·, token, epoch, incarnation, grant, now⟩) scope.extents t.extents
  exact size.trans ready.room

@[simp] theorem applied_extents :
    (applied t record scope).extents = raiseAll record scope.extents t.extents := by
  simp [applied, bumpGeneration]

@[simp] theorem applied_records :
    (applied t record scope).records = t.dropOldest.records ++ [record] := by
  simp [applied, bumpGeneration]

theorem applied_find (e : ExtentId) : (applied t record scope).find e =
    if e ∈ scope.extents then some (raisedMark record e (t.find e)) else t.find e := by
  simp only [find, applied_extents, find_raiseAll]

theorem applied_highWater (e : ExtentId) : (applied t record scope).highWater e =
    if e ∈ scope.extents then record.token else t.highWater e := by
  by_cases inside : e ∈ scope.extents
  · simp [highWater, applied_find, inside]
  · simp [highWater, applied_find, inside]

theorem adopted_find {token : FenceToken} {epoch : Epoch} {incarnation : IncarnationId}
    {grant : GrantId} {now : Step} (e : ExtentId) :
    (adopted t scope token epoch incarnation grant now).find e =
      if e ∈ scope.extents then some ⟨e, token, epoch, incarnation, grant, now⟩
      else t.find e :=
  ExtentMarks.find_stamp (fun _ => rfl) scope.extents t.extents e

theorem adopted_highWater {token : FenceToken} {epoch : Epoch} {incarnation : IncarnationId}
    {grant : GrantId} {now : Step} (e : ExtentId) :
    (adopted t scope token epoch incarnation grant now).highWater e =
      if e ∈ scope.extents then token else t.highWater e := by
  by_cases inside : e ∈ scope.extents
  · simp [highWater, adopted_find, inside]
  · simp [highWater, adopted_find, inside]

theorem adopted_incarnationFenced {token : FenceToken} {epoch : Epoch} {incarnation : IncarnationId}
    {grant : GrantId} {now : Step} (i : IncarnationId) :
    (adopted t scope token epoch incarnation grant now).incarnationFenced i = t.incarnationFenced i :=
  rfl

theorem applied_fencedIncarnations : (applied t record scope).fencedIncarnations =
    (noteIncarnation record t).fencedIncarnations := by
  simp only [applied, bumpGeneration, noteEpoch_fencedIncarnations]
  unfold noteIncarnation
  simp only [dropOldest_fencedIncarnations]
  split_ifs <;> simp

theorem noteIncarnation_size :
    t.fencedIncarnations.size ≤ (noteIncarnation record t).fencedIncarnations.size := by
  unfold noteIncarnation
  split_ifs with unset known room
  · exact le_rfl
  · exact le_rfl
  · rw [SortedTable.size_put, id, if_neg known]
    exact Nat.le_succ _
  · exact le_rfl

/-- A fence disowns its own incarnation, while there is room for one more. -/
theorem noteIncarnation_fenced {i : IncarnationId}
    (fenced : (noteIncarnation record t).incarnationFenced i = true) :
    t.incarnationFenced i = true ∨
      t.fencedIncarnations.size < Limits.maxFenceRecords ∧ record.fencedIncarnation = i := by
  unfold noteIncarnation at fenced
  split_ifs at fenced with unset known room
  · exact .inl fenced
  · exact .inl fenced
  · by_cases same : record.fencedIncarnation = i
    · exact .inr ⟨room, same⟩
    · left
      unfold incarnationFenced at fenced ⊢
      rwa [SortedTable.find_put, id, if_neg same] at fenced
  · exact .inl fenced

end Apply

def validateFrom (i : Nat) (previous : Option ExtentId) : List ExtentFenceState → Except Status Unit
  | [] => .ok ()
  | state :: rest =>
    if state.extent.isEmpty then .error (.make .corrupt .emptyValue (UInt64.ofNat i))
    else if state.highWaterToken = 0 then
      .error (.make .corrupt .fenceTokenMissing (UInt64.ofNat i))
    else if previous.any (fun p => decide (¬ p < state.extent)) then
      .error (.make .corrupt .duplicateEntry (UInt64.ofNat i))
    else validateFrom (i + 1) (some state.extent) rest

def validateMarks (rows : List ExtentFenceState) : Except Status Unit := validateFrom 0 none rows

def validate (t : FenceTable) : Except Status Unit := validateMarks t.extents.rows

theorem validateFrom_sorted {rows : List ExtentFenceState} {i : Nat} {previous : Option ExtentId}
    (valid : validateFrom i previous rows = .ok ()) :
    rows.Pairwise (·.extent < ·.extent) ∧ ∀ p ∈ previous, ∀ r ∈ rows, p < r.extent := by
  induction rows generalizing i previous with
  | nil => simp
  | cons state rest ih =>
    unfold validateFrom at valid
    split at valid
    · cases valid
    · split at valid
      · cases valid
      · split at valid
        · cases valid
        · rename_i ordered
          obtain ⟨tail, above⟩ := ih valid
          have head : ∀ r ∈ rest, state.extent < r.extent := above state.extent rfl
          refine ⟨List.pairwise_cons.mpr ⟨head, tail⟩, ?_⟩
          rintro p rfl r member
          have first : p < state.extent := by simpa using ordered
          rcases List.mem_cons.mp member with rfl | later
          · exact first
          · exact first.trans (head r later)

def sortMarks (extents : List ExtentFenceState) : List ExtentFenceState :=
  extents.insertionSort (fun a b => a.extent ≤ b.extent)

/-- The fenced sets are not stored: they are rebuilt from the retained records and
from the owner of every extent. -/
def importTable (extents : List ExtentFenceState) (records : List FenceRecord) :
    Except Status FenceTable :=
  if Limits.maxIndexedExtents < extents.length then
    .error (.make .exhausted .boundedTableFull (UInt64.ofNat extents.length))
  else
    match valid : validateMarks (sortMarks extents) with
    | .error st => .error st
    | .ok () =>
      let kept := records.drop (records.length - Limits.maxFenceRecords)
      let fromRecords := (kept.map (·.fencedIncarnation)).filter (· ≠ 0)
      let fromExtents := ((sortMarks extents).map (·.ownerIncarnation)).filter (· ≠ 0)
      let epochs := (kept.filter fun r => !r.domain.isEmpty && r.fencedEpoch != 0).map
        fun r => (r.domain, r.fencedEpoch)
      .ok {
        extents := ⟨sortMarks extents, (validateFrom_sorted valid).1⟩
        records := kept
        fencedIncarnations := SortedTable.ofList (fromRecords ++ fromExtents)
        fencedEpochs := SortedTable.ofList epochs
        generation := 1 }

theorem sortMarks_rows (marks : ExtentMarks) : sortMarks marks.rows = marks.rows :=
  (marks.sorted.imp fun h => le_of_lt h).insertionSort_eq

/-- A table's own rows come back as they are; only the fenced sets are recomputed. -/
theorem importTable_rows {t t' : FenceTable} (bounded : t.records.length ≤ Limits.maxFenceRecords)
    (read : importTable t.extents.rows t.records = .ok t') :
    t'.extents = t.extents ∧ t'.records = t.records ∧
      t'.fencedIncarnations = SortedTable.ofList ((t.records.map (·.fencedIncarnation) ++
        t.extents.rows.map (·.ownerIncarnation)).filter (· ≠ 0)) := by
  unfold importTable at read
  obtain ⟨_, read⟩ := else_of_ne read (by simp)
  split at read
  · cases read
  · cases read
    have all : t.records.drop (t.records.length - Limits.maxFenceRecords) = t.records := by
      have none : t.records.length - Limits.maxFenceRecords = 0 := Nat.sub_eq_zero_of_le bounded
      rw [none, List.drop_zero]
    simp only [all, sortMarks_rows, List.filter_append, true_and]

theorem importTable_own {t t' : FenceTable} (bounded : t.records.length ≤ Limits.maxFenceRecords)
    (read : importTable t.extents.rows t.records = .ok t') :
    t'.extents = t.extents ∧ t'.records = t.records ∧ ∀ i, i ∈ t'.fencedIncarnations.rows ↔
      i ≠ 0 ∧ ((∃ r ∈ t.records, r.fencedIncarnation = i) ∨
        ∃ e ∈ t.extents.rows, e.ownerIncarnation = i) := by
  obtain ⟨extents, records, fenced⟩ := importTable_rows bounded read
  refine ⟨extents, records, fun i => ?_⟩
  rw [fenced, SortedTable.mem_ofList, List.mem_filter, decide_eq_true_eq, List.mem_append,
    List.mem_map, List.mem_map]
  exact and_comm

end FenceTable
end SplitBrainFabric
