import SplitBrainFabric.Grounds

/-! When a step goes through. Each record an operation emits is accepted unless a
number runs out or the fence table is full, and the state after it is known exactly. -/

namespace SplitBrainFabric
open Words Decoder

namespace Work

open RegistryState (Footing enact)

section Emit

variable {w w' : Work} {kind : RecordKind} {payload : Bytes} {status : Status} {now : Step}

/-- Without a next sequence number the record is refused, and nothing changes. -/
theorem emit_full (full : w.state.registrySequence = maxWord) :
    (emit kind payload status now).exec w = (.error (.make .corrupt .valueOutOfRange),
      w.lost (w.nextRecord kind payload status now) w.state) := by
  have unset : (w.nextRecord kind payload status now).sequence = 0 := by
    rw [nextRecord, full]
    exact succ_maxWord
  have refused : (RegistryState.apply (w.nextRecord kind payload status now)).exec w.state =
      (.error (.make .corrupt .valueOutOfRange), w.state) := by
    rw [RegistryState.apply, Prog.exec_refuseIf, if_pos unset]
  rw [emit, Prog.exec_get_bind]
  simp only [refused]
  rfl

theorem emit_runs {entry : Entry} {s : RegistryState} (room : w.state.registrySequence ≠ maxWord)
    (read : (w.nextRecord kind payload status now).entry = .ok entry)
    (ran : (enact entry).exec (w.state.observe (w.nextRecord kind payload status now)) =
      (.ok ⟨⟩, s)) :
    (emit kind payload status now).exec w =
      (.ok ⟨⟩, w.kept (w.nextRecord kind payload status now) s) := by
  have set : (w.nextRecord kind payload status now).sequence ≠ 0 := succ_ne_zero room
  have next : ¬ w.state.registrySequence + 1 < (w.nextRecord kind payload status now).sequence :=
    lt_irrefl _
  have applied : (RegistryState.apply (w.nextRecord kind payload status now)).exec w.state =
      (.ok ⟨⟩, s) := by
    rw [RegistryState.apply, Prog.exec_refuseIf, if_neg set, Prog.exec_get_bind,
      Prog.exec_refuseIf, if_neg next, Prog.exec_modify_bind, Prog.exec_ofExcept_bind, read]
    exact ran
  rw [emit, Prog.exec_get_bind]
  simp only [applied]
  rfl

/-- Whatever was refused had no sequence number, so the registry did not move. -/
def Clean (w w' : Work) : Prop := ∀ r ∈ w'.refused, r ∈ w.refused ∨ r.sequence = 0

theorem Clean.refl (w : Work) : Clean w w := fun _ member => .inl member

theorem Clean.trans {v : Work} (first : Clean w v) (second : Clean v w') : Clean w w' := by
  intro r member
  rcases second r member with old | unset
  · exact first r old
  · exact .inr unset

theorem clean_of_same (same : w'.refused = w.refused) : Clean w w' :=
  fun _ member => .inl (same ▸ member)

theorem clean_of_full {r : Except Status PUnit} (full : w.state.registrySequence = maxWord)
    (ran : (emit kind payload status now).exec w = (r, w')) : Clean w w' := by
  rw [emit_full full] at ran
  cases ran
  intro record member
  rcases List.mem_append.mp member with old | last
  · exact .inl old
  · right
    rw [List.mem_singleton.mp last, nextRecord, full]
    exact succ_maxWord

/-- An emit that fails for want of a number alone. -/
theorem emit_clean {r : Except Status PUnit}
    (runs : w.state.registrySequence ≠ maxWord → ∃ s, (emit kind payload status now).exec w =
      (.ok ⟨⟩, w.kept (w.nextRecord kind payload status now) s))
    (ran : (emit kind payload status now).exec w = (r, w')) : Clean w w' := by
  by_cases full : w.state.registrySequence = maxWord
  · exact clean_of_full full ran
  · obtain ⟨s, done⟩ := runs full
    rw [done] at ran
    cases ran
    exact clean_of_same rfl

end Emit

section Fence

variable {w w' : Work} {domain : DomainId} {scope : Scope} {epoch : Epoch}
  {incarnation : IncarnationId} {superseded : GrantId} {cause : Reason} {fenceIncarnation : Bool}
  {now : Step}

/-- One more fence of this scope fits the table. -/
def Fits (s : RegistryState) (scope : Scope) : Prop :=
  s.fences.extents.size + scope.size ≤ Limits.maxIndexedExtents

/-- The registry after a fence. -/
def fenced (w : Work) (domain : DomainId) (scope : Scope) (epoch : Epoch)
    (incarnation : IncarnationId) (superseded : GrantId) (cause : Reason) (fenceIncarnation : Bool)
    (now : Step) : Work :=
  let record := w.fenceRecord domain scope epoch incarnation superseded cause fenceIncarnation now
  let notice := w.nextRecord .fence (encodeFencePayload record scope)
    (.make .fenced cause record.token) now
  w.kept notice
    { (RegistryState.raiseTokenCounter record.token (w.state.observe notice)).remember scope with
      fences := w.state.fences.applied record scope }

theorem fenceScope_runs (named : domain.isEmpty = false) (filled : scope.isEmpty = false)
    (marked : ∀ e, w.state.fences.highWater e ≤ w.state.tokenCounter)
    (tokens : w.state.tokenCounter ≠ maxWord) (sequences : w.state.registrySequence ≠ maxWord)
    (fits : Fits w.state scope) :
    (fenceScope domain scope epoch incarnation superseded cause fenceIncarnation now).exec w =
      (.ok (w.state.tokenCounter + 1),
        w.fenced domain scope epoch incarnation superseded cause fenceIncarnation now) := by
  have ready : w.state.fences.Fenceable (w.fenceRecord domain scope epoch incarnation superseded
      cause fenceIncarnation now) scope :=
    ⟨filled, succ_ne_zero tokens, fits, fun e _ => (marked e).trans (le_of_lt (lt_succ tokens))⟩
  have reads : Reads decodeFencePayload (encodeFencePayload (w.fenceRecord domain scope epoch
      incarnation superseded cause fenceIncarnation now) scope) (w.fenceRecord domain scope epoch
      incarnation superseded cause fenceIncarnation now, scope) := reads_fencePayload named rfl
  have image : (w.nextRecord .fence (encodeFencePayload (w.fenceRecord domain scope epoch
      incarnation superseded cause fenceIncarnation now) scope) (.make .fenced cause
      (w.state.tokenCounter + 1)) now).entry = .ok (.fence (w.fenceRecord domain scope epoch
      incarnation superseded cause fenceIncarnation now) scope) :=
    read_image (f := fun p : FenceRecord × Scope => .fence p.1 p.2) reads
  have runs := emit_runs sequences image (RegistryState.enact_fence_exec ready)
  rw [fenceScope, Prog.exec_get_bind, Prog.exec_refuseIf, if_neg tokens]
  exact (Prog.exec_bind_ok runs).trans rfl

theorem size_raiseAll_tabled {record : FenceRecord} {l : List ExtentId} {marks : ExtentMarks}
    (tabled : ∀ e ∈ l, (marks.find e).isSome = true) :
    (FenceTable.raiseAll record l marks).size = marks.size := by
  induction l generalizing marks with
  | nil => rfl
  | cons e l ih =>
    have one : (marks.put (FenceTable.raisedMark record e (marks.find e))).size = marks.size := by
      rw [SortedTable.size_put, FenceTable.raisedMark_extent, if_pos (tabled e List.mem_cons_self)]
    have rest := @ih (marks.put (FenceTable.raisedMark record e (marks.find e)))
      fun x member => by
        rw [SortedTable.find_put]
        split
        · rfl
        · exact tabled x (List.mem_cons_of_mem e member)
    exact rest.trans one

end Fence

section Ends

/-- There are numbers for that many more records and tokens. -/
structure Affords (s : RegistryState) (records tokens : Nat) : Prop where
  records : s.registrySequence.toNat + records ≤ maxWord.toNat
  tokens : s.tokenCounter.toNat + tokens ≤ maxWord.toNat

/-- That many records and tokens later; no extent is new, and nothing else is counted. -/
structure Advanced (s s' : RegistryState) (records tokens : Nat) : Prop where
  records : s'.registrySequence.toNat = s.registrySequence.toNat + records
  tokens : s'.tokenCounter.toNat = s.tokenCounter.toNat + tokens
  size : s'.fences.extents.size = s.fences.extents.size
  grants : s'.grantCounter = s.grantCounter
  incarnations : s'.incarnationCounter = s.incarnationCounter

/-- How a run of emits ends: done, short of numbers, or in front of a full table. -/
inductive Ends {ε α : Type} (w : Work) (records tokens : Nat) (fits blocked : Prop) :
    Except ε α → Work → Prop
  | done {a : α} {w' : Work} (affords : Affords w.state records tokens) (fit : fits)
      (advanced : Advanced w.state w'.state records tokens) (same : w'.refused = w.refused) :
    Ends w records tokens fits blocked (.ok a) w'
  | short {e : ε} {w' : Work} (poor : ¬ Affords w.state records tokens) (clean : Clean w w') :
    Ends w records tokens fits blocked (.error e) w'
  | full {e : ε} {w' : Work} (stuck : blocked) : Ends w records tokens fits blocked (.error e) w'

variable {ε ε' α β : Type} {w w₁ w' : Work} {records tokens records' tokens' : Nat}
  {fits fits' fits'' blocked blocked' blocked'' : Prop}

theorem Affords.le {s : RegistryState} (affords : Affords s records tokens)
    (fewer : records' ≤ records) (cheaper : tokens' ≤ tokens) : Affords s records' tokens' := by
  obtain ⟨r, t⟩ := affords
  constructor
  · omega
  · omega

theorem Advanced.affords {s s' : RegistryState} (advanced : Advanced s s' records tokens) :
    Affords s' records' tokens' ↔ Affords s (records + records') (tokens + tokens') := by
  obtain ⟨r, t, -, -, -⟩ := advanced
  constructor
  · rintro ⟨r', t'⟩
    constructor
    · omega
    · omega
  · rintro ⟨r', t'⟩
    constructor
    · omega
    · omega

theorem Advanced.fits_iff {s s' : RegistryState} (advanced : Advanced s s' records tokens)
    (scope : Scope) : Fits s' scope ↔ Fits s scope := by
  rw [Fits, Fits, advanced.size]

theorem Advanced.refl (s : RegistryState) : Advanced s s 0 0 := ⟨rfl, rfl, rfl, rfl, rfl⟩

theorem Advanced.trans {s s₁ s' : RegistryState} (first : Advanced s s₁ records tokens)
    (second : Advanced s₁ s' records' tokens') :
    Advanced s s' (records + records') (tokens + tokens') where
  records := by rw [second.records, first.records, Nat.add_assoc]
  tokens := by rw [second.tokens, first.tokens, Nat.add_assoc]
  size := second.size.trans first.size
  grants := second.grants.trans first.grants
  incarnations := second.incarnations.trans first.incarnations

/-- One part after another. -/
theorem Ends.andThen {a : α} {r : Except ε β}
    (first : Ends w records tokens fits blocked (.ok a : Except ε' α) w₁)
    (second : Ends w₁ records' tokens' fits' blocked' r w')
    (fitting : Advanced w.state w₁.state records tokens → fits → fits' → fits'')
    (blocking : Advanced w.state w₁.state records tokens → fits → blocked' → blocked'') :
    Ends w (records + records') (tokens + tokens') fits'' blocked'' r w' := by
  cases first with
  | done affords fit advanced same =>
    cases second with
    | done affords' fit' advanced' same' =>
      exact .done (advanced.affords.mp affords') (fitting advanced fit fit')
        (advanced.trans advanced') (same'.trans same)
    | short poor clean =>
      exact .short (fun rich => poor (advanced.affords.mpr rich)) ((clean_of_same same).trans clean)
    | full stuck => exact .full (blocking advanced fit stuck)

/-- The first part did not get to the end. -/
theorem Ends.stopped {e : ε} {e' : ε'}
    (first : Ends w records tokens fits blocked (.error e : Except ε α) w')
    (more : records ≤ records') (dearer : tokens ≤ tokens') (blocking : blocked → blocked') :
    Ends w records' tokens' fits' blocked' (.error e' : Except ε' β) w' := by
  cases first with
  | short poor clean => exact .short (fun rich => poor (rich.le more dearer)) clean
  | full stuck => exact .full (blocking stuck)

theorem Ends.clean {r : Except ε α} (ends : Ends w records tokens fits blocked r w')
    (free : ¬ blocked) : Clean w w' := by
  cases ends with
  | done _ _ _ same => exact clean_of_same same
  | short _ clean => exact clean
  | full stuck => exact absurd stuck free

/-- It goes through exactly when there are numbers for it and room. -/
theorem Ends.ok_iff {r : Except ε α} (ends : Ends w records tokens fits blocked r w')
    (apart : blocked → ¬ fits) :
    (∃ a, r = .ok a) ↔ Affords w.state records tokens ∧ fits := by
  cases ends with
  | done affords fit _ _ => exact ⟨fun _ => ⟨affords, fit⟩, fun _ => ⟨_, rfl⟩⟩
  | short poor _ =>
    constructor
    · rintro ⟨_, ⟨⟩⟩
    · rintro ⟨affords, -⟩
      exact absurd affords poor
  | full stuck =>
    constructor
    · rintro ⟨_, ⟨⟩⟩
    · rintro ⟨-, fit⟩
      exact absurd fit (apart stuck)

end Ends

section Steps

variable {w w' : Work} {g : EpochGrant} {now : Step}

theorem affords_none (s : RegistryState) : Affords s 0 0 := by
  have top : maxWord.toNat = 18446744073709551615 := rfl
  have records := s.registrySequence.toNat_lt
  have tokens := s.tokenCounter.toNat_lt
  constructor
  · omega
  · omega

theorem affords_one : Affords w.state 1 0 ↔ w.state.registrySequence ≠ maxWord := by
  have top : maxWord.toNat = 18446744073709551615 := rfl
  constructor
  · rintro ⟨room, -⟩ full
    rw [full] at room
    omega
  · intro room
    have below := toNat_succ room
    have size := (w.state.registrySequence + 1).toNat_lt
    constructor
    · omega
    · have tokens := w.state.tokenCounter.toNat_lt
      omega

theorem affords_fence : Affords w.state 1 1 ↔
    w.state.tokenCounter ≠ maxWord ∧ w.state.registrySequence ≠ maxWord := by
  have top : maxWord.toNat = 18446744073709551615 := rfl
  rw [← affords_one]
  constructor
  · rintro ⟨records, tokens⟩
    refine ⟨fun full => ?_, records, by omega⟩
    rw [full] at tokens
    omega
  · rintro ⟨room, records, -⟩
    have below := toNat_succ room
    have size := (w.state.tokenCounter + 1).toNat_lt
    exact ⟨records, by omega⟩

/-- A record that is read and enacted without raising a counter. -/
theorem emit_ends {kind : RecordKind} {payload : Bytes} {status : Status} {entry : Entry}
    {r : Except Status PUnit} (ran : (emit kind payload status now).exec w = (r, w'))
    (read : (w.nextRecord kind payload status now).entry = .ok entry)
    (enacts : ∀ record, ∃ s, (enact entry).exec (w.state.observe record) = (.ok ⟨⟩, s) ∧
      Advanced (w.state.observe record) s 0 0) : Ends w 1 0 True False r w' := by
  by_cases full : w.state.registrySequence = maxWord
  · have failed := @emit_full w kind payload status now full
    have clean := clean_of_full full ran
    rw [failed] at ran
    cases ran
    exact .short (fun affords => affords_one.mp affords full) clean
  · obtain ⟨s, enacted, advanced⟩ := enacts (w.nextRecord kind payload status now)
    rw [emit_runs full read enacted] at ran
    cases ran
    refine .done (affords_one.mpr full) trivial ?_ rfl
    obtain ⟨records, tokens, size, grants, incarnations⟩ := advanced
    exact ⟨records.trans (toNat_succ full), tokens, size, grants, incarnations⟩

/-- A fence goes through, lacks a number, or comes to a full table. -/
theorem fenceScope_cases {domain : DomainId} {scope : Scope} {epoch : Epoch}
    {incarnation : IncarnationId} {superseded : GrantId} {cause : Reason} {fenceIncarnation : Bool}
    {r : Except Status FenceToken} (named : domain.isEmpty = false)
    (filled : scope.isEmpty = false)
    (marked : ∀ e, w.state.fences.highWater e ≤ w.state.tokenCounter)
    (ran : (fenceScope domain scope epoch incarnation superseded cause fenceIncarnation now).exec w =
      (r, w')) :
    Affords w.state 1 1 ∧ Fits w.state scope ∧ r = .ok (w.state.tokenCounter + 1) ∧
        w' = w.fenced domain scope epoch incarnation superseded cause fenceIncarnation now ∨
      (∃ st, r = .error st) ∧ (¬ Affords w.state 1 1 ∧ Clean w w' ∨
        Affords w.state 1 1 ∧ ¬ Fits w.state scope) := by
  by_cases tokens : w.state.tokenCounter = maxWord
  · rw [fenceScope, Prog.exec_get_bind, Prog.exec_refuseIf, if_pos tokens] at ran
    cases ran
    exact .inr ⟨⟨_, rfl⟩, .inl ⟨fun affords => (affords_fence.mp affords).1 tokens, Clean.refl w⟩⟩
  by_cases sequences : w.state.registrySequence = maxWord
  · rw [fenceScope, Prog.exec_get_bind, Prog.exec_refuseIf, if_neg tokens, Prog.exec_bind,
      emit_full sequences] at ran
    cases ran
    refine .inr ⟨⟨_, rfl⟩, .inl ⟨fun affords => (affords_fence.mp affords).2 sequences, ?_⟩⟩
    intro record member
    rcases List.mem_append.mp member with old | last
    · exact .inl old
    · right
      rw [List.mem_singleton.mp last, nextRecord, sequences]
      exact succ_maxWord
  have affords := affords_fence.mpr ⟨tokens, sequences⟩
  by_cases fits : Fits w.state scope
  · rw [fenceScope_runs named filled marked tokens sequences fits] at ran
    cases ran
    exact .inl ⟨affords, fits, rfl, rfl⟩
  · cases r with
    | error st => exact .inr ⟨⟨st, rfl⟩, .inr ⟨affords, fits⟩⟩
    | ok token =>
      rw [fenceScope, Prog.exec_get_bind, Prog.exec_refuseIf, if_neg tokens] at ran
      obtain ⟨_, w₁, emitted, -⟩ := Prog.bind_ok ran
      obtain ⟨entry, s, read, enacted, -⟩ := emit_ok emitted
      rw [fence_entry read] at enacted
      rcases RegistryState.enact_fence enacted with ⟨-, ready, -⟩ | ⟨st, _, failed, -⟩
      · exact absurd ready.room fits
      · cases failed

theorem fenceScope_ends {domain : DomainId} {scope : Scope} {epoch : Epoch}
    {incarnation : IncarnationId} {superseded : GrantId} {cause : Reason} {fenceIncarnation : Bool}
    {r : Except Status FenceToken} (named : domain.isEmpty = false)
    (filled : scope.isEmpty = false)
    (marked : ∀ e, w.state.fences.highWater e ≤ w.state.tokenCounter)
    (tabled : ∀ e ∈ scope.extents, (w.state.fences.find e).isSome = true)
    (ran : (fenceScope domain scope epoch incarnation superseded cause fenceIncarnation now).exec w =
      (r, w')) :
    Ends w 1 1 (Fits w.state scope) (Affords w.state 1 1 ∧ ¬ Fits w.state scope) r w' := by
  rcases fenceScope_cases named filled marked ran with
    ⟨affords, fits, rfl, rfl⟩ | ⟨⟨st, rfl⟩, ⟨poor, clean⟩ | stuck⟩
  · obtain ⟨tokens, sequences⟩ := affords_fence.mp affords
    refine .done affords fits ⟨toNat_succ sequences, ?_, ?_, rfl, rfl⟩ rfl
    · have raised : max w.state.tokenCounter (w.state.tokenCounter + 1) =
          w.state.tokenCounter + 1 := max_eq_right (le_of_lt (lt_succ tokens))
      have count := toNat_succ tokens
      rw [← raised] at count
      exact count
    · have size : (w.state.fences.applied (w.fenceRecord domain scope epoch incarnation superseded
          cause fenceIncarnation now) scope).extents.size = w.state.fences.extents.size := by
        rw [FenceTable.applied_extents]
        exact size_raiseAll_tabled tabled
      exact size
  · exact .short poor clean
  · exact .full stuck

theorem closeGrant_ends {state : GrantState} {reason : Reason} {r : Except Status PUnit}
    (ends : state ≠ .open) (footing : Footing w.state) (member : g ∈ w.state.lineage.grants)
    (active : g.isOpen = true) (ran : (closeGrant g state reason now).exec w = (r, w')) :
    Ends w 1 0 True False r w' := by
  rw [closeGrant, Prog.exec_get_bind] at ran
  have closed : (LineageTable.closeGrant g.id state reason now).exec w.state.lineage =
      (.ok ⟨⟩, w.state.lineage.closed g.id state reason now) :=
    LineageTable.closeGrant_exec ends (footing.sound.find_eq member)
      (EpochGrant.isOpen_iff.mp active)
  refine emit_ends ran (read_image (f := Entry.grantClose)
    (reads_grant (footing.named g member) (footing.digest g member))) fun record => ?_
  refine ⟨{ w.state.observe record with
    lineage := w.state.lineage.closed g.id state reason now }, ?_, ⟨rfl, rfl, rfl, rfl, rfl⟩⟩
  rw [enact, RegistryState.tolerate_exec, RegistryState.onLineage_exec]
  simp only [EpochGrant.close, RegistryState.observe, closed]

end Steps

section Loops

variable {w w' : Work} {now : Step} {ε β : Type}

/-- Some scope of the list comes to a full table while there are still numbers. -/
def Blocked (s : RegistryState) (per : Nat) (scopes : List Scope) : Prop :=
  ∃ k scope, scopes[k]? = some scope ∧ Affords s (per * k + 1) (k + 1) ∧ ¬ Fits s scope

theorem Blocked.one {s : RegistryState} {per : Nat} {scope : Scope} :
    Blocked s per [scope] ↔ Affords s 1 1 ∧ ¬ Fits s scope := by
  constructor
  · rintro ⟨k, scope', here, affords, full⟩
    cases k with
    | zero =>
      cases here
      exact ⟨affords, full⟩
    | succ k => cases here
  · rintro ⟨affords, full⟩
    exact ⟨0, scope, rfl, affords, full⟩

theorem Blocked.misfit {s : RegistryState} {per : Nat} {scopes : List Scope}
    (blocked : Blocked s per scopes) : ¬ ∀ scope ∈ scopes, Fits s scope := by
  obtain ⟨k, scope, here, -, full⟩ := blocked
  exact fun fits => full (fits scope (List.mem_of_getElem? here))

theorem Blocked.later {s s' : RegistryState} {per : Nat} {first : Scope} {rest : List Scope}
    (advanced : Advanced s s' per 1) (blocked : Blocked s' per rest) :
    Blocked s per (first :: rest) := by
  obtain ⟨k, scope, here, affords, full⟩ := blocked
  refine ⟨k + 1, scope, here, ?_, fun fits => full ((advanced.fits_iff scope).mpr fits)⟩
  have sum := advanced.affords.mp affords
  refine sum.le ?_ ?_
  · rw [Nat.mul_succ]
    omega
  · omega

/-- One turn of a loop that gives up open grants. -/
def Retires (per : Nat) (turn : β → EpochGrant → Prog ε Work β) : Prop :=
  ∀ (b : β) (w w' : Work) (g : EpochGrant) (rest : List EpochGrant) (r : Except ε β),
    Footing w.state → Pending (g :: rest) w.state.lineage → (turn b g).exec w = (r, w') →
    Ends w per 1 (Fits w.state g.extents) (Affords w.state 1 1 ∧ ¬ Fits w.state g.extents) r w' ∧
      ∀ b', r = .ok b' → Footing w'.state ∧ Pending rest w'.state.lineage

theorem foldlM_ends {per : Nat} {turn : β → EpochGrant → Prog ε Work β}
    (retires : Retires per turn) {l : List EpochGrant} {b : β} {r : Except ε β}
    (footing : Footing w.state) (pending : Pending l w.state.lineage)
    (ran : (l.foldlM turn b).exec w = (r, w')) :
    Ends w (per * l.length) l.length (∀ scope ∈ l.map (·.extents), Fits w.state scope)
        (Blocked w.state per (l.map (·.extents))) r w' ∧
      ∀ b', r = .ok b' → Footing w'.state := by
  induction l generalizing w b with
  | nil =>
    cases ran
    exact ⟨.done (affords_none _) (by simp) (Advanced.refl _) rfl, fun _ _ => footing⟩
  | cons g rest ih =>
    rw [Prog.foldlM_cons, Prog.exec_bind] at ran
    rcases turned : (turn b g).exec w with ⟨result, w₁⟩
    rw [turned] at ran
    obtain ⟨first, after⟩ := retires b w w₁ g rest result footing pending turned
    have count : per * (g :: rest).length = per + per * rest.length := by
      rw [List.length_cons, Nat.mul_succ, Nat.add_comm]
    have length : (g :: rest).length = 1 + rest.length := by rw [List.length_cons, Nat.add_comm]
    rw [count, length]
    cases result with
    | error e =>
      cases ran
      refine ⟨first.stopped (by omega) (by omega) ?_, fun _ h => by cases h⟩
      rintro ⟨affords, full⟩
      exact ⟨0, g.extents, rfl, affords, full⟩
    | ok b' =>
      obtain ⟨footing₁, pending₁⟩ := after b' rfl
      obtain ⟨second, last⟩ := ih footing₁ pending₁ ran
      refine ⟨first.andThen second ?_ fun advanced _ blocked => blocked.later advanced, last⟩
      intro advanced fits all scope member
      rcases List.mem_cons.mp member with rfl | later
      · exact fits
      · exact (advanced.fits_iff scope).mp (all scope later)

theorem forM_ends {per : Nat} {turn : EpochGrant → Prog ε Work PUnit}
    (retires : Retires per fun _ => turn) {l : List EpochGrant} {r : Except ε PUnit}
    (footing : Footing w.state) (pending : Pending l w.state.lineage)
    (ran : (l.forM turn).exec w = (r, w')) :
    Ends w (per * l.length) l.length (∀ scope ∈ l.map (·.extents), Fits w.state scope)
        (Blocked w.state per (l.map (·.extents))) r w' ∧ (r = .ok ⟨⟩ → Footing w'.state) := by
  rw [Prog.forM_eq_foldlM] at ran
  obtain ⟨ends, after⟩ := foldlM_ends retires footing pending ran
  exact ⟨ends, after ⟨⟩⟩

theorem retire_ends {g : EpochGrant} {rest : List EpochGrant} {cause reason : Reason}
    {fenceIncarnation : Bool} {state : GrantState} {r : Except Status PUnit}
    (ends : state ≠ .open) (footing : Footing w.state)
    (pending : Pending (g :: rest) w.state.lineage)
    (ran : (do
      let _ ← fenceScope g.domain g.extents g.epoch g.incarnation g.id cause fenceIncarnation now
      closeGrant g state reason now : Prog Status Work PUnit).exec w = (r, w')) :
    Ends w 2 1 (Fits w.state g.extents) (Affords w.state 1 1 ∧ ¬ Fits w.state g.extents) r w' ∧
      (r = .ok ⟨⟩ → Footing w'.state ∧ Pending rest w'.state.lineage) := by
  obtain ⟨member, active⟩ := pending.open' g List.mem_cons_self
  obtain ⟨reached, closed⟩ := retire_spec ends pending ran
  refine ⟨?_, fun ok => ⟨preserved_footing.reach footing reached, ?_⟩⟩
  · rw [Prog.exec_bind] at ran
    rcases fenced : (fenceScope g.domain g.extents g.epoch g.incarnation g.id cause
      fenceIncarnation now).exec w with ⟨result, w₁⟩
    rw [fenced] at ran
    have first := fenceScope_ends (footing.named g member) (footing.filled g member)
      footing.marked (footing.tabled g member) fenced
    obtain ⟨moved, lineage, -⟩ := fenceScope_spec fenced
    cases result with
    | error st =>
      cases ran
      exact first.stopped (by omega) le_rfl fun stuck => stuck
    | ok token =>
      have footing₁ := preserved_footing.reach footing moved
      rw [← lineage] at member
      have second := closeGrant_ends ends footing₁ member active ran
      exact first.andThen second (fun _ fits _ => fits) fun _ _ stuck => stuck.elim
  · rw [closed ok]
    exact pending.closed

theorem markInterrupted_written {g : EpochGrant} {r : Except Status PUnit}
    (named : g.domain.isEmpty = false) (ran : (markInterrupted now g).exec w = (r, w')) :
    Ends w 1 0 True False r w' :=
  emit_ends ran (read_image (f := Entry.interruptMark) (reads_interrupt named))
    fun _ => ⟨_, rfl, ⟨rfl, rfl, rfl, rfl, rfl⟩⟩

/-- The first two steps of an interruption. -/
theorem markInterrupted_ends {g : EpochGrant} {token : FenceToken} {w₁ w₂ : Work}
    {r : Except Status PUnit} (footing : Footing w.state) (member : g ∈ w.state.lineage.grants)
    (fenced : (fenceScope g.domain g.extents g.epoch g.incarnation g.id .interruptedByRestart true
      now).exec w = (.ok token, w₁)) (ran : (markInterrupted now g).exec w₁ = (r, w₂)) :
    Ends w 2 1 (Fits w.state g.extents) (Affords w.state 1 1 ∧ ¬ Fits w.state g.extents) r w₂ ∧
      Reach w w₂ ∧ w₂.state.lineage = w.state.lineage := by
  have first := fenceScope_ends (footing.named g member) (footing.filled g member)
    footing.marked (footing.tabled g member) fenced
  obtain ⟨moved, lineage, -⟩ := fenceScope_spec fenced
  obtain ⟨move, same, -⟩ := markInterrupted_spec ran
  have second := markInterrupted_written (footing.named g member) ran
  exact ⟨first.andThen second (fun _ fits _ => fits) fun _ _ stuck => stuck.elim,
    moved.trans move.reach, same.trans lineage⟩

theorem interruptGrant_retires (now : Step) : Retires 3 fun _ => interruptGrant now := by
  intro _ w w' g rest r footing pending ran
  have ran : (interruptGrant now g).exec w = (r, w') := ran
  obtain ⟨member, active⟩ := pending.open' g List.mem_cons_self
  have spec := interruptGrant_spec now w g rest w ⟨.refl, pending⟩
  rw [ran] at spec
  have closing : ∀ {token : FenceToken} {w₁ w₂ w₃ : Work} {r : Except Status PUnit},
      (fenceScope g.domain g.extents g.epoch g.incarnation g.id .interruptedByRestart true
        now).exec w = (.ok token, w₁) → (markInterrupted now g).exec w₁ = (.ok ⟨⟩, w₂) →
      (closeGrant g .interrupted .interruptedByRestart now).exec w₂ = (r, w₃) →
      Ends w 3 1 (Fits w.state g.extents) (Affords w.state 1 1 ∧ ¬ Fits w.state g.extents) r w₃ := by
    intro token w₁ w₂ w₃ r fenced marked ended
    obtain ⟨both, reached, same⟩ := markInterrupted_ends footing member fenced marked
    have footing₂ := preserved_footing.reach footing reached
    rw [← same] at member
    have third := closeGrant_ends (by decide) footing₂ member active ended
    exact both.andThen third (fun _ fits _ => fits) fun _ _ stuck => stuck.elim
  refine ⟨?_, fun _ ok => ?_⟩
  · cases interruptGrant_interrupts ran with
    | unfenced refusal fenced =>
      have first := fenceScope_ends (footing.named g member) (footing.filled g member)
        footing.marked (footing.tabled g member) fenced
      exact first.stopped (by omega) le_rfl fun stuck => stuck
    | unmarked refusal fenced marked =>
      have both := (markInterrupted_ends footing member fenced marked).1
      exact both.stopped (by omega) le_rfl fun stuck => stuck
    | unclosed refusal fenced marked ended => exact closing fenced marked ended
    | closed fenced marked ended =>
      cases closing fenced marked ended with
      | done affords fit advanced kept => exact .done affords fit { advanced with } kept
  · rw [ok] at spec
    exact ⟨preserved_footing.reach footing spec.1, spec.2⟩

end Loops

end Work
end SplitBrainFabric
