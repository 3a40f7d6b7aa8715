import SplitBrainFabric.Library.Program
import SplitBrainFabric.Scope

/-! The durable history of grants and boots. It is bounded: opening a grant evicts
the oldest grant that is no longer open, whichever domain it belongs to. -/

namespace SplitBrainFabric
open Words

inductive GrantState where
  | open | closed | fenced | interrupted
  deriving DecidableEq

namespace GrantState

def code : GrantState → UInt16
  | .open => 0
  | .closed => 1
  | .fenced => 2
  | .interrupted => 3

def fromCode (code : UInt16) : Option GrantState :=
  [GrantState.open, .closed, .fenced, .interrupted].find? (·.code = code)

@[simp] theorem fromCode_code (s : GrantState) : fromCode s.code = some s := by cases s <;> rfl

end GrantState

structure EpochGrant where
  id : GrantId := 0
  domain : DomainId := Id.empty
  scope : Digest256 := Digest256.zero
  extents : Scope := Scope.empty
  attempt : Sequence := 0
  epoch : Epoch := 0
  incarnation : IncarnationId := 0
  boot : BootId := 0
  fenceToken : FenceToken := 0
  openedAt : Step := 0
  closedAt : Step := 0
  state : GrantState := .open
  registrySequence : Sequence := 1
  lineageGeneration : Generation := 0
  policyGeneration : Generation := 0
  evidenceGeneration : Generation := 0
  closeReason : Reason := .none
  deriving DecidableEq

namespace EpochGrant

def isOpen (g : EpochGrant) : Bool := g.state == .open

theorem isOpen_iff {g : EpochGrant} : g.isOpen = true ↔ g.state = .open := beq_iff_eq

def close (g : EpochGrant) (state : GrantState) (reason : Reason) (now : Step) : EpochGrant :=
  { g with state := state, closeReason := reason, closedAt := now }

end EpochGrant

structure BootRecord where
  boot : BootId := 0
  incarnation : IncarnationId := 0
  node : NodeId := Id.empty
  startedAt : Step := 0
  endedAt : Step := 0
  cleanStop : Bool := false
  interrupted : Bool := false
  registrySequence : Sequence := 1
  deriving DecidableEq

/-- The element a loop stops at is updated in place, the others stay. -/
def updateFirst {α : Type} (p : α → Bool) (f : α → α) : List α → List α
  | [] => []
  | x :: rest => if p x then f x :: rest else x :: updateFirst p f rest

theorem mem_updateFirst {α : Type} {p : α → Bool} {f : α → α} {l : List α} {x : α}
    (member : x ∈ updateFirst p f l) : x ∈ l ∨ ∃ y ∈ l, p y = true ∧ x = f y := by
  induction l with
  | nil => cases member
  | cons y rest ih =>
    unfold updateFirst at member
    split at member
    · rename_i hit
      rcases List.mem_cons.mp member with rfl | later
      · exact .inr ⟨y, List.mem_cons_self, hit, rfl⟩
      · exact .inl (List.mem_cons_of_mem y later)
    · rcases List.mem_cons.mp member with rfl | later
      · exact .inl List.mem_cons_self
      · rcases ih later with h | ⟨z, inside, hit, same⟩
        · exact .inl (List.mem_cons_of_mem y h)
        · exact .inr ⟨z, List.mem_cons_of_mem y inside, hit, same⟩

theorem mem_updateFirst_of_not {α : Type} {p : α → Bool} {f : α → α} {l : List α} {x : α}
    (member : x ∈ l) (misses : p x = false) : x ∈ updateFirst p f l := by
  induction l with
  | nil => cases member
  | cons y rest ih =>
    unfold updateFirst
    split
    · rename_i hit
      rcases List.mem_cons.mp member with rfl | later
      · rw [misses] at hit; cases hit
      · exact List.mem_cons_of_mem _ later
    · rcases List.mem_cons.mp member with rfl | later
      · exact List.mem_cons_self
      · exact List.mem_cons_of_mem y (ih later)

theorem updateFirst_hit {α : Type} {p : α → Bool} {f : α → α} {l : List α} {x : α}
    (member : x ∈ l) (hit : p x = true) : ∃ y ∈ l, p y = true ∧ f y ∈ updateFirst p f l := by
  induction l with
  | nil => cases member
  | cons y rest ih =>
    unfold updateFirst
    split
    · rename_i first
      exact ⟨y, List.mem_cons_self, first, List.mem_cons_self⟩
    · rename_i misses
      rcases List.mem_cons.mp member with rfl | later
      · exact absurd hit misses
      · obtain ⟨z, inside, hitZ, placed⟩ := ih later
        exact ⟨z, List.mem_cons_of_mem y inside, hitZ, List.mem_cons_of_mem y placed⟩

theorem updateFirst_map {α β : Type} {p : α → Bool} {f : α → α} (g : α → β)
    (keeps : ∀ x, g (f x) = g x) (l : List α) : (updateFirst p f l).map g = l.map g := by
  induction l with
  | nil => rfl
  | cons y rest ih =>
    unfold updateFirst
    split
    · simp [keeps]
    · simp [ih]

theorem updateFirst_length {α : Type} (p : α → Bool) (f : α → α) (l : List α) :
    (updateFirst p f l).length = l.length := by
  simpa using congrArg List.length (updateFirst_map (p := p) (f := f) (fun _ => ()) (fun _ => rfl) l)

theorem pairwise_updateFirst {α : Type} {R : α → α → Prop} {p : α → Bool} {f : α → α} {l : List α}
    (left : ∀ x y, R x y → R (f x) y) (right : ∀ x y, R x y → R x (f y)) (pairwise : l.Pairwise R) :
    (updateFirst p f l).Pairwise R := by
  induction l with
  | nil => exact pairwise
  | cons x rest ih =>
    obtain ⟨head, tail⟩ := List.pairwise_cons.mp pairwise
    unfold updateFirst
    split
    · exact List.pairwise_cons.mpr ⟨fun y member => left x y (head y member), tail⟩
    · refine List.pairwise_cons.mpr ⟨fun y member => ?_, ih tail⟩
      rcases mem_updateFirst member with old | ⟨z, inside, -, rfl⟩
      · exact head y old
      · exact right x z (head z inside)

structure LineageTable where
  grants : List EpochGrant := []
  boots : List BootRecord := []
  generation : Generation := 1
  deriving DecidableEq

namespace LineageTable

def find (t : LineageTable) (id : GrantId) : Option EpochGrant := t.grants.find? (·.id = id)

def maxEpochOf (grants : List EpochGrant) (d : DomainId) : Epoch :=
  grants.foldl (fun highest g => if g.domain = d ∧ highest < g.epoch then g.epoch else highest) 0

def maxEpoch (t : LineageTable) (d : DomainId) : Epoch := maxEpochOf t.grants d

def openGrantFor (t : LineageTable) (d : DomainId) (scope : Digest256) : Option EpochGrant :=
  t.grants.find? fun g => g.isOpen && decide (g.domain = d) && decide (g.scope = scope)

/-- Open grants in the order of their ids. -/
def openGrants (t : LineageTable) : List EpochGrant :=
  (t.grants.filter (·.isOpen)).insertionSort (fun a b => a.id ≤ b.id)

def bumpGeneration (t : LineageTable) : LineageTable :=
  { t with generation := tryIncrement t.generation }

/-- The eviction loop of `open_grant`; every turn removes one grant. -/
def makeRoom : Nat → Prog Status LineageTable PUnit
  | 0 => pure ⟨⟩
  | turns + 1 => do
    let t ← get
    if t.grants.length < Limits.maxLineageEntries then pure ⟨⟩
    else if t.grants.any (!·.isOpen) then do
      modify fun t => { t with grants := t.grants.eraseP (!·.isOpen) }
      makeRoom turns
    else throw (.make .exhausted .boundedTableFull (UInt64.ofNat t.grants.length))

def openGrant (g : EpochGrant) : Prog Status LineageTable PUnit := do
  Prog.refuseIf (g.id = 0) (.make .invalid .valueOutOfRange)
  Prog.refuseIf (g.domain.isEmpty = true) (.make .invalid .emptyValue)
  Prog.refuseIf (g.epoch = 0) (.make .invalid .epochUnknown)
  Prog.refuseIf (g.incarnation = 0) (.make .invalid .valueOutOfRange)
  Prog.refuseIf (g.fenceToken = 0) (.make .invalid .fenceTokenMissing)
  Prog.refuseIf (g.state ≠ .open) (.make .invalid .valueOutOfRange)
  let t ← get
  Prog.refuseIf ((t.find g.id).isSome = true) (.make .alreadyExists .duplicateEntry g.id)
  Prog.refuseIf (g.epoch < t.maxEpoch g.domain)
    (.make .stale .epochRegression (t.maxEpoch g.domain))
  Prog.refuseIf ((t.openGrantFor g.domain g.scope).isSome = true)
    (.make .conflict .overlappingExclusiveClaim g.id)
  makeRoom t.grants.length
  modify fun t => bumpGeneration { t with grants := t.grants ++ [g] }

def closeGrant (id : GrantId) (state : GrantState) (reason : Reason) (now : Step) :
    Prog Status LineageTable PUnit := do
  Prog.refuseIf (state = .open) (.make .invalid .valueOutOfRange)
  let t ← get
  match t.find id with
  | none => throw (.make .notFound .grantNotRegistered id)
  | some g =>
    Prog.refuseIf (g.state ≠ .open) (.make .alreadyExists .duplicateEntry id)
    modify fun t => bumpGeneration { t with
      grants := updateFirst (·.id = id) (·.close state reason now) t.grants }

def findBoot (t : LineageTable) (boot : BootId) : Option BootRecord :=
  t.boots.find? (·.boot = boot)

def beginBoot (record : BootRecord) : Prog Status LineageTable PUnit := do
  Prog.refuseIf (record.boot = 0 ∨ record.incarnation = 0) (.make .invalid .valueOutOfRange)
  let t ← get
  Prog.refuseIf ((t.findBoot record.boot).isSome = true)
    (.make .alreadyExists .duplicateEntry record.boot)
  modify fun t => bumpGeneration { t with
    boots := (if Limits.maxLineageEntries ≤ t.boots.length then t.boots.tail else t.boots) ++
      [record] }

def endBoot (boot : BootId) (now : Step) (clean : Bool) : Prog Status LineageTable PUnit := do
  let t ← get
  match t.findBoot boot with
  | none => throw (.make .notFound .bootNotRegistered)
  | some record =>
    Prog.refuseIf (record.endedAt ≠ 0) (.make .alreadyExists .duplicateEntry boot)
    modify fun t => bumpGeneration { t with
      boots := updateFirst (·.boot = boot)
        (fun r => { r with endedAt := now, cleanStop := clean, interrupted := !clean }) t.boots }

/-- The grants that stay when one more is opened. -/
def roomFor (grants : List EpochGrant) : List EpochGrant :=
  if grants.length < Limits.maxLineageEntries then grants else grants.eraseP (!·.isOpen)

def Bounded (t : LineageTable) : Prop := t.grants.length ≤ Limits.maxLineageEntries

theorem roomFor_sublist (grants : List EpochGrant) : (roomFor grants).Sublist grants := by
  unfold roomFor
  split
  · exact List.Sublist.refl grants
  · exact List.eraseP_sublist

theorem mem_roomFor_open {grants : List EpochGrant} {g : EpochGrant} (member : g ∈ grants)
    (active : g.isOpen = true) : g ∈ roomFor grants := by
  unfold roomFor
  split
  · exact member
  · exact (List.mem_eraseP_of_neg (by simp [active])).mpr member

theorem makeRoom_exec {t : LineageTable} (bounded : t.Bounded) :
    (makeRoom t.grants.length).exec t =
      if t.grants.length < Limits.maxLineageEntries ∨ t.grants.any (!·.isOpen) = true then
        (.ok ⟨⟩, { t with grants := roomFor t.grants })
      else (.error (.make .exhausted .boundedTableFull (UInt64.ofNat t.grants.length)), t) := by
  by_cases short : t.grants.length < Limits.maxLineageEntries
  · rw [if_pos (.inl short)]
    have stays : roomFor t.grants = t.grants := if_pos short
    rw [stays]
    cases t.grants.length with
    | zero => rfl
    | succ n =>
      rw [makeRoom, Prog.exec_get_bind, if_pos short]
      rfl
  · have full : t.grants.length = Limits.maxLineageEntries := by
      unfold Bounded at bounded
      omega
    have turns : t.grants.length = 4094 + 1 + 1 := full
    rw [turns, makeRoom, Prog.exec_get_bind, if_neg short]
    by_cases idle : t.grants.any (!·.isOpen) = true
    · have shorter : (t.grants.eraseP (!·.isOpen)).length < Limits.maxLineageEntries := by
        rw [List.any_eq_true] at idle
        obtain ⟨g, member, closed⟩ := idle
        have removed : (t.grants.eraseP (!·.isOpen)).length = t.grants.length - 1 :=
          List.length_eraseP_of_mem member closed
        rw [removed, full]
        decide
      have evicted : roomFor t.grants = t.grants.eraseP (!·.isOpen) := if_neg short
      rw [if_pos idle, if_pos (.inr idle), Prog.exec_modify_bind, makeRoom, Prog.exec_get_bind,
        if_pos shorter, evicted]
      rfl
    · rw [if_neg idle, if_neg (by tauto), turns]
      rfl

/-- What `open_grant` needs of the table it finds. -/
structure Openable (t : LineageTable) (g : EpochGrant) : Prop where
  numbered : g.id ≠ 0
  named : g.domain.isEmpty = false
  epoch : g.epoch ≠ 0
  incarnation : g.incarnation ≠ 0
  token : g.fenceToken ≠ 0
  isOpen : g.state = .open
  fresh : t.find g.id = none
  monotone : t.maxEpoch g.domain ≤ g.epoch
  single : t.openGrantFor g.domain g.scope = none
  room : t.grants.length < Limits.maxLineageEntries ∨ t.grants.any (!·.isOpen) = true

def opened (t : LineageTable) (g : EpochGrant) : LineageTable :=
  bumpGeneration { t with grants := roomFor t.grants ++ [g] }

section Open

variable {t t' : LineageTable} {g : EpochGrant}

theorem openGrant_ok (bounded : t.Bounded) (ran : (openGrant g).exec t = (.ok ⟨⟩, t')) :
    Openable t g ∧ t' = opened t g := by
  obtain ⟨numbered, ran⟩ := Prog.refuseIf_ok ran
  obtain ⟨named, ran⟩ := Prog.refuseIf_ok ran
  obtain ⟨epoch, ran⟩ := Prog.refuseIf_ok ran
  obtain ⟨incarnation, ran⟩ := Prog.refuseIf_ok ran
  obtain ⟨token, ran⟩ := Prog.refuseIf_ok ran
  obtain ⟨isOpen, ran⟩ := Prog.refuseIf_ok ran
  rw [Prog.exec_get_bind] at ran
  obtain ⟨fresh, ran⟩ := Prog.refuseIf_ok ran
  obtain ⟨monotone, ran⟩ := Prog.refuseIf_ok ran
  obtain ⟨single, ran⟩ := Prog.refuseIf_ok ran
  obtain ⟨_, s, evicted, ran⟩ := Prog.bind_ok ran
  rw [makeRoom_exec bounded] at evicted
  split at evicted
  · rename_i room
    cases evicted
    refine ⟨⟨numbered, by simpa using named, epoch, incarnation, token, not_not.mp isOpen,
      by simpa using fresh, not_lt.mp monotone, by simpa using single, room⟩, ?_⟩
    cases ran
    rfl
  · cases evicted

theorem openGrant_exec (bounded : t.Bounded) (ready : Openable t g) :
    (openGrant g).exec t = (.ok ⟨⟩, opened t g) := by
  have evicted := makeRoom_exec bounded
  rw [if_pos ready.room] at evicted
  rw [openGrant, Prog.exec_refuseIf, if_neg ready.numbered, Prog.exec_refuseIf,
    if_neg (by simp [ready.named]), Prog.exec_refuseIf, if_neg ready.epoch, Prog.exec_refuseIf,
    if_neg ready.incarnation, Prog.exec_refuseIf, if_neg ready.token, Prog.exec_refuseIf,
    if_neg (not_not.mpr ready.isOpen), Prog.exec_get_bind, Prog.exec_refuseIf,
    if_neg (by simp [ready.fresh]), Prog.exec_refuseIf, if_neg (not_lt.mpr ready.monotone),
    Prog.exec_refuseIf, if_neg (by simp [ready.single]), Prog.exec_bind_ok evicted]
  rfl

theorem openGrant_failsClean (bounded : t.Bounded) : (openGrant g).FailsClean t := by
  refine .refuseIf fun _ => .refuseIf fun _ => .refuseIf fun _ => .refuseIf fun _ =>
    .refuseIf fun _ => .refuseIf fun _ => .get <| .refuseIf fun _ => .refuseIf fun _ =>
    .refuseIf fun _ => ?_
  intro st t' _ ran
  rw [Prog.exec_bind, makeRoom_exec bounded] at ran
  split at ran
  · rename_i evicted
    split at evicted
    · cases evicted; cases ran
    · cases evicted
  · rename_i evicted
    split at evicted
    · cases evicted
    · cases evicted; cases ran; rfl

def closed (t : LineageTable) (id : GrantId) (state : GrantState) (reason : Reason) (now : Step) :
    LineageTable :=
  bumpGeneration { t with
    grants := updateFirst (·.id = id) (·.close state reason now) t.grants }

variable {id : GrantId} {state : GrantState} {reason : Reason} {now : Step}

theorem closeGrant_ok (ran : (closeGrant id state reason now).exec t = (.ok ⟨⟩, t')) :
    state ≠ .open ∧ (∃ g, t.find id = some g ∧ g.state = .open) ∧
      t' = closed t id state reason now := by
  obtain ⟨ends, ran⟩ := Prog.refuseIf_ok ran
  rw [Prog.exec_get_bind] at ran
  cases found : t.find id with
  | none => rw [found] at ran; cases ran
  | some g =>
    rw [found] at ran
    obtain ⟨active, ran⟩ := Prog.refuseIf_ok ran
    refine ⟨ends, ⟨g, rfl, not_not.mp active⟩, ?_⟩
    cases ran
    rfl

theorem closeGrant_failsClean : (closeGrant id state reason now).FailsClean t := by
  refine .refuseIf fun _ => .get ?_
  split
  · exact .throw _ _
  · exact .refuseIf fun _ => .modify _ _

theorem closeGrant_exec {g : EpochGrant} (ends : state ≠ .open) (found : t.find id = some g)
    (active : g.state = .open) :
    (closeGrant id state reason now).exec t = (.ok ⟨⟩, closed t id state reason now) := by
  rw [closeGrant, Prog.exec_refuseIf, if_neg ends, Prog.exec_get_bind, found]
  simp only [Prog.exec_refuseIf, active, ne_eq, not_true_eq_false, if_false]
  rfl

end Open

section Boots

variable {t : LineageTable}

theorem makeRoom_boots (turns : Nat) (t : LineageTable) :
    ((makeRoom turns).exec t).2.boots = t.boots := by
  induction turns generalizing t with
  | zero => rfl
  | succ turns ih =>
    rw [makeRoom, Prog.exec_get_bind]
    split
    · rfl
    split
    · rw [Prog.exec_modify_bind, ih]
    · rfl

theorem openGrant_boots (g : EpochGrant) (t : LineageTable) :
    ((openGrant g).exec t).2.boots = t.boots := by
  simp only [openGrant, Prog.exec_refuseIf, Prog.exec_get_bind]
  repeat' split
  all_goals first | rfl | skip
  have room := makeRoom_boots t.grants.length t
  rw [Prog.exec_bind]
  rcases ran : (makeRoom t.grants.length).exec t with ⟨r, t'⟩
  rw [ran] at room
  cases r with
  | ok u => exact room
  | error st => exact room

theorem beginBoot_failsClean (record : BootRecord) : (beginBoot record).FailsClean t :=
  .refuseIf fun _ => .get <| .refuseIf fun _ => .modify _ _

theorem endBoot_failsClean (boot : BootId) (now : Step) (clean : Bool) :
    (endBoot boot now clean).FailsClean t := by
  refine .get ?_
  split
  · exact .throw _ _
  · exact .refuseIf fun _ => .modify _ _

theorem beginBoot_grants (record : BootRecord) (t : LineageTable) :
    ((beginBoot record).exec t).2.grants = t.grants := by
  simp only [beginBoot, Prog.exec_refuseIf, Prog.exec_get_bind]
  split
  · rfl
  · split
    · rfl
    · rfl

theorem endBoot_grants (boot : BootId) (now : Step) (clean : Bool) (t : LineageTable) :
    ((endBoot boot now clean).exec t).2.grants = t.grants := by
  rw [endBoot, Prog.exec_get_bind]
  split
  · rfl
  · simp only [Prog.exec_refuseIf]
    split
    · rfl
    · rfl

theorem beginBoot_boots {record : BootRecord} {t u : LineageTable} (same : t.boots = u.boots) :
    ((beginBoot record).exec t).2.boots = ((beginBoot record).exec u).2.boots := by
  have found : t.findBoot record.boot = u.findBoot record.boot := by rw [findBoot, findBoot, same]
  simp only [beginBoot, Prog.exec_refuseIf, Prog.exec_get_bind, found]
  split
  · exact same
  split
  · exact same
  · simp only [Prog.exec_modify, bumpGeneration, same]

theorem endBoot_boots {boot : BootId} {now : Step} {clean : Bool} {t u : LineageTable}
    (same : t.boots = u.boots) :
    ((endBoot boot now clean).exec t).2.boots = ((endBoot boot now clean).exec u).2.boots := by
  have found : t.findBoot boot = u.findBoot boot := by rw [findBoot, findBoot, same]
  simp only [endBoot, Prog.exec_get_bind, found]
  cases u.findBoot boot with
  | none => exact same
  | some record =>
    simp only [Prog.exec_refuseIf]
    split
    · exact same
    · simp only [Prog.exec_modify, bumpGeneration, same]

theorem findBoot_isSome {t : LineageTable} {boot : BootId} :
    (t.findBoot boot).isSome = true ↔ boot ∈ t.boots.map (·.boot) := by
  simp only [findBoot, List.find?_isSome, List.mem_map, decide_eq_true_eq]

theorem endBoot_ids (boot : BootId) (now : Step) (clean : Bool) (t : LineageTable) :
    ((endBoot boot now clean).exec t).2.boots.map (·.boot) = t.boots.map (·.boot) := by
  rw [endBoot, Prog.exec_get_bind]
  split
  · rfl
  · simp only [Prog.exec_refuseIf]
    split
    · rfl
    · simp only [Prog.exec_modify, bumpGeneration]
      refine updateFirst_map (·.boot) (fun _ => ?_) t.boots
      rfl

/-- Ending a boot that is there fails only because it has ended. -/
theorem endBoot_outcome {boot : BootId} {now : Step} {clean : Bool} {t t' : LineageTable}
    {st : Status} (found : (t.findBoot boot).isSome = true)
    (ran : (endBoot boot now clean).exec t = (.error st, t')) : st.outcome = .alreadyExists := by
  rw [endBoot, Prog.exec_get_bind] at ran
  cases known : t.findBoot boot with
  | none => rw [known] at found; cases found
  | some record =>
    simp only [known, Prog.exec_refuseIf] at ran
    split at ran
    · cases ran; rfl
    · cases ran

/-- A numbered boot is refused only because it is already there. -/
theorem beginBoot_outcome {record : BootRecord} {t t' : LineageTable} {st : Status}
    (boot : record.boot ≠ 0) (incarnation : record.incarnation ≠ 0)
    (ran : (beginBoot record).exec t = (.error st, t')) : st.outcome = .alreadyExists := by
  have numbered : ¬ (record.boot = 0 ∨ record.incarnation = 0) := by tauto
  rw [beginBoot, Prog.exec_refuseIf, if_neg numbered, Prog.exec_get_bind, Prog.exec_refuseIf] at ran
  split at ran
  · cases ran; rfl
  · cases ran

theorem beginBoot_length (record : BootRecord) {t : LineageTable}
    (bounded : t.boots.length ≤ Limits.maxLineageEntries) :
    ((beginBoot record).exec t).2.boots.length ≤ Limits.maxLineageEntries := by
  simp only [beginBoot, Prog.exec_refuseIf, Prog.exec_get_bind]
  split
  · exact bounded
  split
  · exact bounded
  simp only [Prog.exec_modify, bumpGeneration, List.length_append, List.length_singleton]
  split
  · rename_i full
    rw [List.length_tail]
    simp only [Limits.maxLineageEntries] at full bounded ⊢
    omega
  · omega

theorem endBoot_length (boot : BootId) (now : Step) (clean : Bool) {t : LineageTable}
    (bounded : t.boots.length ≤ Limits.maxLineageEntries) :
    ((endBoot boot now clean).exec t).2.boots.length ≤ Limits.maxLineageEntries := by
  rw [endBoot, Prog.exec_get_bind]
  split
  · exact bounded
  · simp only [Prog.exec_refuseIf]
    split
    · exact bounded
    · simp only [Prog.exec_modify, bumpGeneration, updateFirst_length]
      exact bounded

end Boots

theorem find_some {t : LineageTable} {id : GrantId} {g : EpochGrant} (found : t.find id = some g) :
    g ∈ t.grants ∧ g.id = id :=
  ⟨List.mem_of_find?_eq_some found, by simpa using List.find?_some found⟩

theorem find_none {t : LineageTable} {id : GrantId} :
    t.find id = none ↔ ∀ g ∈ t.grants, g.id ≠ id := by
  simp [find]

theorem mem_openGrants {t : LineageTable} {g : EpochGrant} :
    g ∈ t.openGrants ↔ g ∈ t.grants ∧ g.isOpen = true := by
  rw [openGrants, List.mem_insertionSort, List.mem_filter]

theorem maxEpochOf_le_foldl (grants : List EpochGrant) (d : DomainId) (start : Epoch) :
    start ≤ grants.foldl
        (fun highest g => if g.domain = d ∧ highest < g.epoch then g.epoch else highest) start ∧
      ∀ g ∈ grants, g.domain = d → g.epoch ≤ grants.foldl
        (fun highest g => if g.domain = d ∧ highest < g.epoch then g.epoch else highest) start := by
  induction grants generalizing start with
  | nil => simp
  | cons g rest ih =>
    rw [List.foldl_cons]
    obtain ⟨above, each⟩ := ih (if g.domain = d ∧ start < g.epoch then g.epoch else start)
    have step : start ≤ (if g.domain = d ∧ start < g.epoch then g.epoch else start) := by
      split
      · rename_i h; exact le_of_lt h.2
      · exact le_refl start
    refine ⟨step.trans above, ?_⟩
    intro x member same
    rcases List.mem_cons.mp member with rfl | later
    · refine le_trans ?_ above
      by_cases less : start < x.epoch
      · simp [same, less]
      · simp only [less, and_false, if_false]
        exact not_lt.mp less
    · exact each x later same

theorem maxEpochOf_congr {grants grants' : List EpochGrant} (d : DomainId)
    (same : grants.map (fun g => (g.domain, g.epoch)) = grants'.map fun g => (g.domain, g.epoch)) :
    maxEpochOf grants d = maxEpochOf grants' d := by
  have mapped : ∀ l : List EpochGrant, maxEpochOf l d =
      (l.map fun g => (g.domain, g.epoch)).foldl
        (fun highest p => if p.1 = d ∧ highest < p.2 then p.2 else highest) 0 := fun l => by
    rw [List.foldl_map]
    rfl
  rw [mapped, mapped, same]

theorem maxEpoch_closed {t : LineageTable} {id : GrantId} {state : GrantState} {reason : Reason}
    {now : Step} (d : DomainId) : (t.closed id state reason now).maxEpoch d = t.maxEpoch d := by
  refine maxEpochOf_congr d ?_
  exact updateFirst_map (f := (·.close state reason now)) (fun g => (g.domain, g.epoch))
    (fun _ => rfl) t.grants

theorem epoch_le_maxEpoch {t : LineageTable} {g : EpochGrant} (member : g ∈ t.grants) :
    g.epoch ≤ t.maxEpoch g.domain :=
  (maxEpochOf_le_foldl t.grants g.domain 0).2 g member rfl

/-- Never too long, and no id twice. -/
structure Sound (t : LineageTable) : Prop where
  bounded : t.Bounded
  distinct : (t.grants.map (·.id)).Nodup

section Sound

variable {t : LineageTable} {g g' : EpochGrant} {id : GrantId} {state : GrantState}
  {reason : Reason} {now : Step}

@[simp] theorem opened_grants : (t.opened g).grants = roomFor t.grants ++ [g] := rfl

@[simp] theorem closed_grants : (t.closed id state reason now).grants =
    updateFirst (·.id = id) (·.close state reason now) t.grants := rfl

theorem Sound.same_grant (sound : t.Sound) (member : g ∈ t.grants) (member' : g' ∈ t.grants)
    (same : g.id = g'.id) : g = g' :=
  List.inj_on_of_nodup_map sound.distinct member member' same

theorem Sound.find_eq (sound : t.Sound) (member : g ∈ t.grants) : t.find g.id = some g := by
  cases found : t.find g.id with
  | none => exact absurd rfl (find_none.mp found g member)
  | some old =>
    obtain ⟨inside, same⟩ := find_some found
    rw [sound.same_grant inside member same]

theorem roomFor_length {grants : List EpochGrant}
    (room : grants.length < Limits.maxLineageEntries ∨ grants.any (!·.isOpen) = true)
    (bounded : grants.length ≤ Limits.maxLineageEntries) :
    (roomFor grants).length < Limits.maxLineageEntries := by
  unfold roomFor
  split
  · assumption
  · rename_i full
    rcases room with short | idle
    · exact absurd short full
    · obtain ⟨g, member, closed⟩ := List.any_eq_true.mp idle
      have positive := List.length_pos_of_mem member
      rw [List.length_eraseP_of_mem member closed]
      omega

theorem Sound.opened (sound : t.Sound) (ready : t.Openable g) : (t.opened g).Sound := by
  refine ⟨?_, ?_⟩
  · have short := roomFor_length ready.room sound.bounded
    unfold Bounded
    rw [opened_grants, List.length_append, List.length_singleton]
    omega
  · have kept : ((roomFor t.grants).map (·.id)).Nodup :=
      sound.distinct.sublist ((roomFor_sublist t.grants).map _)
    have fresh := find_none.mp ready.fresh
    rw [opened_grants, List.map_append, List.map_singleton, List.nodup_append]
    refine ⟨kept, List.nodup_singleton _, ?_⟩
    intro a inside b single
    obtain ⟨o, member, rfl⟩ := List.mem_map.mp inside
    rw [List.mem_singleton.mp single]
    exact fresh o ((roomFor_sublist t.grants).subset member)

theorem Sound.closed (sound : t.Sound) : (t.closed id state reason now).Sound := by
  refine ⟨?_, ?_⟩
  · unfold Bounded
    rw [closed_grants, updateFirst_length]
    exact sound.bounded
  · have ids : ((t.closed id state reason now).grants.map (·.id)) = t.grants.map (·.id) :=
      updateFirst_map (f := (·.close state reason now)) (·.id) (fun _ => rfl) t.grants
    rw [ids]
    exact sound.distinct

theorem Sound.withGrants {t' : LineageTable} (sound : t.Sound) (same : t'.grants = t.grants) :
    t'.Sound := by
  refine ⟨?_, ?_⟩
  · unfold Bounded
    rw [same]
    exact sound.bounded
  · rw [same]
    exact sound.distinct

theorem mem_closed_other (member : g ∈ t.grants) (other : g.id ≠ id) :
    g ∈ (t.closed id state reason now).grants := by
  rw [closed_grants]
  exact mem_updateFirst_of_not member (by simpa using other)

/-- What is open after a close was open before, and is not the closed grant. -/
theorem Sound.open_of_closed (sound : t.Sound) (ends : state ≠ .open)
    (found : ∃ old, t.find id = some old)
    (member : g ∈ (t.closed id state reason now).grants) (active : g.isOpen = true) :
    g ∈ t.grants ∧ g.id ≠ id := by
  have notClosed : ∀ y : EpochGrant, g ≠ y.close state reason now := by
    rintro y rfl
    exact ends (EpochGrant.isOpen_iff.mp active)
  have inside : g ∈ t.grants := by
    rcases mem_updateFirst member with old | ⟨y, _, _, same⟩
    · exact old
    · exact absurd same (notClosed y)
  refine ⟨inside, fun same => ?_⟩
  obtain ⟨old, found⟩ := found
  obtain ⟨oldMember, oldId⟩ := find_some found
  obtain ⟨y, _, hit, placed⟩ := updateFirst_hit (p := (·.id = id))
    (f := (·.close state reason now)) oldMember (decide_eq_true oldId)
  have closedSound : (t.closed id state reason now).Sound := sound.closed
  refine notClosed y (closedSound.same_grant member placed ?_)
  rw [same]
  exact (of_decide_eq_true hit).symm

end Sound

/-- The pass shared by `import` and `validate`; `earlier` holds the grants already
seen, latest first, in place of the three indexes of the source. -/
def checkGrants (wellFormed : EpochGrant → Bool) (earlier : List EpochGrant) :
    List EpochGrant → Except Status Unit
  | [] => .ok ()
  | g :: rest =>
    if wellFormed g = false then .error (.make .corrupt .valueOutOfRange g.id)
    else if earlier.any (·.id = g.id) then .error (.make .corrupt .duplicateEntry g.id)
    else if g.epoch < ((earlier.find? (·.domain = g.domain)).map (·.epoch)).getD 0 then
      .error (.make .corrupt .epochRegression g.epoch)
    else if g.isOpen && earlier.any
        (fun e => e.isOpen && decide (e.domain = g.domain) && decide (e.scope.hex = g.scope.hex))
      then .error (.make .corrupt .overlappingExclusiveClaim g.id)
    else checkGrants wellFormed (g :: earlier) rest

def checkBoots (earlier : List BootRecord) : List BootRecord → Except Status Unit
  | [] => .ok ()
  | b :: rest =>
    if b.boot = 0 ∨ b.incarnation = 0 then .error (.make .corrupt .valueOutOfRange b.boot)
    else if earlier.any (·.boot = b.boot) then .error (.make .corrupt .duplicateEntry b.boot)
    else checkBoots (b :: earlier) rest

def importTable (grants : List EpochGrant) (boots : List BootRecord) :
    Except Status LineageTable := do
  if Limits.maxLineageEntries < grants.length ∨ Limits.maxLineageEntries < boots.length then
    .error (.make .exhausted .boundedTableFull (UInt64.ofNat (max grants.length boots.length)))
  else
    checkGrants (fun g => g.id != 0 && !g.domain.isEmpty && g.epoch != 0) [] grants
    checkBoots [] boots
    pure ⟨grants, boots, 1⟩

theorem importTable_ok {grants : List EpochGrant} {boots : List BootRecord} {t : LineageTable}
    (read : importTable grants boots = .ok t) : t = ⟨grants, boots, 1⟩ := by
  unfold importTable at read
  obtain ⟨_, read⟩ := else_of_ne read (by simp)
  cases checked : checkGrants (fun g => g.id != 0 && !g.domain.isEmpty && g.epoch != 0) [] grants with
  | error st => rw [checked] at read; cases read
  | ok u =>
    rw [checked] at read
    cases begun : checkBoots [] boots with
    | error st => rw [begun] at read; cases read
    | ok u =>
      rw [begun] at read
      cases read
      rfl

def validate (t : LineageTable) : Except Status Unit := checkGrants (fun g => g.id != 0) [] t.grants

end LineageTable
end SplitBrainFabric
