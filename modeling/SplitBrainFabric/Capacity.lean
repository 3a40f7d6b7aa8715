import SplitBrainFabric.OperationEnds

/-! Giving authority up. The fence table counts the extents of a scope as new even when
they are all there already, so a full table stands in the way of a release. -/

namespace SplitBrainFabric
open Words

namespace RegistryState

theorem deserialize_config {s s' : RegistryState} {bytes : Bytes} {r : Except Status PUnit}
    (ran : (deserialize bytes).exec s = (r, s')) : s'.config = s.config := by
  rcases deserialize_runs ran with
    ⟨rfl, -⟩ | ⟨image, fences, lineage, -, -, -, ⟨rfl, -⟩ | rfl⟩
  · rfl
  · rfl
  · rfl

theorem replay_config {covers : Sequence} {log : List JournalRecord} {s s' : RegistryState}
    {r : Except Status PUnit} (ran : (replay covers log).exec s = (r, s')) :
    s'.config = s.config := by
  induction log generalizing s with
  | nil => cases ran; rfl
  | cons record rest ih =>
    rw [replay, Prog.forM_cons, Prog.exec_bind] at ran
    by_cases covered : record.sequence ≤ covers
    · rw [if_pos covered] at ran
      exact ih ran
    · rw [if_neg covered] at ran
      rcases applied : (apply record).exec s with ⟨result, s₁⟩
      have same := (apply_setup applied).config
      rw [applied] at ran
      cases result with
      | error st => cases ran; exact same
      | ok u => exact (ih ran).trans same

theorem initialise_config {config : RegistryConfig} {clock : Step} {boot : BootRecord}
    {s s' : RegistryState} (ran : (initialise config clock boot).exec s = (.ok ⟨⟩, s')) :
    s'.config = config ∧ config.node.isEmpty = false := by
  obtain ⟨named, ran⟩ := Prog.refuseIf_ok ran
  obtain ⟨_, -, ran⟩ := Prog.ofExcept_ok ran
  obtain ⟨-, ran⟩ := Prog.refuseIf_ok ran
  cases ran
  simp only [not_or, Bool.not_eq_true] at named
  exact ⟨rfl, named.2⟩

theorem reload_config {config : RegistryConfig} {clock : Step} {boot : BootRecord}
    {base : Option Checkpoint} {log : List JournalRecord} {s s' : RegistryState}
    (ran : (reload config clock boot base log).exec s = (.ok ⟨⟩, s')) :
    s'.config = config ∧ config.node.isEmpty = false := by
  obtain ⟨_, s₀, begun, ran⟩ := Prog.bind_ok ran
  obtain ⟨same, named⟩ := initialise_config begun
  cases base with
  | none => exact ⟨(replay_config ran).trans same, named⟩
  | some c =>
    obtain ⟨_, s₁, restored, ran⟩ := Prog.bind_ok ran
    rw [Prog.exec_get_bind] at ran
    obtain ⟨-, ran⟩ := Prog.refuseIf_ok ran
    exact ⟨(replay_config ran).trans ((deserialize_config restored).trans same), named⟩

end RegistryState

namespace History

open RegistryState (Footing)
open Work (Fits Affords)

/-- The registry always knows the node it runs on. -/
theorem Reachable.placed {allowed : History → Event → Prop} {h : History}
    (reached : Reachable allowed h) : h.live.config.node.isEmpty = false := by
  have both : Kept (fun _ => True) h ∧ h.live.config.node.isEmpty = false := by
    refine reached.invariant
      (P := fun h => Kept (fun _ => True) h ∧ h.live.config.node.isEmpty = false) ?_ ?_
    · intro config clock boot fabric h begun
      refine ⟨kept_start trivial begun, ?_⟩
      obtain ⟨s, ran, rfl⟩ := start_ok begun
      obtain ⟨same, named⟩ := RegistryState.initialise_config ran
      rw [same]
      exact named
    · intro h event h' ⟨kept, placed⟩ _ stepped
      refine ⟨kept.step (fun _ _ _ _ _ _ => trivial) stepped, ?_⟩
      cases step_cases stepped with
      | called op now =>
        have reach := Op.reach (w := h.work) kept.tracks.sound now op
        have same := (Work.preserved_config h.live.config).reach rfl reach
        exact same ▸ placed
      | saved => exact placed
      | rebuilt s fills =>
        rcases fills with rfl | rfl
        · exact placed
        · exact placed
      | ticked room => exact placed
      | reloaded files s ran =>
        obtain ⟨same, named⟩ := RegistryState.reload_config ran
        rw [same]
        exact named
  exact both.2

/-- Whatever authority is out can be given up, and a restart goes through. -/
structure Surrenders (h : History) : Prop where
  release : ∀ g ∈ h.live.lineage.grants, g.isOpen = true → ∀ request now, request.grant = g.id →
    ∃ response w', (Work.release request now).exec h.work = (.ok response, w')
  fence : ∀ request now, (∃ known, h.live.domains.find request.domain = some known ∧
      known.scope = request.scope) →
    (∃ g ∈ h.live.lineage.grants, g.isOpen = true ∧ g.domain = request.domain ∧
      g.extents = request.scope) →
    ∃ response w', (Work.fence request now).exec h.work = (.ok response, w')
  restart : ∀ now, ∃ w', (Work.recoverAfterRestart now).exec h.work = (.ok ⟨⟩, w')

/-- Room for one more fence of every open scope, a token for each of them, and sequence
numbers for the records of a recovery. -/
def Spacious (s : RegistryState) : Prop :=
  (∀ g ∈ s.lineage.openGrants, Fits s g.extents) ∧
    Affords s ((Work.unended s).length + 3 * s.lineage.openGrants.length + 1)
      s.lineage.openGrants.length

theorem Surrenders.of_spacious {h : History} (footing : Footing h.live)
    (placed : h.live.config.node.isEmpty = false)
    (incarnations : h.live.incarnationCounter < maxWord) (spacious : Spacious h.live) :
    Surrenders h := by
  obtain ⟨fits, affords⟩ := spacious
  have listed : ∀ g ∈ h.live.lineage.grants, g.isOpen = true → g ∈ h.live.lineage.openGrants :=
    fun g member active => LineageTable.mem_openGrants.mpr ⟨member, active⟩
  refine ⟨?_, ?_, ?_⟩
  · intro g member active request now names
    rcases ran : (Work.release request now).exec h.work with ⟨r, w'⟩
    have found : h.work.state.lineage.find request.grant = some g := by
      rw [names]
      exact footing.sound.find_eq member
    have positive := List.length_pos_of_mem (listed g member active)
    obtain ⟨response, rfl⟩ := ((Work.release_ends footing found active ran).ok_iff
      fun stuck => stuck.2).mpr ⟨affords.le (by omega) (by omega), fits g (listed g member active)⟩
    exact ⟨response, w', rfl⟩
  · intro request now registered ⟨g, member, active, domain, extents⟩
    have names : Work.Names h.work.state request.domain request.scope := by
      refine ⟨?_, ?_, registered⟩
      · rw [← domain]
        exact footing.named g member
      · rw [← extents]
        exact footing.filled g member
    have positive := List.length_pos_of_mem (listed g member active)
    rcases ran : (Work.fence request now).exec h.work with ⟨r, w'⟩
    by_cases none : h.work.state.lineage.openGrants.filter (Work.fencedBy request) = []
    · have fit : Fits h.work.state request.scope := extents ▸ fits g (listed g member active)
      obtain ⟨response, rfl⟩ := (Work.fence_alone footing names none ran).1.mpr
        ⟨affords.le (by omega) (by omega), fit⟩
      exact ⟨response, w', rfl⟩
    · have count := List.length_filter_le (Work.fencedBy request) h.work.state.lineage.openGrants
      have length : h.work.state.lineage.openGrants.length = h.live.lineage.openGrants.length := rfl
      have fitting : ∀ scope ∈ (h.work.state.lineage.openGrants.filter
          (Work.fencedBy request)).map (·.extents), Fits h.work.state scope := by
        intro scope member
        obtain ⟨o, inside, rfl⟩ := List.mem_map.mp member
        exact fits o (List.mem_filter.mp inside).1
      obtain ⟨response, rfl⟩ := ((Work.fence_ends footing names none ran).ok_iff
        fun stuck => stuck.misfit).mpr ⟨affords.le (by omega) (by omega), fitting⟩
      exact ⟨response, w', rfl⟩
  · intro now
    exact (Work.recoverAfterRestart_ok_iff (w := h.work) footing placed
      (ne_of_lt incarnations)).mpr ⟨affords, fits⟩

/-- Every authority can be given up and every restart goes through exactly when there is
room in the fence table for one more fence of each open scope, and there are numbers left
for the records of a recovery. -/
theorem surrender_iff (h : History) (reached : Reachable (fun _ _ => True) h)
    (incarnations : h.live.incarnationCounter < maxWord) : Surrenders h ↔ Spacious h.live := by
  constructor
  · intro surrenders
    obtain ⟨w', ran⟩ := surrenders.restart 0
    obtain ⟨affords, fits⟩ := (Work.recoverAfterRestart_ok_iff (w := h.work) reached.footing
      reached.placed (ne_of_lt incarnations)).mp ⟨w', ran⟩
    exact ⟨fits, affords⟩
  · exact Surrenders.of_spacious reached.footing reached.placed incarnations

/-- An open grant in a small registry, which can be given up. -/
theorem surrender_iff_sample : ∃ h, Reachable (fun _ _ => True) h ∧
    h.live.lineage.grants.any (·.isOpen) = true ∧ (Surrenders h ↔ Spacious h.live) := by
  have evaluated : (sampleStart.bind (guarded (fun _ _ => true) · [
      .call (.defineDomain (sampleDomain 100 120)) 1, .call .allocateIncarnation 2,
      .call (.allocateEpoch (sampleAllocation 100 120 1 1)) 3])).map (fun h =>
        (h.live.lineage.grants.any (·.isOpen), h.live.incarnationCounter)) = some (true, 1) := by
    decide +kernel
  obtain ⟨h, ran, shown⟩ := Option.map_eq_some_iff.mp evaluated
  obtain ⟨active, incarnation⟩ := Prod.mk.inj shown
  have reached := sample_reachable ran
  exact ⟨h, reached, active, surrender_iff h reached (by rw [incarnation]; decide)⟩

section Wide

/-- Sixteen letters. -/
def letter (n : Nat) : UInt8 := UInt8.ofNat (97 + n % 16)

theorem letter_toNat (n : Nat) : (letter n).toNat = 97 + n % 16 := by
  have small : n % 16 < 16 := Nat.mod_lt n (by decide)
  rw [letter, UInt8.toNat_ofNat']
  omega

theorem letter_ok (n : Nat) : idByteOk (letter n) = true := by
  have low : (97 : UInt8) ≤ letter n := by
    rw [UInt8.le_iff_toNat_le, letter_toNat]
    exact Nat.le_add_right 97 _
  have high : letter n ≤ 122 := by
    have small : n % 16 < 16 := Nat.mod_lt n (by decide)
    rw [UInt8.le_iff_toNat_le, letter_toNat]
    have top : (122 : UInt8).toNat = 122 := rfl
    omega
  simp [idByteOk, low, high]

theorem letters_valid {l : Bytes} (some' : l ≠ []) (short : l.length ≤ 64)
    (letters : ∀ b ∈ l, ∃ n, b = letter n) : (validateId l).isOk = true := by
  have charset : idCharsetOk l = true := by
    rw [idCharsetOk, List.all_eq_true]
    intro b member
    obtain ⟨n, rfl⟩ := letters b member
    exact letter_ok n
  have fits : ¬ Limits.maxIdLength < l.length := Nat.not_lt.mpr short
  rw [validateId, if_neg some', if_neg fits, charset, if_neg (by decide)]
  rfl

/-- Extent `j` of domain `i`. -/
def wideExtent (i j : Nat) : ExtentId where
  value := [letter i, letter (j / 16), letter j]
  valid := .inr (letters_valid (by simp) (by simp) (by simp))

theorem wideExtent_lt {i j k : Nat} (below : j < k) (small : k < 256) :
    wideExtent i j < wideExtent i k := by
  have order : [letter i, letter (j / 16), letter j] < [letter i, letter (k / 16), letter k] := by
    rw [List.cons_lt_cons_iff]
    refine .inr ⟨rfl, ?_⟩
    rw [List.cons_lt_cons_iff, UInt8.lt_iff_toNat_lt, letter_toNat, letter_toNat]
    by_cases same : j / 16 = k / 16
    · refine .inr ⟨by rw [same], ?_⟩
      rw [List.cons_lt_cons_iff, UInt8.lt_iff_toNat_lt, letter_toNat, letter_toNat]
      left
      omega
    · left
      omega
  exact order

theorem wideExtent_inj {i j i' j' : Nat} (left : i < 16) (right : i' < 16)
    (same : wideExtent i j = wideExtent i' j') : i = i' := by
  have bytes := congrArg Id.value same
  have first : letter i = letter i' := (List.cons.inj bytes).1
  have codes := congrArg UInt8.toNat first
  rw [letter_toNat, letter_toNat] at codes
  omega

/-- The widest scope there is. -/
def wideScope (i : Nat) : Scope where
  extents := (List.range 256).map (wideExtent i)
  sorted := by
    rw [List.pairwise_map]
    refine (List.pairwise_lt_range (n := 256)).imp_of_mem fun _ right below => ?_
    exact wideExtent_lt below (List.mem_range.mp right)
  bounded := by simp [Limits.maxExtentsPerScope]
  named := by
    intro e member
    obtain ⟨j, -, rfl⟩ := List.mem_map.mp member
    rfl

def wideDomain (i : Nat) : DomainDefinition where
  domain := ⟨[letter i], .inr (letters_valid (by simp) (by simp) (by simp))⟩
  node := Id.make [110]
  scope := wideScope i
  policy := Id.make [112]

theorem wideDomain_inj {i j : Nat} (left : i < 16) (right : j < 16)
    (same : (wideDomain i).domain = (wideDomain j).domain) : i = j := by
  have bytes := congrArg Id.value same
  have first : letter i = letter j := (List.cons.inj bytes).1
  have codes := congrArg UInt8.toNat first
  rw [letter_toNat, letter_toNat] at codes
  omega

/-- Fresh but for the first `n` domains. -/
structure Defined (n : Nat) (s : RegistryState) : Prop where
  known : ∀ i < n, s.domains.find (wideDomain i).domain = some (wideDomain i)
  free : ∀ i, n ≤ i → i < 16 → s.domains.find (wideDomain i).domain = none
  size : s.domains.size = n
  fences : s.fences = {}
  lineage : s.lineage = {}
  tokens : s.tokenCounter = 0
  ids : s.grantCounter = 0
  incarnations : s.incarnationCounter = 0
  boot : s.boot.incarnation = 0
  sequence : s.registrySequence.toNat = n

theorem Defined.step {n : Nat} {w : Work} (defined : Defined n w.state) (more : n < 16) :
    (Work.defineDomain (wideDomain n) 0).exec w = (.ok ⟨⟩, w.defining (wideDomain n) 0) ∧
      Defined (n + 1) (w.defining (wideDomain n) 0).state := by
  have sequences : w.state.registrySequence ≠ maxWord := by
    intro full
    have count := defined.sequence
    rw [full] at count
    simp only [maxWord, UInt64.reduceToNat] at count
    omega
  have room : ¬ Limits.maxDomains ≤ w.state.domains.size := by
    rw [defined.size]
    simp only [Limits.maxDomains]
    omega
  have free := defined.free n le_rfl more
  refine ⟨Work.defineDomain_runs ⟨rfl, rfl, rfl, free, room⟩ rfl sequences, ?_⟩
  have table : (w.defining (wideDomain n) 0).state.domains = w.state.domains.put (wideDomain n) :=
    rfl
  have apart : ∀ i, i < 16 → i ≠ n → (wideDomain n).domain ≠ (wideDomain i).domain :=
    fun i small differ same => differ (wideDomain_inj more small same).symm
  refine ⟨fun i below => ?_, fun i above small => ?_, ?_, defined.fences, defined.lineage,
    defined.tokens, defined.ids, defined.incarnations, defined.boot, ?_⟩
  · rw [table]
    rcases Nat.lt_succ_iff_lt_or_eq.mp below with earlier | rfl
    · exact (SortedTable.find_put_ne _ (apart i (by omega) (by omega))).trans
        (defined.known i earlier)
    · exact SortedTable.find_put_self _ _
  · rw [table]
    exact (SortedTable.find_put_ne _ (apart i small (by omega))).trans
      (defined.free i (by omega) small)
  · rw [table, SortedTable.size_put, free, defined.size]
    rfl
  · exact (toNat_succ sequences).trans (congrArg (· + 1) defined.sequence)

/-- The first domain is held, the others are only fenced, and the first `n` of them have
their extents in the table. -/
structure Tabled (n : Nat) (s : RegistryState) : Prop where
  known : ∀ i < 16, s.domains.find (wideDomain i).domain = some (wideDomain i)
  size : s.fences.extents.size = 256 * n
  absent : ∀ i, n ≤ i → i < 16 → ∀ j, s.fences.find (wideExtent i j) = none
  held : ∃ g, s.lineage.grants = [g] ∧ g.isOpen = true ∧ g.id = 1 ∧ g.extents = wideScope 0 ∧
    g.domain = (wideDomain 0).domain
  tokens : s.tokenCounter.toNat = n
  incarnations : s.incarnationCounter = 1
  sequence : s.registrySequence.toNat ≤ 40 + n

theorem size_raiseAll_new {record : FenceRecord} {l : List ExtentId} {marks : ExtentMarks}
    (distinct : l.Nodup) (absent : ∀ e ∈ l, marks.find e = none) :
    (FenceTable.raiseAll record l marks).size = marks.size + l.length := by
  induction l generalizing marks with
  | nil => rfl
  | cons e l ih =>
    obtain ⟨apart, distinct⟩ := List.nodup_cons.mp distinct
    have one : (marks.put (FenceTable.raisedMark record e (marks.find e))).size =
        marks.size + 1 := by
      rw [SortedTable.size_put, FenceTable.raisedMark_extent, absent e List.mem_cons_self]
      rfl
    have rest := @ih (marks.put (FenceTable.raisedMark record e (marks.find e))) distinct
      fun x member => by
        have differ : e ≠ x := by
          rintro rfl
          exact apart member
        have before := absent x (List.mem_cons_of_mem e member)
        exact (SortedTable.find_put_ne marks differ).trans before
    rw [List.length_cons]
    refine rest.trans ?_
    omega

theorem wideScope_nodup (i : Nat) : (wideScope i).extents.Nodup :=
  (wideScope i).sorted.imp ne_of_lt

theorem mem_wideScope {i j : Nat} {e : ExtentId} (small : i < 16) (small' : j < 16)
    (member : e ∈ (wideScope i).extents) (k : Nat) (same : e = wideExtent j k) : i = j := by
  obtain ⟨m, -, rfl⟩ := List.mem_map.mp member
  exact wideExtent_inj small small' same

def wideFence (n : Nat) : FenceRequest where
  domain := (wideDomain n).domain
  scope := wideScope n

theorem Tabled.affords {n : Nat} {s : RegistryState} (tabled : Tabled n s) (few : n ≤ 16) :
    Affords s 1 1 := by
  have records := tabled.sequence
  have tokens := tabled.tokens
  constructor
  · simp only [maxWord, UInt64.reduceToNat]
    omega
  · simp only [maxWord, UInt64.reduceToNat]
    omega

/-- A full table has no room for the scope that is held. -/
theorem Tabled.crowded {s : RegistryState} (tabled : Tabled 16 s) {g : EpochGrant}
    (extents : g.extents = wideScope 0) : ¬ Fits s g.extents := by
  have width : g.extents.size = 256 := by simp [extents, Scope.size, wideScope]
  rw [Fits, tabled.size, width]
  decide

theorem Tabled.step {n : Nat} {w : Work} (tabled : Tabled n w.state)
    (footing : Footing w.state) (first : 1 ≤ n) (more : n < 16) :
    ∃ response w', (Work.fence (wideFence n) 0).exec w = (.ok response, w') ∧
      Tabled (n + 1) w'.state := by
  obtain ⟨g, grants, active, id, extents, domain⟩ := tabled.held
  have names : Work.Names w.state (wideFence n).domain (wideFence n).scope :=
    ⟨rfl, rfl, wideDomain n, tabled.known n more, rfl⟩
  have none : w.state.lineage.openGrants.filter (Work.fencedBy (wideFence n)) = [] := by
    rw [List.filter_eq_nil_iff]
    intro o member
    have inside := (LineageTable.mem_openGrants.mp member).1
    rw [grants] at inside
    obtain rfl := List.mem_singleton.mp inside
    have other : o.domain ≠ (wideFence n).domain := by
      intro same
      rw [domain] at same
      have zero := wideDomain_inj (by decide) more same
      omega
    simp [Work.fencedBy, other]
  have affords := tabled.affords more.le
  have width : (wideFence n).scope.size = 256 := by simp [wideFence, Scope.size, wideScope]
  have fits : Fits w.state (wideFence n).scope := by
    rw [Fits, tabled.size, width]
    simp only [Limits.maxIndexedExtents]
    omega
  obtain ⟨response, ran⟩ := Work.fence_alone_runs footing names none affords fits
  refine ⟨response, _, ran, ?_⟩
  obtain ⟨tokens, sequences⟩ := Work.affords_fence.mp affords
  have marks : ∀ e, (w.state.fences.applied (w.fenceRecord (wideFence n).domain (wideFence n).scope
      (wideFence n).epoch (wideFence n).incarnation 0 (Work.causeOr (wideFence n).cause
        .extentFenced) true 0) (wideFence n).scope).find e = _ := fun e => FenceTable.applied_find e
  refine ⟨tabled.known, ?_, fun i above small j => ?_, ⟨g, grants, active, id, extents, domain⟩, ?_,
    tabled.incarnations, ?_⟩
  · have size : (w.state.fences.applied (w.fenceRecord (wideFence n).domain (wideFence n).scope
        (wideFence n).epoch (wideFence n).incarnation 0 (Work.causeOr (wideFence n).cause
          .extentFenced) true 0) (wideFence n).scope).extents.size = 256 * (n + 1) := by
      have distinct : (wideFence n).scope.extents.Nodup := wideScope_nodup n
      rw [FenceTable.applied_extents, size_raiseAll_new distinct, tabled.size]
      · have length : (wideFence n).scope.extents.length = 256 := width
        omega
      · intro e member
        obtain ⟨j, -, rfl⟩ := List.mem_map.mp member
        exact tabled.absent n le_rfl more j
    exact size
  · have outside : wideExtent i j ∉ (wideFence n).scope.extents := by
      intro member
      have same := mem_wideScope more small member j rfl
      omega
    have found := marks (wideExtent i j)
    rw [if_neg outside, tabled.absent i (by omega) small j] at found
    exact found
  · have next : max w.state.tokenCounter (w.state.tokenCounter + 1) = w.state.tokenCounter + 1 :=
      max_eq_right (le_of_lt (lt_succ tokens))
    have count := toNat_succ tokens
    rw [← next, tabled.tokens] at count
    exact count
  · have count := toNat_succ sequences
    have bound := tabled.sequence
    have here : (w.state.registrySequence + 1).toNat ≤ 40 + (n + 1) := by omega
    exact here

def wideAllocation : AllocateEpochRequest where
  domain := (wideDomain 0).domain
  scope := wideScope 0
  incarnation := 1
  boot := 1
  attemptSequence := 1

theorem size_stamp_new {mark : ExtentId → ExtentFenceState} (placed : ∀ e, (mark e).extent = e)
    {l : List ExtentId} {marks : ExtentMarks} (distinct : l.Nodup)
    (absent : ∀ e ∈ l, marks.find e = none) :
    (ExtentMarks.stamp mark l marks).size = marks.size + l.length := by
  induction l generalizing marks with
  | nil => rfl
  | cons e l ih =>
    obtain ⟨apart, distinct⟩ := List.nodup_cons.mp distinct
    have one : (marks.put (mark e)).size = marks.size + 1 := by
      rw [SortedTable.size_put, placed, absent e List.mem_cons_self]
      rfl
    have rest := @ih (marks.put (mark e)) distinct fun x member => by
      have differ : (mark e).extent ≠ x := by
        rw [placed]
        rintro rfl
        exact apart member
      exact (SortedTable.find_put_ne marks differ).trans (absent x (List.mem_cons_of_mem e member))
    rw [List.length_cons]
    refine rest.trans ?_
    omega

/-- The first domain is held once its scope is adopted and its grant opened. -/
theorem Tabled.first {w : Work} {g : EpochGrant} (extents : g.extents = wideScope 0)
    (active : g.isOpen = true) (id : g.id = 1) (domain : g.domain = (wideDomain 0).domain)
    (known : ∀ i < 16, w.state.domains.find (wideDomain i).domain = some (wideDomain i))
    (fences : w.state.fences = {}) (grants : w.state.lineage.grants = [])
    (token : w.state.tokenCounter = 0) (incarnations : w.state.incarnationCounter = 1)
    (sequence : w.state.registrySequence.toNat = 17) (next : g.fenceToken = 1) :
    Tabled 1 ((w.adopting g 0).opening g 0).state := by
  have table : ((w.adopting g 0).opening g 0).state.fences = w.state.fences.adopted g.extents
      g.fenceToken g.epoch g.incarnation g.id 0 := rfl
  have lineage : ((w.adopting g 0).opening g 0).state.lineage = w.state.lineage.opened g := rfl
  have tokens : ((w.adopting g 0).opening g 0).state.tokenCounter =
      max (max w.state.tokenCounter g.fenceToken) g.fenceToken := rfl
  have sequences : ((w.adopting g 0).opening g 0).state.registrySequence =
      w.state.registrySequence + 1 + 1 := rfl
  have domains : ((w.adopting g 0).opening g 0).state.domains = w.state.domains := by
    simp only [Work.opening, Work.adopting, Work.kept, RegistryState.raiseTokenCounter,
      RegistryState.raiseGrantCounter, RegistryState.remember, RegistryState.observe]
  have counter : ((w.adopting g 0).opening g 0).state.incarnationCounter =
      w.state.incarnationCounter := by
    simp only [Work.opening, Work.adopting, Work.kept, RegistryState.raiseTokenCounter,
      RegistryState.raiseGrantCounter, RegistryState.remember, RegistryState.observe]
  generalize ((w.adopting g 0).opening g 0).state = s at *
  constructor
  · exact domains ▸ known
  · have distinct : g.extents.extents.Nodup := extents ▸ wideScope_nodup 0
    have size := @size_stamp_new (⟨·, g.fenceToken, g.epoch, g.incarnation, g.id, 0⟩)
      (fun _ => rfl) _ w.state.fences.extents distinct fun e _ => by
        rw [fences]
        rfl
    have width : g.extents.extents.length = 256 := by simp [extents, wideScope]
    have marks : (w.state.fences.adopted g.extents g.fenceToken g.epoch g.incarnation g.id
        0).extents = _ := rfl
    have empty : w.state.fences.extents.size = 0 := by
      rw [fences]
      rfl
    rw [table, marks]
    refine size.trans ?_
    omega
  · intro i above small j
    have outside : wideExtent i j ∉ g.extents.extents := by
      intro member
      rw [extents] at member
      have same := mem_wideScope (i := 0) (by decide) small member j rfl
      omega
    rw [table, FenceTable.adopted_find, if_neg outside, fences]
    rfl
  · refine ⟨g, ?_, active, id, extents, domain⟩
    rw [lineage, LineageTable.opened, grants]
    rfl
  · rw [tokens, token, next]
    rfl
  · exact counter.trans incarnations
  · rw [sequences]
    have first := UInt64.toNat_add w.state.registrySequence 1
    have second := UInt64.toNat_add (w.state.registrySequence + 1) 1
    simp only [UInt64.reduceToNat] at first second
    omega

/-- All domains are there and an incarnation is handed out. -/
structure Handed (s : RegistryState) : Prop where
  known : ∀ i < 16, s.domains.find (wideDomain i).domain = some (wideDomain i)
  fences : s.fences = {}
  lineage : s.lineage = {}
  tokens : s.tokenCounter = 0
  ids : s.grantCounter = 0
  incarnations : s.incarnationCounter = 1
  boot : s.boot.incarnation = 0
  sequence : s.registrySequence.toNat = 17

theorem Defined.hand {w : Work} (defined : Defined 16 w.state) :
    (Work.allocateIncarnation 0).exec w = (.ok 1, w.numbering 0) ∧
      Handed (w.numbering 0).state := by
  have room : w.state.incarnationCounter ≠ maxWord := by
    rw [defined.incarnations]
    decide
  have sequences : w.state.registrySequence ≠ maxWord := by
    intro full
    have count := defined.sequence
    rw [full] at count
    simp only [maxWord, UInt64.reduceToNat] at count
    omega
  have handed : (Work.allocateIncarnation 0).exec w =
      (.ok (w.state.incarnationCounter + 1), w.numbering 0) :=
    Work.allocateIncarnation_runs room sequences
  rw [defined.incarnations] at handed
  refine ⟨handed, ?_⟩
  have counter : (w.numbering 0).state.incarnationCounter = w.state.incarnationCounter + 1 := rfl
  have records : (w.numbering 0).state.registrySequence = w.state.registrySequence + 1 := rfl
  constructor
  · exact fun i small => defined.known i small
  · exact defined.fences
  · exact defined.lineage
  · exact defined.tokens
  · exact defined.ids
  · rw [counter, defined.incarnations]
    rfl
  · exact defined.boot
  · have count := toNat_succ sequences
    rw [defined.sequence] at count
    rw [records]
    exact count

theorem Handed.allocate {w : Work} (handed : Handed w.state) (footing : Footing w.state) :
    ∃ response w', (Work.allocateEpoch wideAllocation 0).exec w = (.ok response, w') ∧
      Tabled 1 w'.state := by
  have admissible : Work.Admissible w.state wideAllocation := by
    refine ⟨rfl, rfl, by decide, ⟨wideDomain 0, handed.known 0 (by decide), rfl⟩, ?_, ?_, ?_⟩
    · rw [handed.fences]
      rfl
    · rw [handed.incarnations]
      decide
    · rw [handed.boot]
      decide
  have affords : Affords w.state 2 1 := by
    have records := handed.sequence
    constructor
    · simp only [maxWord, UInt64.reduceToNat]
      omega
    · rw [handed.tokens]
      decide
  have fits : Fits w.state wideAllocation.scope := by
    have width : wideAllocation.scope.extents.length = 256 := by simp [wideAllocation, wideScope]
    rw [Fits, handed.fences, Scope.size, width]
    decide
  have numbered : Work.Numbered w.state wideAllocation.domain := by
    rw [Work.Numbered, handed.ids, handed.lineage]
    decide
  have none : w.state.lineage.grants = [] := by rw [handed.lineage]
  obtain ⟨response, ran⟩ := Work.allocateEpoch_runs footing admissible (by decide) none affords
    numbered fits
  have id : w.state.grantCounter + 1 = 1 := by
    rw [handed.ids]
    rfl
  have token : w.state.tokenCounter + 1 = 1 := by
    rw [handed.tokens]
    rfl
  exact ⟨response, _, ran, Tabled.first rfl rfl id rfl handed.known handed.fences none
    handed.tokens handed.incarnations handed.sequence token⟩

theorem Reachable.called {h : History} (reached : Reachable (fun _ _ => True) h) (op : Op)
    (now : Step) : Reachable (fun _ _ => True) (h.called op now) :=
  reached.turns (.single ⟨.call op now, trivial, rfl⟩)

theorem defined_fresh : ∃ h, Reachable (fun _ _ => True) h ∧ Defined 0 h.live := by
  obtain ⟨h, begun⟩ : ∃ h, sampleStart = some h := Option.isSome_iff_exists.mp (by decide)
  refine ⟨h, ⟨_, _, _, _, h, begun, .refl⟩, ?_⟩
  cases begun
  exact ⟨fun _ small => absurd small (Nat.not_lt_zero _), fun _ _ _ => rfl, rfl, rfl, rfl, rfl, rfl,
    rfl, rfl, rfl⟩

theorem defined_all (n : Nat) (few : n ≤ 16) :
    ∃ h, Reachable (fun _ _ => True) h ∧ Defined n h.live := by
  induction n with
  | zero => exact defined_fresh
  | succ n ih =>
    obtain ⟨h, reached, defined⟩ := ih (by omega)
    obtain ⟨ran, next⟩ := Defined.step (w := h.work) defined (by omega)
    refine ⟨_, reached.called (.defineDomain (wideDomain n)) 0, ?_⟩
    have after : (h.called (.defineDomain (wideDomain n)) 0).live =
        ((Work.defineDomain (wideDomain n) 0).exec h.work).2.state := rfl
    rw [after, ran]
    exact next

theorem tabled_first : ∃ h, Reachable (fun _ _ => True) h ∧ Tabled 1 h.live := by
  obtain ⟨h, reached, defined⟩ := defined_all 16 le_rfl
  obtain ⟨ran, handed⟩ := Defined.hand (w := h.work) defined
  have reached₁ := reached.called .allocateIncarnation 0
  have after : (h.called .allocateIncarnation 0).live =
      ((Work.allocateIncarnation 0).exec h.work).2.state := rfl
  rw [ran] at after
  rw [← after] at handed
  obtain ⟨response, w', allocated, tabled⟩ := Handed.allocate
    (w := (h.called .allocateIncarnation 0).work) handed reached₁.footing
  refine ⟨_, reached₁.called (.allocateEpoch wideAllocation) 0, ?_⟩
  have last : ((h.called .allocateIncarnation 0).called (.allocateEpoch wideAllocation) 0).live =
      ((Work.allocateEpoch wideAllocation 0).exec (h.called .allocateIncarnation 0).work).2.state :=
    rfl
  rw [last, allocated]
  exact tabled

theorem tabled_all (n : Nat) (few : n < 16) :
    ∃ h, Reachable (fun _ _ => True) h ∧ Tabled (n + 1) h.live := by
  induction n with
  | zero => exact tabled_first
  | succ n ih =>
    obtain ⟨h, reached, tabled⟩ := ih (by omega)
    obtain ⟨response, w', ran, next⟩ := Tabled.step (w := h.work) tabled reached.footing
      (by omega) (by omega)
    refine ⟨_, reached.called (.fence (wideFence (n + 1))) 0, ?_⟩
    have after : (h.called (.fence (wideFence (n + 1))) 0).live =
        ((Work.fence (wideFence (n + 1)) 0).exec h.work).2.state := rfl
    rw [after, ran]
    exact next

/-- Sixteen domains of 256 extents fill the table; the one that is held cannot be
released. -/
theorem surrender_refused : ∃ h, Reachable (fun _ _ => True) h ∧
    h.live.tokenCounter < maxWord ∧ h.live.incarnationCounter < maxWord ∧
    ∃ g ∈ h.live.lineage.grants, g.isOpen = true ∧ ∀ request now, request.grant = g.id →
      ∃ refusal w', (Work.release request now).exec h.work = (.error refusal, w') := by
  obtain ⟨h, reached, tabled⟩ := tabled_all 15 (by decide)
  obtain ⟨g, grants, active, id, extents, domain⟩ := tabled.held
  have member : g ∈ h.live.lineage.grants := by
    rw [grants]
    exact List.mem_singleton_self g
  refine ⟨h, reached, ?_, ?_, g, member, active, fun request now names => ?_⟩
  · rw [UInt64.lt_iff_toNat_lt, tabled.tokens]
    decide
  · rw [tabled.incarnations]
    decide
  · rcases ran : (Work.release request now).exec h.work with ⟨r, w'⟩
    have found : h.work.state.lineage.find request.grant = some g := by
      rw [names]
      exact reached.footing.sound.find_eq member
    cases r with
    | error refusal => exact ⟨refusal, w', rfl⟩
    | ok response =>
      obtain ⟨-, fits⟩ := ((Work.release_ends reached.footing found active ran).ok_iff
        fun stuck => stuck.2).mp ⟨response, rfl⟩
      exact absurd fits (tabled.crowded extents)

end Wide

end History
end SplitBrainFabric
