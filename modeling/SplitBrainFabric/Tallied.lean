import SplitBrainFabric.Considered

/-! The assessment loop in closed form. What it leaves behind is counted from three things:
how many statements were superseded, how many had no witness, and the ones that count. -/

namespace SplitBrainFabric
open Words

section Closed

variable (request : EvidenceRequest) (profile : QuorumProfile) (floors : List WitnessFloor)

/-- Heard in favour. -/
def backs (a : WitnessAttestation) : Bool :=
  (appraised request profile floors a).isHeard && a.support

/-- Heard against. -/
def refuses (a : WitnessAttestation) : Bool :=
  (appraised request profile floors a).isHeard && !a.support

/-- Not heard at all. -/
def barred (a : WitnessAttestation) : Bool := !(appraised request profile floors a).isHeard

/-- The tally of a bundle with so many superseded and unnamed statements, of which these count. -/
def tallied (superseded unnamed : Nat) (counting : List WitnessAttestation) : Tally where
  duplicate := UInt64.ofNat superseded
  replayed := UInt64.ofNat (superseded +
    counting.countP fun a => (appraised request profile floors a).isBelowFloor)
  rejected := UInt64.ofNat (unnamed + counting.countP (barred request profile floors))
  anyConflict := counting.any (refuses request profile floors)
  anyStale := counting.any fun a => (appraised request profile floors a).isStale
  anyUnknown := counting.any fun a => (appraised request profile floors a).isUnknown
  anyInvalid := decide (0 < unnamed) ||
    counting.any fun a => (appraised request profile floors a).isInvalid
  generationMismatch := counting.any fun a => (appraised request profile floors a).isMismatched
  seenSupport := SortedTable.ofList
    ((counting.filter fun a => (appraised request profile floors a).isHeard).map
      fun a => ⟨a.witness, a.support⟩)
  supportingDomains := SortedTable.ofList
    ((counting.filter (backs request profile floors)).map
      fun a => profile.faultDomainOf a.witness)
  earliestExpiry := (counting.filter (backs request profile floors)).foldl
    (fun earliest a => if a.validUntil < earliest then a.validUntil else earliest) maxWord
  floorGeneration := (counting.filter (backs request profile floors)).foldl
    (fun low a => if a.witnessGeneration < low then a.witnessGeneration else low) maxWord
  ceilingGeneration := (counting.filter (backs request profile floors)).foldl
    (fun high a => if high < a.witnessGeneration then a.witnessGeneration else high) 0

/-- A statement and how the loop files it: unnamed, superseded, or by what it says. -/
def FiledAs (p : WitnessAttestation × Filing) : Prop :=
  p.1.witness.isEmpty = true ∧ p.2 = .invalid ∨ p.1.witness.isEmpty = false ∧
    (p.2 = .superseded ∨ p.2 = appraised request profile floors p.1)

def unnamedIn (filed : List (WitnessAttestation × Filing)) : Nat :=
  filed.countP fun p => p.1.witness.isEmpty

def supersededIn (filed : List (WitnessAttestation × Filing)) : Nat :=
  filed.countP fun p => p.2.isSuperseded

def countingIn (filed : List (WitnessAttestation × Filing)) : List WitnessAttestation :=
  (filed.filter fun p => !p.1.witness.isEmpty && !p.2.isSuperseded).map (·.1)

variable {request profile floors}

theorem judge_unnamed (superseded unnamed : Nat) (counting : List WitnessAttestation)
    (a : WitnessAttestation) :
    (tallied request profile floors superseded unnamed counting).judge a .invalid =
      tallied request profile floors superseded (unnamed + 1) counting := by
  have moved : unnamed + 1 + counting.countP (barred request profile floors) =
      unnamed + counting.countP (barred request profile floors) + 1 := by omega
  simp only [tallied, Tally.judge, moved, UInt64.ofNat_add, UInt64.ofNat_one]
  simp

theorem judge_superseded (superseded unnamed : Nat) (counting : List WitnessAttestation)
    (a : WitnessAttestation) :
    (tallied request profile floors superseded unnamed counting).judge a .superseded =
      tallied request profile floors (superseded + 1) unnamed counting := by
  have moved : superseded + 1 +
        counting.countP (fun a => (appraised request profile floors a).isBelowFloor) =
      superseded +
        counting.countP (fun a => (appraised request profile floors a).isBelowFloor) + 1 := by omega
  simp only [tallied, Tally.judge, moved, UInt64.ofNat_add, UInt64.ofNat_one]

/-- One more statement that counts. -/
theorem judge_counting (superseded unnamed : Nat) (counting : List WitnessAttestation)
    (a : WitnessAttestation) :
    (tallied request profile floors superseded unnamed counting).judge a
        (appraised request profile floors a) =
      tallied request profile floors superseded unnamed (counting ++ [a]) := by
  cases filed : appraised request profile floors a with
  | superseded =>
    have never := appraised_isSuperseded request profile floors a
    rw [filed] at never
    cases never
  | invalid | stale | unknown | mismatched | belowFloor =>
    simp [tallied, Tally.judge, barred, backs, refuses, filed, Filing.isHeard, Filing.isStale,
      Filing.isUnknown, Filing.isInvalid, Filing.isMismatched, Filing.isBelowFloor,
      ← Nat.add_assoc]
  | heard faultDomain =>
    have heard : (appraised request profile floors a).isHeard = true := by rw [filed]; rfl
    have qualifies := qualifies_of_heard heard
    have domain : faultDomain = profile.faultDomainOf a.witness := by
      have said := appraised_of_qualifies qualifies
      rw [filed] at said
      exact Filing.heard.inj said
    subst domain
    cases supports : a.support with
    | false =>
      simp [tallied, Tally.judge, Tally.heard, barred, backs, refuses, filed, supports,
        Filing.isHeard, Filing.isStale, Filing.isUnknown, Filing.isInvalid, Filing.isMismatched,
        Filing.isBelowFloor, SortedTable.ofList, List.foldl_append]
    | true =>
      simp [tallied, Tally.judge, Tally.heard, barred, backs, refuses, filed, supports,
        Filing.isHeard, Filing.isStale, Filing.isUnknown, Filing.isInvalid, Filing.isMismatched,
        Filing.isBelowFloor, SortedTable.ofList, List.foldl_append]

/-- The loop over a filed bundle. -/
theorem foldl_judge (filed : List (WitnessAttestation × Filing))
    (all : ∀ p ∈ filed, FiledAs request profile floors p) :
    filed.foldl (fun t p => t.judge p.1 p.2) {} =
      tallied request profile floors (supersededIn filed) (unnamedIn filed) (countingIn filed) := by
  induction filed using List.reverseRecOn with
  | nil => rfl
  | append_singleton filed p ih =>
    rw [List.foldl_append, ih fun q member => all q (List.mem_append_left _ member)]
    simp only [List.foldl_cons, List.foldl_nil]
    rcases all p (by simp) with ⟨unnamed, filing⟩ | ⟨named, filing | filing⟩
    · rw [filing, judge_unnamed]
      simp [supersededIn, unnamedIn, countingIn, unnamed, filing]
    · rw [filing, judge_superseded]
      simp [supersededIn, unnamedIn, countingIn, named, filing]
    · rw [filing, judge_counting]
      simp [supersededIn, unnamedIn, countingIn, named, filing, appraised_isSuperseded]

/-- The statements without a witness. -/
def unnamedCount (l : List WitnessAttestation) : Nat := l.countP fun a => a.witness.isEmpty

variable (request profile floors) in
/-- Every statement of a bundle with the way the loop files it. -/
def filedOf (l : List WitnessAttestation) : List (WitnessAttestation × Filing) :=
  l.zipIdx.map fun p => (p.1,
    fileStatement request profile (floorTable floors) profile.slotTable (latestIndex l) p.1 p.2)

theorem filedAs_of_mem {l : List WitnessAttestation} {p : WitnessAttestation × Filing}
    (member : p ∈ filedOf request profile floors l) : FiledAs request profile floors p := by
  obtain ⟨⟨a, i⟩, -, rfl⟩ := List.mem_map.mp member
  simp only [FiledAs, fileStatement_eq]
  by_cases unnamed : a.witness.isEmpty = true
  · exact .inl ⟨unnamed, if_pos unnamed⟩
  · refine .inr ⟨Bool.not_eq_true _ ▸ unnamed, ?_⟩
    rw [if_neg unnamed]
    split
    · exact .inl rfl
    · exact .inr rfl

theorem unnamedIn_filedOf (l : List WitnessAttestation) :
    unnamedIn (filedOf request profile floors l) = unnamedCount l := by
  rw [unnamedIn, filedOf, List.countP_map, unnamedCount]
  conv_rhs => rw [← List.zipIdx_map_fst 0 l, List.countP_map]
  rfl

theorem countingIn_filedOf (l : List WitnessAttestation) :
    countingIn (filedOf request profile floors l) = considered l := by
  rw [countingIn, filedOf, considered, List.filter_map, List.map_map]
  refine congrArg (List.map Prod.fst) (List.filter_congr fun p _ => ?_)
  simp only [Function.comp_apply, fileStatement_eq]
  by_cases unnamed : p.1.witness.isEmpty = true
  · simp [unnamed]
  · rw [if_neg unnamed]
    have named := Bool.not_eq_true _ ▸ unnamed
    split
    · rename_i older
      simp only [named, older, Filing.isSuperseded_superseded]
    · rename_i latest
      simp only [named, latest, appraised_isSuperseded]

/-- Every statement is unnamed, superseded or counts. -/
theorem length_parts (filed : List (WitnessAttestation × Filing))
    (all : ∀ p ∈ filed, FiledAs request profile floors p) :
    filed.length = supersededIn filed + unnamedIn filed + (countingIn filed).length := by
  induction filed with
  | nil => rfl
  | cons p rest ih =>
    have later := ih fun q member => all q (List.mem_cons_of_mem p member)
    simp only [supersededIn, unnamedIn, countingIn, List.length_map, List.countP_cons,
      List.length_cons, List.filter_cons] at later ⊢
    rcases all p List.mem_cons_self with ⟨unnamed, filing⟩ | ⟨named, filing | filing⟩
    · simp [unnamed, filing]
      omega
    · simp [named, filing]
      omega
    · simp [named, filing, appraised_isSuperseded]
      omega

variable (request profile floors) in
/-- The tally depends on a bundle through its length, its unnamed statements and the ones
that count. -/
theorem tallyOf_eq (l : List WitnessAttestation) :
    tallyOf request profile floors l = tallied request profile floors
      (l.length - unnamedCount l - (considered l).length) (unnamedCount l) (considered l) := by
  have all : ∀ p ∈ filedOf request profile floors l, FiledAs request profile floors p :=
    fun p member => filedAs_of_mem member
  have parts := length_parts _ all
  rw [unnamedIn_filedOf, countingIn_filedOf, filedOf, List.length_map, List.length_zipIdx] at parts
  have closed := foldl_judge _ all
  rw [unnamedIn_filedOf, countingIn_filedOf] at closed
  have superseded : supersededIn (filedOf request profile floors l) =
      l.length - unnamedCount l - (considered l).length := by
    rw [filedOf]
    omega
  rw [← superseded, ← closed, filedOf, List.foldl_map]
  rfl

section Counts

variable {superseded unnamed : Nat} {counting : List WitnessAttestation}

theorem tallied_supporting (distinct : (counting.map (·.witness)).Nodup) :
    (tallied request profile floors superseded unnamed counting).supporting =
      UInt32.ofNat (counting.countP (backs request profile floors)) := by
  have apart : (((counting.filter fun a => (appraised request profile floors a).isHeard).map
      fun a => (⟨a.witness, a.support⟩ : SupportEntry)).map SupportEntry.witness).Nodup := by
    rw [List.map_map]
    exact distinct.sublist (List.filter_sublist.map _)
  have rows := SortedTable.rows_ofList apart
  rw [Tally.supporting, tallied, rows.countP_eq, List.countP_map, List.countP_filter]
  refine congrArg UInt32.ofNat (List.countP_congr fun a _ => ?_)
  simp [backs, Bool.and_comm]

/-- The fault domains of those that back the request. -/
theorem tallied_domains :
    (tallied request profile floors superseded unnamed counting).supportingDomains.size =
      ((counting.filter (backs request profile floors)).map
        fun a => profile.faultDomainOf a.witness).toFinset.card := by
  simp only [tallied]
  generalize (counting.filter (backs request profile floors)).map
    (fun a => profile.faultDomainOf a.witness) = domains
  have distinct := (SortedTable.ofList domains : SortedTable (id : FaultDomainId → _)).sorted.imp
    fun {a b} (less : a < b) => ne_of_lt less
  have same : (SortedTable.ofList domains : SortedTable (id : FaultDomainId → _)).rows.toFinset =
      domains.toFinset := by
    ext x
    rw [List.mem_toFinset, List.mem_toFinset, SortedTable.mem_ofList]
  rw [SortedTable.size, ← same, List.toFinset_card_of_nodup distinct]

end Counts

end Closed

end SplitBrainFabric
