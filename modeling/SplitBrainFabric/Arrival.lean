import SplitBrainFabric.CurrentEvidence

/-! Which statement of a witness counts, read off the bundle as it arrived: one of the
newest, with the least key among those. Of several with that key the sort leaves one in front. -/

namespace SplitBrainFabric
open Words

/-- The statements in canonical order, ties as they arrived. -/
def canonicalOrder (statements : List WitnessAttestation) : List WitnessAttestation :=
  statements.insertionSort fun a b => a.sortKey ≤ b.sortKey

/-- Nothing in the bundle comes before the statement for its witness. Several statements of
one witness may head it, if their keys are equal. -/
structure Heads (statements : List WitnessAttestation) (a : WitnessAttestation) : Prop where
  mem : a ∈ statements
  newest : ∀ b ∈ statements, b.witness = a.witness → b.witnessSequence ≤ a.witnessSequence
  least : ∀ b ∈ statements, b.witness = a.witness → b.witnessSequence = a.witnessSequence →
    a.sortKey ≤ b.sortKey

/-- The first statement with a given key to arrive. -/
def firstWith (statements : List WitnessAttestation) (a : WitnessAttestation) :
    Option WitnessAttestation :=
  statements.find? fun b => decide (b.sortKey = a.sortKey)

theorem sortKey_witness {a b : WitnessAttestation} (same : a.sortKey = b.sortKey) :
    a.witness = b.witness :=
  congrArg (fun key => (ofLex key).1) same

theorem sortKey_sequence {a b : WitnessAttestation} (same : a.sortKey = b.sortKey) :
    a.witnessSequence = b.witnessSequence :=
  congrArg (fun key => (ofLex (ofLex (ofLex (ofLex key).2).2).2).1) same

theorem sortKey_generation {a b : WitnessAttestation} (same : a.sortKey = b.sortKey) :
    a.witnessGeneration = b.witnessGeneration :=
  congrArg (fun key => (ofLex (ofLex (ofLex (ofLex (ofLex key).2).2).2).2).1) same

section Order

variable {l l' : List WitnessAttestation} {a b : WitnessAttestation}

theorem Heads.congr (heads : Heads l a) (same : ∀ x, x ∈ l' ↔ x ∈ l) : Heads l' a where
  mem := (same a).mpr heads.mem
  newest := fun b member => heads.newest b ((same b).mp member)
  least := fun b member => heads.least b ((same b).mp member)

theorem Heads.sortKey_eq (heads : Heads l a) (heads' : Heads l b)
    (same : a.witness = b.witness) : a.sortKey = b.sortKey := by
  have sequence : a.witnessSequence = b.witnessSequence :=
    le_antisymm (heads'.newest a heads.mem same) (heads.newest b heads'.mem same.symm)
  exact le_antisymm (heads.least b heads'.mem same.symm sequence.symm)
    (heads'.least a heads.mem same sequence)

theorem LeadsAt.heads {i : Nat} (sorted : l.Pairwise fun a b => a.sortKey ≤ b.sortKey)
    (leads : LeadsAt l i a) : Heads l a where
  mem := leads.mem
  newest := fun b member owner => by
    obtain ⟨j, place⟩ := List.mem_iff_getElem?.mp member
    exact leads.newest j b place owner
  least := fun b member owner sequence => by
    obtain ⟨j, place⟩ := List.mem_iff_getElem?.mp member
    rcases Nat.lt_or_eq_of_le (leads.first j b place owner sequence) with before | rfl
    · obtain ⟨short, here⟩ := List.getElem?_eq_some_iff.mp place
      obtain ⟨short', here'⟩ := List.getElem?_eq_some_iff.mp leads.here
      have less := List.pairwise_iff_getElem.mp sorted i j short' short before
      rwa [here, here'] at less
    · exact le_of_eq (congrArg _ (Option.some.inj (leads.here.symm.trans place)))

/-- In a sorted bundle the statement that counts is the first with its key. -/
theorem leadsAt_iff (sorted : l.Pairwise fun a b => a.sortKey ≤ b.sortKey) :
    (∃ i, LeadsAt l i a) ↔ Heads l a ∧ firstWith l a = some a := by
  constructor
  · rintro ⟨i, leads⟩
    refine ⟨leads.heads sorted, ?_⟩
    cases found : firstWith l a with
    | none => exact absurd (List.find?_eq_none.mp found a leads.mem) (by simp)
    | some y =>
      obtain ⟨hit, before, after, parts, misses⟩ := List.find?_eq_some_iff_append.mp found
      have key := of_decide_eq_true hit
      have place : l[before.length]? = some y := by simp [parts]
      have reach := leads.first _ y place (sortKey_witness key) (sortKey_sequence key)
      rcases Nat.lt_or_eq_of_le reach with earlier | here
      · -- the statement itself would stand among those without its key
        have inside : a ∈ before := by
          have here := leads.here
          rw [parts, List.getElem?_append_left earlier] at here
          exact List.mem_of_getElem? here
        have missed := misses a inside
        simp at missed
      · rw [← here, leads.here] at place
        exact place.symm
  · rintro ⟨heads, found⟩
    obtain ⟨-, before, after, parts, misses⟩ := List.find?_eq_some_iff_append.mp found
    refine ⟨before.length, by simp [parts], ?_, ?_⟩
    · intro j b place
      exact heads.newest b (List.mem_of_getElem? place)
    · intro j b place owner sequence
      by_contra earlier
      have inside : b ∈ before := by
        rw [parts, List.getElem?_append_left (not_le.mp earlier)] at place
        exact List.mem_of_getElem? place
      have above := heads.least b (parts ▸ List.mem_append_left _ inside) owner sequence
      have below := (List.pairwise_append.mp (parts ▸ sorted)).2.2 b inside a List.mem_cons_self
      have missed := misses b inside
      simp [le_antisymm below above] at missed

theorem canonicalOrder_sorted (l : List WitnessAttestation) :
    (canonicalOrder l).Pairwise fun a b => a.sortKey ≤ b.sortKey :=
  KeySort.pairwise_insertionSort l

theorem canonicalOrder_perm (l : List WitnessAttestation) : (canonicalOrder l).Perm l :=
  List.perm_insertionSort _ l

theorem mem_canonicalOrder : a ∈ canonicalOrder l ↔ a ∈ l := (canonicalOrder_perm l).mem_iff

/-- Sorting keeps statements with one key in the order they arrived in. -/
theorem firstWith_canonicalOrder (l : List WitnessAttestation) (a : WitnessAttestation) :
    firstWith (canonicalOrder l) a = firstWith l a := by
  rw [firstWith, firstWith, ← List.head?_filter, ← List.head?_filter, canonicalOrder,
    KeySort.filter_insertionSort]

theorem mem_considered_canonical :
    a ∈ considered (canonicalOrder l) ↔
      a.witness.isEmpty = false ∧ Heads l a ∧ firstWith l a = some a := by
  rw [mem_considered, leadsAt_iff (canonicalOrder_sorted l), firstWith_canonicalOrder]
  refine and_congr_right fun _ => and_congr_left fun _ => ?_
  exact ⟨fun heads => heads.congr fun x => mem_canonicalOrder.symm,
    fun heads => heads.congr fun x => mem_canonicalOrder⟩

/-- Some statement heads every witness that has spoken. -/
theorem exists_heads (member : a ∈ l) : ∃ b, Heads l b ∧ b.witness = a.witness := by
  obtain ⟨i, b, leads, same⟩ := exists_leadsAt (mem_canonicalOrder.mpr member)
  exact ⟨b, (leads.heads (canonicalOrder_sorted l)).congr fun x => mem_canonicalOrder.symm, same⟩

end Order

section Counts

variable {request : EvidenceRequest} {profile : QuorumProfile} {bundle : EvidenceBundle}
  {floors : List WitnessFloor} {sorted : List WitnessAttestation}

theorem slot_of_known {w : WitnessId} (known : (profile.slotTable.find w).isSome = true) :
    (⟨w, profile.faultDomainOf w⟩ : WitnessSlot) ∈ profile.witnesses := by
  obtain ⟨slot, found⟩ := Option.isSome_iff_exists.mp known
  have row := SortedTable.find_eq_some.mp found
  have same : (⟨w, profile.faultDomainOf w⟩ : WitnessSlot) = slot := by
    rw [QuorumProfile.faultDomainOf, found, ← row.2]
    rfl
  rw [same]
  rcases SortedTable.mem_foldl_put row.1 with listed | fresh
  · exact listed
  · cases fresh

/-- A verdict touches nothing but the verdict. -/
theorem conclude_counts {α : Type} {t : Tally} (count : EvidenceAssessment → α)
    (untouched : ∀ out : EvidenceAssessment, ∀ state status outcome reason,
      count { out with state := state, status := status, outcome := outcome, reason := reason } =
        count out) (out : EvidenceAssessment) :
    count (conclude profile t out) = count out := by
  have judged : ∀ state outcome reason aux,
      count (out.judged state outcome reason aux) = count out :=
    fun state outcome reason aux => untouched out state _ outcome reason
  unfold conclude
  split
  · exact judged _ _ _ _
  split
  · exact judged _ _ _ _
  split
  · exact judged _ _ _ _
  split
  · split
    · exact judged _ _ _ _
    · exact judged _ _ _ _
  split
  · exact judged _ _ _ _
  split
  · exact judged _ _ _ _
  split
  · exact judged _ _ _ _
  · exact untouched out _ _ _ _

variable (request profile bundle) in
/-- Neither the verdict nor the lease touches what was counted. -/
theorem verdictOn_counts {α : Type} (t : Tally) (count : EvidenceAssessment → α)
    (untouched : ∀ out : EvidenceAssessment, ∀ state status outcome reason lease expiry present,
      count { out with
        state := state, status := status, outcome := outcome, reason := reason
        leaseValidUntil := lease, earliestValidUntil := expiry, leasePresent := present } =
      count out) :
    count (verdictOn request profile bundle t) = count (countedFrom profile t) := by
  have concluded : ∀ out : EvidenceAssessment, count (conclude profile t out) = count out :=
    conclude_counts count fun out state status outcome reason =>
      untouched out state status outcome reason _ _ _
  unfold verdictOn
  split
  · split
    · exact untouched (countedFrom profile t) _ _ _ _ _ _ _
    · rw [concluded]
      exact untouched (countedFrom profile t) _ _ _ _ _ _ _
  · exact concluded _

variable (request floors sorted) in
/-- The number of supporting witnesses of a bundle whose statements are looked at. -/
theorem supporting_weighed (weighed : Weighed profile bundle) :
    (assessInOrder request profile bundle floors sorted).distinctSupportingWitnesses =
      UInt32.ofNat ((considered sorted).countP (backs request profile floors)) := by
  have untouched := verdictOn_counts request profile bundle
    (tallyOf request profile floors sorted)
    (·.distinctSupportingWitnesses) fun _ _ _ _ _ _ _ _ => rfl
  rw [assess_weighed _ _ _ weighed, untouched]
  simp only [countedFrom]
  rw [tallyOf_eq, tallied_supporting (considered_nodup _)]

variable (request floors sorted) in
theorem supporting_unweighed (unweighed : ¬ Weighed profile bundle) :
    (assessInOrder request profile bundle floors sorted).distinctSupportingWitnesses = 0 := by
  unfold assessInOrder
  cases valid : profile.validate with
  | error st => rfl
  | ok u =>
    simp only
    by_cases policy : bundle.policy.isEmpty = true ∨ bundle.policy ≠ profile.policy
    · rw [if_pos policy]
      rfl
    rw [if_neg policy]
    by_cases generation : bundle.policyGeneration = profile.generation
    · rw [if_neg (not_not.mpr generation)]
      by_cases large : Limits.maxAttestationsPerBundle < bundle.attestations.length
      · rw [if_pos large]
        rfl
      · obtain ⟨named, kept⟩ := not_or.mp policy
        exact absurd ⟨valid, Bool.not_eq_true _ ▸ named, not_not.mp kept, generation,
          not_lt.mp large⟩ unweighed
    · rw [if_pos generation]
      rfl

theorem Weighed.with_attestations {l : List WitnessAttestation} (weighed : Weighed profile bundle)
    (bounded : l.length ≤ Limits.maxAttestationsPerBundle) :
    Weighed profile { bundle with attestations := l } :=
  ⟨weighed.valid, weighed.named, weighed.policy, weighed.generation, bounded⟩

end Counts

end SplitBrainFabric
