import SplitBrainFabric.Evidence
import SplitBrainFabric.Library.KeySort

/-! Which statement of a witness counts, and what the assessment makes of those that do:
every other statement of the witness only adds to the counters of repetitions. -/

namespace SplitBrainFabric
open Words

/-- The first statement of its witness with the highest sequence, and its place. -/
structure LeadsAt (statements : List WitnessAttestation) (i : Nat) (a : WitnessAttestation) :
    Prop where
  here : statements[i]? = some a
  newest : ∀ (j : Nat) (b : WitnessAttestation), statements[j]? = some b →
    b.witness = a.witness → b.witnessSequence ≤ a.witnessSequence
  first : ∀ (j : Nat) (b : WitnessAttestation), statements[j]? = some b →
    b.witness = a.witness → b.witnessSequence = a.witnessSequence → i ≤ j

section Leading

variable {l : List WitnessAttestation} {a b : WitnessAttestation} {i j : Nat}

theorem getElem?_concat {α : Type} {l : List α} {x y : α} {j : Nat}
    (found : (l ++ [y])[j]? = some x) : l[j]? = some x ∨ j = l.length ∧ x = y := by
  by_cases inside : j < l.length
  · rw [List.getElem?_append_left inside] at found
    exact .inl found
  · rw [List.getElem?_append_right (not_lt.mp inside)] at found
    have zero : j - l.length = 0 := by
      by_contra later
      rw [List.getElem?_eq_none (by simp only [List.length_singleton]; omega)] at found
      cases found
    rw [zero] at found
    cases found
    exact .inr ⟨by omega, rfl⟩

theorem LeadsAt.mem (leads : LeadsAt l i a) : a ∈ l := List.mem_of_getElem? leads.here

theorem LeadsAt.lt (leads : LeadsAt l i a) : i < l.length :=
  (List.getElem?_eq_some_iff.mp leads.here).1

theorem LeadsAt.unique (leads : LeadsAt l i a) (leads' : LeadsAt l j b)
    (same : a.witness = b.witness) : i = j ∧ a = b := by
  have sequence : a.witnessSequence = b.witnessSequence :=
    le_antisymm (leads'.newest i a leads.here same) (leads.newest j b leads'.here same.symm)
  have place : i = j := le_antisymm (leads.first j b leads'.here same.symm sequence.symm)
    (leads'.first i a leads.here same sequence)
  subst place
  exact ⟨rfl, Option.some.inj (leads.here.symm.trans leads'.here)⟩

/-- A later statement that is not newer does not take the lead. -/
theorem LeadsAt.concat (leads : LeadsAt l i a)
    (older : b.witness = a.witness → b.witnessSequence ≤ a.witnessSequence) :
    LeadsAt (l ++ [b]) i a where
  here := by rw [List.getElem?_append_left leads.lt]; exact leads.here
  newest := fun j x found same => by
    rcases getElem?_concat found with before | ⟨-, rfl⟩
    · exact leads.newest j x before same
    · exact older same
  first := fun j x found same sequence => by
    rcases getElem?_concat found with before | ⟨rfl, -⟩
    · exact leads.first j x before same sequence
    · exact le_of_lt leads.lt

theorem leadsAt_last (newer : ∀ b ∈ l, b.witness = a.witness →
    b.witnessSequence < a.witnessSequence) : LeadsAt (l ++ [a]) l.length a where
  here := by rw [List.getElem?_append_right le_rfl, Nat.sub_self]; rfl
  newest := fun j x found same => by
    rcases getElem?_concat found with before | ⟨-, rfl⟩
    · exact le_of_lt (newer x (List.mem_of_getElem? before) same)
    · exact le_rfl
  first := fun j x found same sequence => by
    rcases getElem?_concat found with before | ⟨rfl, -⟩
    · have less := newer x (List.mem_of_getElem? before) same
      exact absurd less (not_lt.mpr (le_of_eq sequence.symm))
    · exact le_rfl

/-- What the table of latest statements says about a witness. -/
def LatestReads (l : List WitnessAttestation) (w : WitnessId) : Option LatestEntry → Prop
  | none => ∀ a ∈ l, a.witness ≠ w
  | some entry => ∃ a, LeadsAt l entry.index a ∧ a.witness = w ∧ entry.sequence = a.witnessSequence

theorem latestIndex_concat (l : List WitnessAttestation) (a : WitnessAttestation) :
    latestIndex (l ++ [a]) = match (latestIndex l).find a.witness with
      | none => (latestIndex l).put ⟨a.witness, l.length, a.witnessSequence⟩
      | some entry =>
        if entry.sequence < a.witnessSequence then
          (latestIndex l).put ⟨a.witness, l.length, a.witnessSequence⟩
        else latestIndex l := by
  have indexed : (l ++ [a]).zipIdx = l.zipIdx ++ [(a, l.length)] := by simp [List.zipIdx_append]
  exact (congrArg (List.foldl _ _) indexed).trans List.foldl_append

theorem latestIndex_reads (l : List WitnessAttestation) (w : WitnessId) :
    LatestReads l w ((latestIndex l).find w) := by
  induction l using List.reverseRecOn with
  | nil => exact fun a member => absurd member List.not_mem_nil
  | append_singleton l a ih =>
    rw [latestIndex_concat]
    by_cases mine : a.witness = w
    · subst mine
      cases found : (latestIndex l).find a.witness with
      | none =>
        rw [found] at ih
        simp only [SortedTable.find_put, if_true]
        refine ⟨a, leadsAt_last fun b member same => absurd same (ih b member), rfl, rfl⟩
      | some entry =>
        rw [found] at ih
        obtain ⟨b, leads, same, sequence⟩ := ih
        by_cases newer : entry.sequence < a.witnessSequence
        · simp only [if_pos newer, SortedTable.find_put, if_true]
          refine ⟨a, leadsAt_last fun c member owner => ?_, rfl, rfl⟩
          obtain ⟨j, place⟩ := List.mem_iff_getElem?.mp member
          have below := leads.newest j c place (owner.trans same.symm)
          exact lt_of_le_of_lt (sequence ▸ below) newer
        · simp only [if_neg newer, found]
          refine ⟨b, leads.concat fun _ => ?_, same, sequence⟩
          exact sequence ▸ not_lt.mp newer
    · -- a statement of somebody else changes nothing for this witness
      have other : ∀ table : LatestTable,
          (table.put ⟨a.witness, l.length, a.witnessSequence⟩).find w = table.find w :=
        fun table => SortedTable.find_put_ne table mine
      have kept : (match (latestIndex l).find a.witness with
          | none => (latestIndex l).put ⟨a.witness, l.length, a.witnessSequence⟩
          | some entry =>
            if entry.sequence < a.witnessSequence then
              (latestIndex l).put ⟨a.witness, l.length, a.witnessSequence⟩
            else latestIndex l).find w = (latestIndex l).find w := by
        split
        · exact other _
        · split
          · exact other _
          · rfl
      rw [kept]
      cases found : (latestIndex l).find w with
      | none =>
        rw [found] at ih
        intro b member
        rcases List.mem_append.mp member with inside | last
        · exact ih b inside
        · exact List.mem_singleton.mp last ▸ mine
      | some entry =>
        rw [found] at ih
        obtain ⟨b, leads, same, sequence⟩ := ih
        exact ⟨b, leads.concat fun owner => absurd (owner.trans same) mine, same, sequence⟩

/-- A statement counts when the table points at its place. -/
theorem superseded_iff (here : l[i]? = some a) :
    ((latestIndex l).find a.witness).any (fun entry => decide (entry.index ≠ i)) = false ↔
      LeadsAt l i a := by
  have reads := latestIndex_reads l a.witness
  cases found : (latestIndex l).find a.witness with
  | none =>
    rw [found] at reads
    exact absurd rfl (reads a (List.mem_of_getElem? here))
  | some entry =>
    rw [found] at reads
    obtain ⟨b, leads, same, -⟩ := reads
    simp only [Option.any_some, decide_eq_false_iff_not, not_not]
    constructor
    · rintro rfl
      exact Option.some.inj (leads.here.symm.trans here) ▸ leads
    · exact fun mine => (leads.unique mine same).1

theorem exists_leadsAt (member : a ∈ l) : ∃ i b, LeadsAt l i b ∧ b.witness = a.witness := by
  have reads := latestIndex_reads l a.witness
  cases found : (latestIndex l).find a.witness with
  | none =>
    rw [found] at reads
    exact absurd rfl (reads a member)
  | some entry =>
    rw [found] at reads
    obtain ⟨b, leads, same, -⟩ := reads
    exact ⟨entry.index, b, leads, same⟩

end Leading

/-- The statements that count, one for each named witness. -/
def considered (statements : List WitnessAttestation) : List WitnessAttestation :=
  (statements.zipIdx.filter fun p => !p.1.witness.isEmpty &&
    !((latestIndex statements).find p.1.witness).any (fun entry => decide (entry.index ≠ p.2))).map
      (·.1)

section Considered

variable {l : List WitnessAttestation} {a : WitnessAttestation}

theorem mem_considered :
    a ∈ considered l ↔ a.witness.isEmpty = false ∧ ∃ i, LeadsAt l i a := by
  simp only [considered, List.mem_map, List.mem_filter, Prod.exists, Bool.and_eq_true,
    Bool.not_eq_true', List.mem_zipIdx_iff_getElem?]
  constructor
  · rintro ⟨b, i, ⟨here, named, latest⟩, rfl⟩
    exact ⟨named, i, (superseded_iff here).mp latest⟩
  · rintro ⟨named, i, leads⟩
    exact ⟨a, i, ⟨leads.here, named, (superseded_iff leads.here).mpr leads⟩, rfl⟩

theorem considered_nodup (l : List WitnessAttestation) :
    ((considered l).map (·.witness)).Nodup := by
  have places : l.zipIdx.Pairwise fun p q => p.2 < q.2 := by
    rw [← List.pairwise_map (f := Prod.snd), List.zipIdx_map_snd]
    exact List.pairwise_lt_range'
  rw [considered, List.map_map, List.Nodup, List.pairwise_map]
  refine (places.filter _).imp_of_mem fun {p q} member member' less same => ?_
  simp only [List.mem_filter, Bool.and_eq_true, Bool.not_eq_true', List.mem_zipIdx_iff_getElem?]
    at member member'
  have leads := (superseded_iff member.1).mp member.2.2
  have leads' := (superseded_iff member'.1).mp member'.2.2
  exact absurd (leads.unique leads' same).1 (ne_of_lt less)

theorem exists_considered (member : a ∈ l) (named : a.witness.isEmpty = false) :
    ∃ b ∈ considered l, b.witness = a.witness := by
  obtain ⟨i, b, leads, same⟩ := exists_leadsAt member
  exact ⟨b, mem_considered.mpr ⟨same ▸ named, i, leads⟩, same⟩

theorem considered_subset (member : a ∈ considered l) : a ∈ l := by
  obtain ⟨-, i, leads⟩ := mem_considered.mp member
  exact leads.mem

end Considered

/-- The fault domain the assessor keeps for each witness of the profile. -/
def QuorumProfile.slotTable (p : QuorumProfile) : SlotTable :=
  p.witnesses.foldl SortedTable.put SortedTable.empty

def QuorumProfile.faultDomainOf (p : QuorumProfile) (w : WitnessId) : FaultDomainId :=
  ((p.slotTable.find w).map (·.faultDomain)).getD Id.empty

def floorTable (floors : List WitnessFloor) : FloorTable :=
  floors.foldl SortedTable.put SortedTable.empty

namespace Filing

def isHeard : Filing → Bool
  | .heard _ => true
  | _ => false

def isSuperseded : Filing → Bool
  | .superseded => true
  | _ => false

@[simp] theorem isSuperseded_superseded : superseded.isSuperseded = true := rfl

@[simp] theorem isSuperseded_invalid : invalid.isSuperseded = false := rfl

theorem ite_eq_false {f : Filing → Bool} {c : Prop} [Decidable c] {x y : Filing}
    (left : f x = false) (right : f y = false) : f (if c then x else y) = false := by
  split
  · exact left
  · exact right

def isInvalid : Filing → Bool
  | .invalid => true
  | _ => false

def isMismatched : Filing → Bool
  | .mismatched => true
  | _ => false

def isBelowFloor : Filing → Bool
  | .belowFloor => true
  | _ => false

/-- A statement below its floor is stale as well. -/
def isStale : Filing → Bool
  | .stale | .belowFloor => true
  | _ => false

def isUnknown : Filing → Bool
  | .unknown => true
  | _ => false

end Filing

/-- How a statement that counts is filed, whatever its place in the bundle. -/
def appraised (request : EvidenceRequest) (profile : QuorumProfile) (floors : List WitnessFloor)
    (a : WitnessAttestation) : Filing :=
  match profile.slotTable.find a.witness with
  | none => .unknown
  | some slot =>
    if ((floorTable floors).find a.witness).any (a.witnessSequence ≤ ·.sequence) then .belowFloor
    else if a.subjectScope ≠ request.scope then .invalid
    else if a.subjectDomain ≠ request.domain then .invalid
    else if a.epoch ≠ request.epoch then .stale
    else if a.incarnation ≠ request.incarnation then .invalid
    else if a.fenceToken ≠ request.fenceToken then .stale
    else if a.policyGeneration ≠ profile.generation then .mismatched
    else if a.witnessGeneration = 0 then .invalid
    else if a.validUntil < request.asOf then .stale
    else if request.asOf < a.issuedAt then .unknown
    else .heard slot.faultDomain

/-- Everything asked of one statement before it is heard. -/
structure Qualifies (request : EvidenceRequest) (profile : QuorumProfile)
    (floors : List WitnessFloor) (a : WitnessAttestation) : Prop where
  known : (profile.slotTable.find a.witness).isSome = true
  fresh : ∀ floor, (floorTable floors).find a.witness = some floor →
    floor.sequence < a.witnessSequence
  speaks : Speaks request a
  generation : a.policyGeneration = profile.generation
  set : a.witnessGeneration ≠ 0
  issued : a.issuedAt ≤ request.asOf
  unexpired : request.asOf ≤ a.validUntil

section Appraised

variable {request : EvidenceRequest} {profile : QuorumProfile} {floors : List WitnessFloor}
  {a : WitnessAttestation}

theorem fileStatement_eq (latest : LatestTable) (index : Nat) :
    fileStatement request profile (floorTable floors) profile.slotTable latest a index =
      if a.witness.isEmpty then .invalid
      else if (latest.find a.witness).any (fun entry => decide (entry.index ≠ index)) then
        .superseded
      else appraised request profile floors a := rfl

variable (request profile floors a) in
theorem appraised_isSuperseded : (appraised request profile floors a).isSuperseded = false := by
  unfold appraised
  split
  · rfl
  · repeat apply Filing.ite_eq_false rfl
    rfl

variable (request profile floors a) in
theorem appraised_isBelowFloor : (appraised request profile floors a).isBelowFloor =
    ((profile.slotTable.find a.witness).isSome &&
      ((floorTable floors).find a.witness).any (a.witnessSequence ≤ ·.sequence)) := by
  unfold appraised
  cases profile.slotTable.find a.witness with
  | none => rfl
  | some slot =>
    simp only [Option.isSome_some, Bool.true_and]
    split
    · rename_i low
      exact low.symm
    · rename_i above
      rw [Bool.eq_false_iff.mpr above]
      repeat apply Filing.ite_eq_false rfl
      rfl

theorem appraised_of_qualifies (qualifies : Qualifies request profile floors a) :
    appraised request profile floors a = .heard (profile.faultDomainOf a.witness) := by
  unfold appraised QuorumProfile.faultDomainOf
  cases found : profile.slotTable.find a.witness with
  | none =>
    have known := qualifies.known
    rw [found] at known
    cases known
  | some slot =>
    have above :
        ¬ ((floorTable floors).find a.witness).any (a.witnessSequence ≤ ·.sequence) = true := by
      cases listed : (floorTable floors).find a.witness with
      | none => simp
      | some floor => simpa using qualifies.fresh floor listed
    simp only
    rw [if_neg above, if_neg (not_not.mpr qualifies.speaks.scope),
      if_neg (not_not.mpr qualifies.speaks.domain), if_neg (not_not.mpr qualifies.speaks.epoch),
      if_neg (not_not.mpr qualifies.speaks.incarnation),
      if_neg (not_not.mpr qualifies.speaks.token), if_neg (not_not.mpr qualifies.generation),
      if_neg qualifies.set, if_neg (not_lt.mpr qualifies.unexpired),
      if_neg (not_lt.mpr qualifies.issued)]
    rfl

theorem else_of_heard {c : Prop} [Decidable c] {x y : Filing}
    (heard : (if c then x else y).isHeard = true) (spoiled : x.isHeard = false) :
    ¬ c ∧ y.isHeard = true := by
  by_cases h : c
  · rw [if_pos h, spoiled] at heard
    cases heard
  · rw [if_neg h] at heard
    exact ⟨h, heard⟩

theorem qualifies_of_heard (heard : (appraised request profile floors a).isHeard = true) :
    Qualifies request profile floors a := by
  unfold appraised at heard
  cases found : profile.slotTable.find a.witness with
  | none => rw [found] at heard; cases heard
  | some slot =>
    rw [found] at heard
    obtain ⟨above, heard⟩ := else_of_heard heard rfl
    obtain ⟨scope, heard⟩ := else_of_heard heard rfl
    obtain ⟨domain, heard⟩ := else_of_heard heard rfl
    obtain ⟨epoch, heard⟩ := else_of_heard heard rfl
    obtain ⟨incarnation, heard⟩ := else_of_heard heard rfl
    obtain ⟨token, heard⟩ := else_of_heard heard rfl
    obtain ⟨generation, heard⟩ := else_of_heard heard rfl
    obtain ⟨set, heard⟩ := else_of_heard heard rfl
    obtain ⟨unexpired, heard⟩ := else_of_heard heard rfl
    obtain ⟨issued, -⟩ := else_of_heard heard rfl
    exact {
      known := by rw [found]; rfl
      fresh := fun floor listed => by
        by_contra low
        exact above (by simp only [listed, Option.any_some, decide_eq_true_eq]; exact not_lt.mp low)
      speaks := ⟨not_not.mp scope, not_not.mp domain, not_not.mp epoch, not_not.mp incarnation,
        not_not.mp token⟩
      generation := not_not.mp generation
      set := set
      issued := not_lt.mp issued
      unexpired := not_lt.mp unexpired }

theorem heard_iff :
    (appraised request profile floors a).isHeard = true ↔ Qualifies request profile floors a := by
  refine ⟨qualifies_of_heard, fun qualifies => ?_⟩
  rw [appraised_of_qualifies qualifies]
  rfl

end Appraised

end SplitBrainFabric
