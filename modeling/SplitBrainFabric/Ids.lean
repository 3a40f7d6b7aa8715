import SplitBrainFabric.Status

/-! Identifiers drawn from a restricted alphabet, and the 64-bit counters. Zero is
the absent value of every counter. -/

namespace SplitBrainFabric
open Words

abbrev Epoch := UInt64
abbrev IncarnationId := UInt64
abbrev FenceToken := UInt64
abbrev Step := UInt64
abbrev Sequence := UInt64
abbrev Generation := UInt64
abbrev BootId := UInt64
abbrev SessionId := UInt64
abbrev RequestId := UInt64
abbrev LeaseId := UInt64
abbrev GrantId := UInt64

/-- `Counter::try_increment` by one, for callers that ignore a refused increment. -/
def tryIncrement (v : UInt64) : UInt64 := if v = maxWord then v else v + 1

theorem le_tryIncrement (a : UInt64) : a ≤ tryIncrement a := by
  unfold tryIncrement
  split
  · exact le_rfl
  · rename_i room
    exact le_of_lt (lt_succ room)

theorem tryIncrement_mono {a b : UInt64} (below : a ≤ b) : tryIncrement a ≤ tryIncrement b := by
  by_cases full : b = maxWord
  · subst full
    exact le_maxWord _
  · have room : a ≠ maxWord := fun top => full (le_antisymm (le_maxWord b) (top ▸ below))
    rw [tryIncrement, tryIncrement, if_neg room, if_neg full, UInt64.le_iff_toNat_le,
      toNat_succ room, toNat_succ full]
    exact Nat.succ_le_succ (UInt64.le_iff_toNat_le.mp below)

inductive IdTag where
  | domain | extent | witness | store | policy | claim | node | faultDomain
  deriving DecidableEq

def idByteOk (c : UInt8) : Bool :=
  (97 ≤ c && c ≤ 122) || (65 ≤ c && c ≤ 90) || (48 ≤ c && c ≤ 57) ||
    c == 46 || c == 95 || c == 58 || c == 45

def idCharsetOk (value : Bytes) : Bool := value.all idByteOk

def validateId (value : Bytes) : Status :=
  if value = [] then .make .invalid .emptyValue
  else if Limits.maxIdLength < value.length then
    .make .invalid .idTooLong (UInt64.ofNat value.length)
  else if idCharsetOk value = false then .make .invalid .idCharset (UInt64.ofNat value.length)
  else .ok

/-- A validated identifier, or the empty one that every use site rejects. -/
structure Id (tag : IdTag) where
  value : Bytes
  valid : value = [] ∨ (validateId value).isOk = true

namespace Id

variable {tag : IdTag}

def empty : Id tag := ⟨[], .inl rfl⟩

instance : Inhabited (Id tag) := ⟨empty⟩

def isEmpty (id : Id tag) : Bool := id.value.isEmpty

def tryMake (value : Bytes) : Option (Id tag) :=
  if h : (validateId value).isOk = true then some ⟨value, .inr h⟩ else none

def make (value : Bytes) : Id tag := (tryMake value).getD empty

@[ext] theorem ext {a b : Id tag} (value : a.value = b.value) : a = b := by
  cases a; cases b; cases value; rfl

theorem value_injective : Function.Injective (value : Id tag → Bytes) := fun _ _ same => ext same

instance : LinearOrder (Id tag) := LinearOrder.lift' value value_injective

theorem isEmpty_iff {id : Id tag} : id.isEmpty = true ↔ id = empty := by
  rw [isEmpty, List.isEmpty_iff]
  constructor
  · exact fun h => ext h
  · rintro rfl; rfl

@[simp] theorem empty_isEmpty : (empty : Id tag).isEmpty = true := rfl

theorem value_ne_nil {id : Id tag} (named : id.isEmpty = false) : id.value ≠ [] := by
  intro h
  simp [isEmpty, h] at named

theorem validate_length {value : Bytes} (valid : (validateId value).isOk = true) :
    value ≠ [] ∧ value.length ≤ Limits.maxIdLength := by
  unfold validateId at valid
  split at valid
  · cases valid
  · split at valid
    · cases valid
    · exact ⟨by assumption, by omega⟩

theorem length_le (id : Id tag) : id.value.length ≤ 64 := by
  rcases id.valid with h | h
  · simp [h]
  · exact (validate_length h).2

theorem tryMake_value {id : Id tag} (named : id.isEmpty = false) :
    tryMake id.value = some id := by
  rcases id.valid with h | h
  · exact absurd h (value_ne_nil named)
  · rw [tryMake, dif_pos h]

@[simp] theorem tryMake_nil : (tryMake [] : Option (Id tag)) = none := rfl

theorem tryMake_isEmpty {value : Bytes} {id : Id tag} (made : tryMake value = some id) :
    id.isEmpty = false := by
  unfold tryMake at made
  split at made
  · rename_i valid
    cases made
    simpa [isEmpty] using (validate_length valid).1
  · cases made

theorem tryMake_text {value : Bytes} {id : Id tag} (made : tryMake value = some id) :
    id.value = value := by
  unfold tryMake at made
  split at made
  · cases made
    rfl
  · cases made

end Id

abbrev DomainId := Id .domain
abbrev ExtentId := Id .extent
abbrev WitnessId := Id .witness
abbrev StoreId := Id .store
abbrev PolicyId := Id .policy
abbrev ClaimId := Id .claim
abbrev NodeId := Id .node
abbrev FaultDomainId := Id .faultDomain

end SplitBrainFabric
