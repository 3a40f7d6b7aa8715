import SplitBrainFabric.Library.Numeral
import SplitBrainFabric.Operations
import SplitBrainFabric.ScopeAlgebra

/-! The claim names the registry gives its grants: always valid identifiers, and exactly
which two grants share one. -/

namespace SplitBrainFabric
open Words

/-- The number a string of hex digits stands for. -/
def hexValue (l : Bytes) : Nat := Numeral.value 16 (l.map fun c => (Digest256.unhex c).toNat)

theorem hexDigit_spec (n : Nat) :
    (Digest256.unhex (Digest256.hexDigit (UInt8.ofNat (n % 16)))).toNat = n % 16 ∧
      idByteOk (Digest256.hexDigit (UInt8.ofNat (n % 16))) = true ∧
      Digest256.hexDigit (UInt8.ofNat (n % 16)) ≠ 45 := by
  have all : ∀ d : Fin 16, (Digest256.unhex (Digest256.hexDigit (UInt8.ofNat d))).toNat = d ∧
      idByteOk (Digest256.hexDigit (UInt8.ofNat d)) = true ∧
      Digest256.hexDigit (UInt8.ofNat d) ≠ 45 := by decide +kernel
  exact all ⟨n % 16, Nat.mod_lt n (by decide)⟩

/-- The sixteen digits before the zeros in front are dropped. -/
def hexPadded (value : UInt64) : Bytes := (List.range 16).map fun i =>
  Digest256.hexDigit (UInt8.ofNat (value.toNat / 16 ^ (15 - i) % 16))

/-- Zero keeps one digit. -/
theorem hexDigits_eq (value : UInt64) :
    hexDigits value = [48] ∧ (hexPadded value).dropWhile (· = 48) = [] ∨
      hexDigits value = (hexPadded value).dropWhile (· = 48) ∧ hexDigits value ≠ [] := by
  cases listed : (hexPadded value).dropWhile (· = 48) with
  | nil =>
    left
    unfold hexPadded at listed
    simp only [hexDigits, listed, and_self]
  | cons c rest =>
    right
    unfold hexPadded at listed
    simp [hexDigits, listed]

theorem hexValue_padded (value : UInt64) : hexValue (hexPadded value) = value.toNat := by
  have read : (hexPadded value).map (fun c => (Digest256.unhex c).toNat) =
      Numeral.digits 16 16 value.toNat := by
    rw [hexPadded, List.map_map]
    exact List.map_congr_left fun i _ => (hexDigit_spec _).1
  rw [hexValue, read, Numeral.value_digits]
  exact Nat.mod_eq_of_lt value.toNat_lt

theorem hexValue_dropWhile (l : Bytes) : hexValue (l.dropWhile (· = 48)) = hexValue l := by
  induction l with
  | nil => rfl
  | cons c rest ih =>
    by_cases zero : c = 48
    · subst zero
      exact ih.trans (Numeral.value_zero_cons _).symm
    · rw [List.dropWhile_cons_of_neg (by simpa using zero)]

theorem hexValue_hexDigits (value : UInt64) : hexValue (hexDigits value) = value.toNat := by
  rcases hexDigits_eq value with ⟨shown, none⟩ | ⟨shown, -⟩
  · have zero := hexValue_dropWhile (hexPadded value)
    rw [none, hexValue_padded] at zero
    rw [shown, ← zero]
    rfl
  · rw [shown, hexValue_dropWhile, hexValue_padded]

theorem hexDigits_injective : Function.Injective hexDigits := by
  intro a b same
  have values := congrArg hexValue same
  rw [hexValue_hexDigits, hexValue_hexDigits] at values
  exact UInt64.toNat_inj.mp values

theorem of_mem_hexDigits {value : UInt64} {c : UInt8} (member : c ∈ hexDigits value) :
    idByteOk c = true ∧ c ≠ 45 := by
  rcases hexDigits_eq value with ⟨shown, -⟩ | ⟨shown, -⟩
  · rw [shown, List.mem_singleton] at member
    subst member
    decide
  · rw [shown] at member
    obtain ⟨i, -, rfl⟩ := List.mem_map.mp ((List.dropWhile_sublist _).mem member)
    exact (hexDigit_spec _).2

theorem hyphen_not_mem_hexDigits (value : UInt64) : (45 : UInt8) ∉ hexDigits value :=
  fun member => (of_mem_hexDigits member).2 rfl

theorem hexDigits_length (value : UInt64) :
    hexDigits value ≠ [] ∧ (hexDigits value).length ≤ 16 := by
  rcases hexDigits_eq value with ⟨shown, -⟩ | ⟨shown, filled⟩
  · rw [shown]
    decide
  · refine ⟨filled, ?_⟩
    have padded : (hexPadded value).length = 16 := by rw [hexPadded, List.length_map,
      List.length_range]
    rw [shown, ← padded]
    exact (List.dropWhile_sublist _).length_le

namespace Id

theorem make_value {tag : IdTag} {value : Bytes} (valid : (validateId value).isOk = true) :
    (make value : Id tag).value = value := by
  rw [make, tryMake, dif_pos valid]
  rfl

end Id

namespace EpochGrant

variable {g h : EpochGrant}

/-- What follows `claim-` before the cut; 58 bytes of it are kept. -/
def claimTail (g : EpochGrant) : Bytes := g.domain.value ++ 45 :: hexDigits g.id

theorem claimIdForGrant_eq (g : EpochGrant) :
    claimIdForGrant g = [99, 108, 97, 105, 109, 45] ++ g.claimTail.take 58 := by
  have whole : [99, 108, 97, 105, 109, 45] ++ g.domain.value ++ [45] ++ hexDigits g.id =
      [99, 108, 97, 105, 109, 45] ++ g.claimTail := by simp [claimTail]
  rw [claimIdForGrant, whole]
  rfl

theorem claimIdForGrant_valid (g : EpochGrant) : (validateId (claimIdForGrant g)).isOk = true := by
  have listed := claimIdForGrant_eq g
  have filled : claimIdForGrant g ≠ [] := by
    rw [listed]
    exact List.cons_ne_nil _ _
  have short : ¬ Limits.maxIdLength < (claimIdForGrant g).length := by
    rw [claimIdForGrant, List.length_take]
    omega
  have word : idCharsetOk [99, 108, 97, 105, 109, 45] = true := by decide
  have charset : idCharsetOk (claimIdForGrant g) = true := by
    rw [idCharsetOk, List.all_eq_true, listed]
    intro c member
    rcases List.mem_append.mp member with front | back
    · exact List.all_eq_true.mp word c front
    · rcases List.mem_append.mp (List.mem_of_mem_take back) with inDomain | inId
      · exact Id.idByteOk_of_mem inDomain
      · rcases List.mem_cons.mp inId with rfl | digit
        · decide
        · exact (of_mem_hexDigits digit).1
  rw [validateId, if_neg filled, if_neg short, charset, if_neg (by decide)]
  rfl

theorem claim_eq_iff : (Id.make (claimIdForGrant g) : ClaimId) = Id.make (claimIdForGrant h) ↔
    g.claimTail.take 58 = h.claimTail.take 58 := by
  constructor
  · intro same
    have values := congrArg Id.value same
    rw [Id.make_value (claimIdForGrant_valid g), Id.make_value (claimIdForGrant_valid h),
      claimIdForGrant_eq, claimIdForGrant_eq] at values
    exact List.append_cancel_left values
  · intro same
    rw [claimIdForGrant_eq, claimIdForGrant_eq, same]

/-- A domain that fills the name leaves nothing of the id. -/
theorem claimTail_long (long : 57 < g.domain.value.length) :
    g.claimTail.take 58 = g.domain.value.take 58 := List.take_append_of_le_length long

theorem claimTail_short (short : g.domain.value.length ≤ 57) :
    g.claimTail.take 58 =
      g.domain.value ++ 45 :: (hexDigits g.id).take (57 - g.domain.value.length) := by
  have room : 58 - g.domain.value.length = 57 - g.domain.value.length + 1 := by omega
  rw [claimTail, List.take_append, List.take_of_length_le (by omega), room, List.take_succ_cons]

/-- A text without the separator ends where the last separator stands. -/
theorem append_separator_inj {separator : UInt8} {d d' t t' : Bytes} (clean : separator ∉ t)
    (clean' : separator ∉ t') (same : d ++ separator :: t = d' ++ separator :: t') :
    d = d' ∧ t = t' := by
  rcases List.append_eq_append_iff.mp same with ⟨more, longer, rest⟩ | ⟨more, longer, rest⟩
  · cases more with
    | nil =>
      rw [List.nil_append, List.cons.injEq] at rest
      exact ⟨by rw [longer, List.append_nil], rest.2⟩
    | cons c more =>
      rw [List.cons_append, List.cons.injEq] at rest
      exact absurd (rest.2 ▸ List.mem_append_right more List.mem_cons_self) clean
  · cases more with
    | nil =>
      rw [List.nil_append, List.cons.injEq] at rest
      exact ⟨by rw [longer, List.append_nil], rest.2.symm⟩
    | cons c more =>
      rw [List.cons_append, List.cons.injEq] at rest
      exact absurd (rest.2 ▸ List.mem_append_right more List.mem_cons_self) clean'

/-- The domain of `h` begins as the whole name of `g` does. -/
structure SpeltBy (g h : EpochGrant) : Prop where
  short : g.domain.value.length ≤ 57
  long : 57 < h.domain.value.length
  spelt : h.domain.value.take 58 =
    g.domain.value ++ 45 :: (hexDigits g.id).take (57 - g.domain.value.length)

/-- The cut names of two grants with different ids are one name. -/
inductive Confused (g h : EpochGrant) : Prop
  | domains (long : 57 < g.domain.value.length) (long' : 57 < h.domain.value.length)
      (same : g.domain.value.take 58 = h.domain.value.take 58)
  | digits (domain : g.domain = h.domain) (short : g.domain.value.length ≤ 57)
      (same : (hexDigits g.id).take (57 - g.domain.value.length) =
        (hexDigits h.id).take (57 - g.domain.value.length))
  | left (spelt : g.SpeltBy h)
  | right (spelt : h.SpeltBy g)

theorem claimTail_eq_iff : g.claimTail.take 58 = h.claimTail.take 58 ↔ Confused g h := by
  constructor
  · intro same
    by_cases long : 57 < g.domain.value.length
    · by_cases long' : 57 < h.domain.value.length
      · exact .domains long long' (claimTail_long long ▸ claimTail_long long' ▸ same)
      · have short' := Nat.not_lt.mp long'
        exact .right ⟨short', long, claimTail_long long ▸ claimTail_short short' ▸ same⟩
    · have short := Nat.not_lt.mp long
      by_cases long' : 57 < h.domain.value.length
      · exact .left ⟨short, long', (claimTail_short short ▸ claimTail_long long' ▸ same).symm⟩
      · rw [claimTail_short short, claimTail_short (Nat.not_lt.mp long')] at same
        have clean : ∀ (value : UInt64) (k : Nat), (45 : UInt8) ∉ (hexDigits value).take k :=
          fun value k member => hyphen_not_mem_hexDigits value (List.mem_of_mem_take member)
        obtain ⟨domains, shown⟩ := append_separator_inj (clean _ _) (clean _ _) same
        have domain : g.domain = h.domain := Id.ext domains
        exact .digits domain short (domain ▸ shown)
  · rintro (⟨long, long', same⟩ | ⟨domain, short, same⟩ | ⟨short, long, spelt⟩ |
      ⟨short, long, spelt⟩)
    · rw [claimTail_long long, claimTail_long long', same]
    · rw [claimTail_short short, claimTail_short (domain ▸ short), ← domain, same]
    · rw [claimTail_short short, claimTail_long long, spelt]
    · rw [claimTail_long long, claimTail_short short, spelt]

/-- Forty-one bytes of domain leave room for every id. -/
theorem not_confused_of_short (short : g.domain.value.length ≤ 41)
    (short' : h.domain.value.length ≤ 41) (differ : g.id ≠ h.id) : ¬ Confused g h := by
  rintro (⟨long, -, -⟩ | ⟨domain, -, same⟩ | ⟨-, long, -⟩ | ⟨-, long, -⟩)
  · omega
  · have whole : ∀ value : UInt64, (hexDigits value).take (57 - g.domain.value.length) =
        hexDigits value := by
      intro value
      have size := (hexDigits_length value).2
      exact List.take_of_length_le (by omega)
    rw [whole, whole] at same
    exact differ (hexDigits_injective same)
  · omega
  · omega

/-- What the arbiter knows of a grant rivals a request under another, whenever their
scopes meet. -/
def KeptApart (g h : EpochGrant) : Prop := ∀ (request : DecideRequest) (now : Step),
  request.scope.overlaps h.extents = true →
    (Work.competingClaim h).Rivals (Work.authorityRequest request g now)

theorem claim_ids_faithful_iff (g h : EpochGrant) :
    ((validateId (claimIdForGrant g)).isOk = true ∧ (validateId (claimIdForGrant h)).isOk = true ∧
      (Id.make (claimIdForGrant g) : ClaimId) ≠ Id.make (claimIdForGrant h) ∧ KeptApart g h) ↔
    ¬ Confused g h := by
  rw [← claimTail_eq_iff, ← claim_eq_iff]
  constructor
  · exact fun faithful => faithful.2.2.1
  · intro differ
    refine ⟨claimIdForGrant_valid g, claimIdForGrant_valid h, differ, ?_⟩
    exact fun request now overlap => ⟨rfl, Ne.symm differ, overlap⟩

/-- Fifty-seven letters: the name ends before the id begins. -/
def wordyDomain : DomainId := Id.make (List.replicate 57 97)

theorem claim_ids_collide :
    wordyDomain.isEmpty = false ∧
    (Id.make (claimIdForGrant { id := 1, domain := wordyDomain }) : ClaimId) =
      Id.make (claimIdForGrant { id := 2, domain := wordyDomain }) ∧
    ¬ ∀ g h : EpochGrant, g.domain.isEmpty = false → h.domain.isEmpty = false → g.id ≠ h.id →
      (Id.make (claimIdForGrant g) : ClaimId) ≠ Id.make (claimIdForGrant h) ∧ KeptApart g h := by
  have named : wordyDomain.isEmpty = false := by decide +kernel
  have filled : wordyDomain.value.length = 57 := by decide +kernel
  have same : (Id.make (claimIdForGrant { id := 1, domain := wordyDomain }) : ClaimId) =
      Id.make (claimIdForGrant { id := 2, domain := wordyDomain }) := by
    refine claim_eq_iff.mpr (claimTail_eq_iff.mpr (.digits rfl (le_of_eq filled) ?_))
    simp only [filled, Nat.sub_self, List.take_zero]
  refine ⟨named, same, fun all => ?_⟩
  have differ : (1 : GrantId) ≠ 2 := by decide
  exact (all { id := 1, domain := wordyDomain } { id := 2, domain := wordyDomain } named named
    differ).1 same

end EpochGrant

end SplitBrainFabric
