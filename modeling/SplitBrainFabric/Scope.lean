import SplitBrainFabric.Canonical

/-! Scopes: finite extent sets in canonical form. Order, size and non-empty
identifiers are fields, so every scope in the model is one the source can build. -/

namespace SplitBrainFabric
open Words Decoder

structure Scope where
  extents : List ExtentId
  sorted : extents.Pairwise (· < ·)
  bounded : extents.length ≤ Limits.maxExtentsPerScope
  named : ∀ e ∈ extents, e.isEmpty = false

namespace Scope

@[ext] theorem ext {a b : Scope} (extents : a.extents = b.extents) : a = b := by
  cases a; cases b; cases extents; rfl

instance : DecidableEq Scope := fun a b =>
  decidable_of_iff (a.extents = b.extents) ⟨ext, congrArg _⟩

def empty : Scope := ⟨[], List.Pairwise.nil, by decide, by simp⟩

instance : Inhabited Scope := ⟨empty⟩

def isEmpty (s : Scope) : Bool := s.extents.isEmpty

def size (s : Scope) : Nat := s.extents.length

def single (e : ExtentId) (named : e.isEmpty = false) : Scope :=
  ⟨[e], List.pairwise_singleton _ _, by simp [Limits.maxExtentsPerScope], by simp [named]⟩

theorem isEmpty_iff {s : Scope} : s.isEmpty = true ↔ s = empty := by
  rw [isEmpty, List.isEmpty_iff]
  exact ⟨fun h => ext h, fun h => h ▸ rfl⟩

theorem exists_extent {s : Scope} (filled : s.isEmpty = false) : ∃ e, e ∈ s.extents := by
  cases listed : s.extents with
  | nil => simp [isEmpty, listed] at filled
  | cons e rest => exact ⟨e, List.mem_cons_self⟩

@[simp] theorem empty_isEmpty : empty.isEmpty = true := rfl

/-- Position of the first element equal to the one before it. -/
def firstDuplicate : Nat → List ExtentId → Option Nat
  | i, a :: b :: rest => if a = b then some i else firstDuplicate (i + 1) (b :: rest)
  | _, _ => none

theorem strict_of_noDuplicate {l : List ExtentId} {i : Nat} (sorted : l.Pairwise (· ≤ ·))
    (distinct : firstDuplicate i l = none) : l.Pairwise (· < ·) := by
  induction l generalizing i with
  | nil => exact List.Pairwise.nil
  | cons a rest ih =>
    cases rest with
    | nil => exact List.pairwise_singleton _ _
    | cons b rest =>
      have head := (List.pairwise_cons.mp sorted).1
      have tail := (List.pairwise_cons.mp sorted).2
      unfold firstDuplicate at distinct
      split at distinct
      · cases distinct
      · rename_i differ
        have strict := ih tail distinct
        have first : a < b := lt_of_le_of_ne (head b List.mem_cons_self) differ
        refine List.pairwise_cons.mpr ⟨fun c member => ?_, strict⟩
        rcases List.mem_cons.mp member with rfl | later
        · exact first
        · exact first.trans ((List.pairwise_cons.mp strict).1 c later)

theorem noDuplicate_of_strict {l : List ExtentId} (strict : l.Pairwise (· < ·)) (i : Nat) :
    firstDuplicate i l = none := by
  induction l generalizing i with
  | nil => rfl
  | cons a rest ih =>
    cases rest with
    | nil => rfl
    | cons b rest =>
      have first := (List.pairwise_cons.mp strict).1 b List.mem_cons_self
      rw [firstDuplicate, if_neg (ne_of_lt first)]
      exact ih (List.pairwise_cons.mp strict).2 (i + 1)

def make (extents : List ExtentId) : Except Status Scope :=
  if extents = [] then .error (.make .invalid .emptyExtentSet)
  else if tooLarge : Limits.maxExtentsPerScope < extents.length then
    .error (.make .exhausted .scopeTooLarge (UInt64.ofNat extents.length))
  else if unnamed : extents.any (·.isEmpty) = true then .error (.make .invalid .emptyValue)
  else
    match distinct : firstDuplicate 1 (extents.insertionSort (· ≤ ·)) with
    | some i => .error (.make .invalid .duplicateExtent (UInt64.ofNat i))
    | none => .ok {
        extents := extents.insertionSort (· ≤ ·)
        sorted := strict_of_noDuplicate (List.pairwise_insertionSort (· ≤ ·) extents) distinct
        bounded := by rw [List.length_insertionSort]; omega
        named := fun e member => by
          have inside : e ∈ extents := List.mem_insertionSort (· ≤ ·) |>.mp member
          cases h : e.isEmpty with
          | false => rfl
          | true => exact absurd (List.any_eq_true.mpr ⟨e, inside, h⟩) unnamed }

theorem make_extents {s : Scope} (filled : s.isEmpty = false) : make s.extents = .ok s := by
  have nonempty : s.extents ≠ [] := by
    intro h
    simp [isEmpty, h] at filled
  have small : ¬ Limits.maxExtentsPerScope < s.extents.length := Nat.not_lt.mpr s.bounded
  have named : ¬ s.extents.any (·.isEmpty) = true := by
    rw [List.any_eq_true]
    rintro ⟨e, member, unnamed⟩
    rw [s.named e member] at unnamed
    cases unnamed
  have stays : s.extents.insertionSort (· ≤ ·) = s.extents :=
    (s.sorted.imp le_of_lt).insertionSort_eq
  have distinct : firstDuplicate 1 (s.extents.insertionSort (· ≤ ·)) = none := by
    rw [stays]
    exact noDuplicate_of_strict s.sorted 1
  unfold make
  rw [if_neg nonempty, dif_neg small, dif_neg named]
  split
  · rename_i i found
    rw [distinct] at found
    cases found
  · exact congrArg Except.ok (ext stays)

def containsExtent (s : Scope) (e : ExtentId) : Bool := decide (e ∈ s.extents)

/-- The merge of `Scope::overlaps`; each turn drops one element. -/
def overlapsLoop : Nat → List ExtentId → List ExtentId → Bool
  | turns + 1, a :: as, b :: bs =>
    if a = b then true
    else if a < b then overlapsLoop turns as (b :: bs)
    else overlapsLoop turns (a :: as) bs
  | _, _, _ => false

def overlaps (s t : Scope) : Bool :=
  overlapsLoop (s.extents.length + t.extents.length) s.extents t.extents

theorem overlapsLoop_iff {turns : Nat} {as bs : List ExtentId} (left : as.Pairwise (· < ·))
    (right : bs.Pairwise (· < ·)) (enough : as.length + bs.length ≤ turns) :
    overlapsLoop turns as bs = true ↔ ∃ e ∈ as, e ∈ bs := by
  induction turns generalizing as bs with
  | zero =>
    have none : as = [] := List.length_eq_zero_iff.mp (by omega)
    simp [none, overlapsLoop]
  | succ turns ih =>
    match as, bs with
    | [], _ => simp [overlapsLoop]
    | a :: as, [] => simp [overlapsLoop]
    | a :: as, b :: bs =>
      have leftHead := (List.pairwise_cons.mp left).1
      have rightHead := (List.pairwise_cons.mp right).1
      simp only [List.length_cons] at enough
      unfold overlapsLoop
      by_cases same : a = b
      · simp [same]
      · rw [if_neg same]
        by_cases below : a < b
        · have absent : a ∉ b :: bs := by
            intro member
            rcases List.mem_cons.mp member with h | h
            · exact same h
            · exact absurd (below.trans (rightHead a h)) (lt_irrefl a)
          rw [if_pos below, ih (List.pairwise_cons.mp left).2 right
            (by simp only [List.length_cons]; omega)]
          constructor
          · rintro ⟨e, inLeft, inRight⟩
            exact ⟨e, List.mem_cons_of_mem a inLeft, inRight⟩
          · rintro ⟨e, inLeft, inRight⟩
            rcases List.mem_cons.mp inLeft with rfl | h
            · exact absurd inRight absent
            · exact ⟨e, h, inRight⟩
        · have above : b < a := lt_of_le_of_ne (not_lt.mp below) (Ne.symm same)
          have absent : b ∉ a :: as := by
            intro member
            rcases List.mem_cons.mp member with h | h
            · exact same h.symm
            · exact absurd (above.trans (leftHead b h)) (lt_irrefl b)
          rw [if_neg below, ih left (List.pairwise_cons.mp right).2
            (by simp only [List.length_cons]; omega)]
          constructor
          · rintro ⟨e, inLeft, inRight⟩
            exact ⟨e, inLeft, List.mem_cons_of_mem b inRight⟩
          · rintro ⟨e, inLeft, inRight⟩
            rcases List.mem_cons.mp inRight with rfl | h
            · exact absurd inLeft absent
            · exact ⟨e, inLeft, h⟩

theorem overlaps_iff (s t : Scope) : s.overlaps t = true ↔ ∃ e ∈ s.extents, e ∈ t.extents :=
  overlapsLoop_iff s.sorted t.sorted le_rfl

theorem outside_of_apart {s t : Scope} {e : ExtentId} (apart : s.overlaps t = false)
    (inside : e ∈ s.extents) : e ∉ t.extents := by
  intro shared
  rw [(overlaps_iff s t).mpr ⟨e, inside, shared⟩] at apart
  cases apart

theorem overlaps_self {s : Scope} (filled : s.isEmpty = false) : s.overlaps s = true := by
  obtain ⟨e, inside⟩ := exists_extent filled
  exact (overlaps_iff s s).mpr ⟨e, inside, inside⟩

def encode (s : Scope) : Bytes := Writer.sequence (fun e => Writer.text e.value) s.extents

def digest (s : Scope) : Digest256 := Digest256.of s.encode

def decode : Reader.Read Scope := do
  let extents ← Reader.sequence Limits.maxExtentsPerScope (Reader.identifier .invalid)
  if extents = [] then pure empty else Decoder.ofExcept (make extents)

theorem encode_length (s : Scope) : s.encode.length ≤ 16900 := by
  have total := length_flatMap_le s.extents (fun e => Writer.text e.value) (k := 66)
    fun e _ => by
      have size := e.length_le
      simp only [Writer.text_length]
      omega
  have bound := s.bounded
  simp only [Limits.maxExtentsPerScope] at bound
  simp only [encode, Writer.sequence, List.length_append, Writer.u32_length]
  omega

theorem encode_fits (s : Scope) : s.encode.length ≤ Limits.maxSnapshotBytes := by
  have h := s.encode_length
  simp only [Limits.maxSnapshotBytes]
  omega

theorem reads_decode (s : Scope) : Reads decode s.encode s := by
  have filled : ∀ e ∈ s.extents, Writer.text e.value ≠ [] := by
    intro e _ h
    simpa using congrArg List.length h
  have items : Reads (Reader.sequence Limits.maxExtentsPerScope (Reader.identifier .invalid))
      s.encode s.extents :=
    reads_sequence s.bounded (by decide) filled
      fun e member => reads_identifier (s.named e member)
  rw [← List.append_nil s.encode]
  refine items.bind ?_
  by_cases none : s.extents = []
  · rw [if_pos none, show s = empty from ext none]
    exact Reads.pure empty
  · have nonempty : s.isEmpty = false := by simpa [isEmpty] using none
    rw [if_neg none, make_extents nonempty]
    exact Reads.pure s

/-- A scope as a nested blob, the form every durable record uses. -/
theorem reads_nested_scope (s : Scope) :
    Reads (Reader.nested decode) (Writer.blob s.encode) s :=
  reads_nested s.encode_fits s.reads_decode

end Scope
end SplitBrainFabric
