import SplitBrainFabric.Decisions
import SplitBrainFabric.Library.SortedMerge
import Mathlib.Data.List.DropRight
import Mathlib.Data.List.TakeWhile

/-! Scopes as sets of extents: what the constructor accepts, what the merges compute,
and the comma-separated form. -/

namespace SplitBrainFabric
open Words

namespace Text

def isBlank (c : UInt8) : Bool := c == 32 || c == 9 || c == 13 || c == 10

def trim (input : Bytes) : Bytes := (input.dropWhile isBlank).rdropWhile isBlank

/-- The scan of `text::split`; `field` is what it has passed since the last delimiter. -/
def splitLoop (delimiter : UInt8) : Bytes → Bytes → List Bytes
  | field, [] => [field]
  | field, c :: rest =>
    if c = delimiter then field :: splitLoop delimiter [] rest
    else splitLoop delimiter (field ++ [c]) rest

def split (input : Bytes) (delimiter : UInt8) : List Bytes := splitLoop delimiter [] input

theorem splitLoop_eq (delimiter : UInt8) (field input : Bytes) :
    splitLoop delimiter field input =
      List.splitOnPPrepend (· == delimiter) input field.reverse := by
  induction input generalizing field with
  | nil => simp [splitLoop]
  | cons c rest ih =>
    unfold splitLoop List.splitOnPPrepend
    by_cases cut : c = delimiter
    · simp [cut, ih]
    · simp [cut, ih]

theorem split_eq (input : Bytes) (delimiter : UInt8) :
    split input delimiter = input.splitOn delimiter := splitLoop_eq delimiter [] input

theorem split_intercalate {fields : List Bytes} {delimiter : UInt8}
    (clean : ∀ field ∈ fields, delimiter ∉ field) (some : fields ≠ []) :
    split ([delimiter].intercalate fields) delimiter = fields := by
  rw [split_eq]
  exact List.splitOn_intercalate delimiter clean some

theorem trim_eq {input : Bytes} (clean : ∀ c ∈ input, isBlank c = false) : trim input = input := by
  have front : input.dropWhile isBlank = input := by
    rw [List.dropWhile_eq_self_iff]
    intro long blank
    rw [clean _ (List.getElem_mem long)] at blank
    cases blank
  have back : input.rdropWhile isBlank = input := by
    rw [List.rdropWhile_eq_self_iff]
    intro filled blank
    rw [clean _ (List.getLast_mem filled)] at blank
    cases blank
  rw [trim, front, back]

end Text

namespace Id

theorem idByteOk_of_mem {tag : IdTag} {id : Id tag} {c : UInt8} (member : c ∈ id.value) :
    idByteOk c = true := by
  have accepted : (validateId id.value).isOk = true := by
    rcases id.valid with none | accepted
    · simp [none] at member
    · exact accepted
  unfold validateId at accepted
  split at accepted
  · cases accepted
  · split at accepted
    · cases accepted
    · split at accepted
      · cases accepted
      · rename_i clean
        have all : idCharsetOk id.value = true := by simpa using clean
        exact List.all_eq_true.mp all c member

theorem comma_not_mem {tag : IdTag} (id : Id tag) : (44 : UInt8) ∉ id.value := by
  intro member
  have accepted := idByteOk_of_mem member
  revert accepted
  decide

theorem isBlank_of_mem {tag : IdTag} {id : Id tag} {c : UInt8} (member : c ∈ id.value) :
    Text.isBlank c = false := by
  have accepted := idByteOk_of_mem member
  cases blank : Text.isBlank c with
  | false => rfl
  | true =>
    simp only [Text.isBlank, Bool.or_eq_true, beq_iff_eq] at blank
    rcases blank with ((rfl | rfl) | rfl) | rfl <;> revert accepted <;> decide

end Id

namespace Scope

def isSupersetOf (s t : Scope) : Bool :=
  SortedMerge.covers (s.extents.length + t.extents.length) s.extents t.extents

/-- The double loop kept as an oracle, sorted and without repetitions. -/
def intersectReference (a b : Scope) : List ExtentId :=
  let result := a.extents.filter fun left => b.extents.any fun right => left == right
  (result.insertionSort (· ≤ ·)).destutter (· ≠ ·)

def intersectMerge (a b : Scope) : List ExtentId :=
  SortedMerge.common (a.extents.length + b.extents.length) a.extents b.extents

def csv (s : Scope) : Bytes := [44].intercalate (s.extents.map (·.value))

def parseField (field : Bytes) : Except Status ExtentId :=
  let trimmed := Text.trim field
  match Id.tryMake trimmed with
  | some id => .ok id
  | none => .error (.make .invalid .idCharset (UInt64.ofNat trimmed.length))

def parse (commaSeparated : Bytes) : Except Status Scope :=
  let fields := Text.split commaSeparated 44
  if fields = [] then .error (.make .invalid .emptyExtentSet)
  else if Limits.maxExtentsPerScope < fields.length then
    .error (.make .exhausted .scopeTooLarge (UInt64.ofNat fields.length))
  else do
    let extents ← fields.mapM parseField
    make extents

/-- What `make` accepts. -/
structure Listable (extents : List ExtentId) : Prop where
  filled : extents ≠ []
  bounded : extents.length ≤ Limits.maxExtentsPerScope
  distinct : extents.Nodup
  named : ∀ e ∈ extents, e.isEmpty = false

theorem firstDuplicate_none_iff {l : List ExtentId} {i : Nat} (sorted : l.Pairwise (· ≤ ·)) :
    firstDuplicate i l = none ↔ l.Nodup := by
  constructor
  · exact fun none => (strict_of_noDuplicate sorted none).imp ne_of_lt
  · intro distinct
    apply noDuplicate_of_strict
    exact sorted.imp₂ (fun _ _ below differ => lt_of_le_of_ne below differ) distinct

theorem make_ok {extents : List ExtentId} {s : Scope} (made : make extents = .ok s) :
    Listable extents ∧ s.extents = extents.insertionSort (· ≤ ·) := by
  unfold make at made
  split at made
  · cases made
  · rename_i filled
    split at made
    · cases made
    · rename_i small
      split at made
      · cases made
      · rename_i unnamed
        split at made
        · cases made
        · rename_i distinct
          cases made
          have sorted := List.pairwise_insertionSort (· ≤ ·) extents
          have apart := (firstDuplicate_none_iff sorted).mp distinct
          refine ⟨⟨filled, Nat.not_lt.mp small, ?_, ?_⟩, rfl⟩
          · exact (List.perm_insertionSort (· ≤ ·) extents).nodup_iff.mp apart
          · simpa using unnamed

theorem make_listable {extents : List ExtentId} (listable : Listable extents) :
    ∃ s, make extents = .ok s := by
  have sorted := List.pairwise_insertionSort (· ≤ ·) extents
  have apart := (List.perm_insertionSort (· ≤ ·) extents).nodup_iff.mpr listable.distinct
  have none := (firstDuplicate_none_iff (i := 1) sorted).mpr apart
  have small : ¬ Limits.maxExtentsPerScope < extents.length := Nat.not_lt.mpr listable.bounded
  have named : ¬ extents.any (·.isEmpty) = true := by simpa using listable.named
  unfold make
  rw [if_neg listable.filled, dif_neg small, dif_neg named]
  split
  · rename_i i found
    rw [none] at found
    cases found
  · exact ⟨_, rfl⟩

theorem mem_of_make {extents : List ExtentId} {s : Scope} (made : make extents = .ok s)
    (e : ExtentId) : e ∈ s.extents ↔ e ∈ extents := by
  rw [(make_ok made).2]
  exact List.mem_insertionSort (· ≤ ·)

/-- `make` without the proofs its result carries. -/
theorem make_map (extents : List ExtentId) : (make extents).map (·.extents) =
    if extents = [] then .error (.make .invalid .emptyExtentSet)
    else if Limits.maxExtentsPerScope < extents.length then
      .error (.make .exhausted .scopeTooLarge (UInt64.ofNat extents.length))
    else if extents.any (·.isEmpty) = true then .error (.make .invalid .emptyValue)
    else match firstDuplicate 1 (extents.insertionSort (· ≤ ·)) with
      | some i => .error (.make .invalid .duplicateExtent (UInt64.ofNat i))
      | none => .ok (extents.insertionSort (· ≤ ·)) := by
  unfold make
  split
  · rfl
  · split
    · rfl
    · split
      · rfl
      · split
        · rename_i i found
          rw [found]
          rfl
        · rename_i none
          simp only [none]
          rfl

theorem map_extents_injective {r r' : Except Status Scope}
    (same : r.map (·.extents) = r'.map (·.extents)) : r = r' := by
  cases r with
  | error st =>
    cases r' with
    | error st' => exact congrArg Except.error (Except.error.inj same)
    | ok s' => cases same
  | ok s =>
    cases r' with
    | error st' => cases same
    | ok s' => exact congrArg Except.ok (ext (Except.ok.inj same))

theorem make_eq_of_perm {l l' : List ExtentId} (perm : l.Perm l') : make l = make l' := by
  have sort : l.insertionSort (· ≤ ·) = l'.insertionSort (· ≤ ·) := by
    apply List.Perm.eq_of_pairwise (fun a b _ _ below above => le_antisymm below above)
    · exact List.pairwise_insertionSort (· ≤ ·) l
    · exact List.pairwise_insertionSort (· ≤ ·) l'
    · exact (List.perm_insertionSort _ l).trans (perm.trans (List.perm_insertionSort _ l').symm)
  have empty : l = [] ↔ l' = [] := ⟨fun h => (h ▸ perm).nil_eq.symm, fun h => (h ▸ perm).eq_nil⟩
  have unnamed : l.any (·.isEmpty) = l'.any (·.isEmpty) := perm.any_eq
  apply map_extents_injective
  simp only [make_map, empty, perm.length_eq, unnamed, sort]

theorem intersectMerge_eq (a b : Scope) :
    intersectMerge a b = a.extents.filter fun e => decide (e ∈ b.extents) :=
  SortedMerge.common_eq_filter a.sorted b.sorted le_rfl

theorem intersectMerge_sorted (a b : Scope) : (intersectMerge a b).Pairwise (· < ·) := by
  rw [intersectMerge_eq]
  exact a.sorted.filter _

theorem mem_intersectMerge (a b : Scope) (e : ExtentId) :
    e ∈ intersectMerge a b ↔ e ∈ a.extents ∧ e ∈ b.extents := by
  rw [intersectMerge_eq, List.mem_filter, decide_eq_true_iff]

theorem intersectMerge_eq_reference (a b : Scope) :
    intersectMerge a b = intersectReference a b := by
  have scan : (a.extents.filter fun left => b.extents.any fun right => left == right) =
      intersectMerge a b := by
    rw [intersectMerge_eq]
    apply List.filter_congr
    intro e _
    rw [Bool.eq_iff_iff, List.any_eq_true, decide_eq_true_iff]
    constructor
    · rintro ⟨e', member, same⟩
      exact eq_of_beq same ▸ member
    · exact fun member => ⟨e, member, beq_self_eq_true e⟩
  rw [intersectReference, scan]
  exact (SortedMerge.unique_sort (intersectMerge_sorted a b)).symm

theorem isSupersetOf_iff (a b : Scope) :
    a.isSupersetOf b = true ↔ ∀ e ∈ b.extents, e ∈ a.extents :=
  SortedMerge.covers_iff a.sorted b.sorted le_rfl

theorem parseField_value {e : ExtentId} (named : e.isEmpty = false) :
    parseField e.value = .ok e := by
  have whole : Text.trim e.value = e.value := Text.trim_eq fun _ => Id.isBlank_of_mem
  simp only [parseField, whole, Id.tryMake_value named]

theorem mapM_parseField {l : List ExtentId} (named : ∀ e ∈ l, e.isEmpty = false) :
    (l.map (·.value)).mapM parseField = .ok l := by
  induction l with
  | nil => rfl
  | cons e rest ih =>
    have head := parseField_value (named e List.mem_cons_self)
    have tail := ih fun e member => named e (List.mem_cons_of_mem _ member)
    rw [List.map_cons, List.mapM_cons, head, tail]
    rfl

theorem parse_csv {s : Scope} (filled : s.isEmpty = false) : parse s.csv = .ok s := by
  have some : s.extents.map (·.value) ≠ [] := by
    intro none
    simp [isEmpty, List.map_eq_nil_iff.mp none] at filled
  have fields : Text.split s.csv 44 = s.extents.map (·.value) := by
    refine Text.split_intercalate ?_ some
    intro field member
    obtain ⟨e, -, rfl⟩ := List.mem_map.mp member
    exact Id.comma_not_mem e
  have small : ¬ Limits.maxExtentsPerScope < (s.extents.map (·.value)).length := by
    rw [List.length_map]
    exact Nat.not_lt.mpr s.bounded
  unfold parse
  simp only [fields, if_neg some, if_neg small, mapM_parseField s.named]
  exact make_extents filled

theorem agrees_with_sets :
    (∀ l, (∃ s, make l = .ok s) ↔
      l ≠ [] ∧ l.length ≤ Limits.maxExtentsPerScope ∧ l.Nodup ∧ ∀ e ∈ l, e.isEmpty = false) ∧
    (∀ l s, make l = .ok s → ∀ e, e ∈ s.extents ↔ e ∈ l) ∧
    (∀ l l', l.Perm l' → make l = make l') ∧
    (∀ a b : Scope,
      (a.overlaps b = true ↔ ∃ e ∈ a.extents, e ∈ b.extents) ∧
      a.overlaps b = b.overlaps a ∧
      intersectMerge a b = intersectReference a b ∧
      (intersectMerge a b).Pairwise (· < ·) ∧
      (∀ e, e ∈ intersectMerge a b ↔ e ∈ a.extents ∧ e ∈ b.extents) ∧
      (a.isSupersetOf b = true ↔ ∀ e ∈ b.extents, e ∈ a.extents)) ∧
    ∀ a : Scope, a.isEmpty = false → make a.extents = .ok a ∧ parse a.csv = .ok a := by
  refine ⟨fun l => ⟨?_, ?_⟩, fun l s made => mem_of_make made, fun l l' => make_eq_of_perm,
    fun a b => ?_, fun a filled => ⟨make_extents filled, parse_csv filled⟩⟩
  · rintro ⟨s, made⟩
    have listable := (make_ok made).1
    exact ⟨listable.filled, listable.bounded, listable.distinct, listable.named⟩
  · rintro ⟨filled, bounded, distinct, named⟩
    exact make_listable ⟨filled, bounded, distinct, named⟩
  · exact ⟨overlaps_iff a b, overlaps_comm a b, intersectMerge_eq_reference a b,
      intersectMerge_sorted a b, mem_intersectMerge a b, isSupersetOf_iff a b⟩

theorem agrees_with_sets_pair :
    let x : ExtentId := Id.make [120]
    let y : ExtentId := Id.make [121]
    make [y, x] = make [x, y] ∧ (∃ s, make [y, x] = .ok s) ∧
      ∀ s, make [y, x] = .ok s → parse s.csv = .ok s := by
  have filled : ∀ s : Scope, make [Id.make [121], Id.make [120]] = .ok s → s.isEmpty = false := by
    intro s made
    have inside := (agrees_with_sets.2.1 _ s made (Id.make [121])).mpr List.mem_cons_self
    simpa [isEmpty] using List.ne_nil_of_mem inside
  refine ⟨agrees_with_sets.2.2.1 _ _ (List.Perm.swap _ _ _), ?_, fun s made => ?_⟩
  · exact (agrees_with_sets.1 _).mpr ⟨by decide, by decide, by decide, by decide⟩
  · exact (agrees_with_sets.2.2.2.2 s (filled s made)).2

end Scope
end SplitBrainFabric
