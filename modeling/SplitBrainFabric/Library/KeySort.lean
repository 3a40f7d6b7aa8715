import Mathlib.Data.List.Nodup
import Mathlib.Data.List.Sort
import Mathlib.Tactic.Common

/-! Sorting by a key that may not tell all elements apart. The keys of the result are
determined by the elements alone. Among equal keys the order of arrival survives a stable
routine; another may leave any order. -/

namespace KeySort

variable {α β κ : Type} [LinearOrder κ] {key : α → κ} {l l' : List α}

theorem pairwise_insertionSort (l : List α) :
    (l.insertionSort fun a b => key a ≤ key b).Pairwise fun a b => key a ≤ key b := by
  have total : Std.Total fun a b : α => key a ≤ key b := ⟨fun a b => le_total (key a) (key b)⟩
  have trans : IsTrans α fun a b => key a ≤ key b := ⟨fun _ _ _ => le_trans⟩
  exact List.pairwise_insertionSort _ l

/-- Distinct keys leave only one sorted arrangement. -/
theorem eq_of_distinct (distinct : (l.map key).Nodup)
    (sorted : l.Pairwise fun a b => key a ≤ key b)
    (sorted' : l'.Pairwise fun a b => key a ≤ key b) (perm : l.Perm l') : l = l' := by
  have apart := List.inj_on_of_nodup_map distinct
  refine perm.eq_of_pairwise (fun a b member member' below above => ?_) sorted sorted'
  exact apart member (perm.mem_iff.mpr member') (le_antisymm below above)

theorem insertionSort_perm (distinct : (l.map key).Nodup) (perm : l'.Perm l) :
    l'.insertionSort (fun a b => key a ≤ key b) = l.insertionSort fun a b => key a ≤ key b := by
  have same : (l'.insertionSort fun a b => key a ≤ key b).Perm
      (l.insertionSort fun a b => key a ≤ key b) :=
    (List.perm_insertionSort _ l').trans (perm.trans (List.perm_insertionSort _ l).symm)
  refine eq_of_distinct ?_ (pairwise_insertionSort l') (pairwise_insertionSort l) same
  exact (((List.perm_insertionSort _ l').trans perm).map key).nodup_iff.mpr distinct

/-- Stability: the elements with one key come out in the order they went in. -/
theorem filter_insertionSort (k : κ) (l : List α) :
    (l.insertionSort fun a b => key a ≤ key b).filter (fun a => decide (key a = k)) =
      l.filter fun a => decide (key a = k) := by
  have total : Std.Total fun a b : α => key a ≤ key b := ⟨fun a b => le_total (key a) (key b)⟩
  have trans : IsTrans α fun a b => key a ≤ key b := ⟨fun _ _ _ => le_trans⟩
  have level : (l.filter fun a => decide (key a = k)).Pairwise fun a b => key a ≤ key b := by
    refine List.pairwise_of_forall_mem_list fun a member b member' => ?_
    have left := of_decide_eq_true (List.mem_filter.mp member).2
    have right := of_decide_eq_true (List.mem_filter.mp member').2
    exact le_of_eq (left.trans right.symm)
  have inside := (List.sublist_insertionSort level List.filter_sublist).filter
    fun a => decide (key a = k)
  simp only [List.filter_filter, Bool.and_self] at inside
  refine (inside.eq_of_length ?_).symm
  exact (((List.perm_insertionSort _ l).filter _).length_eq).symm

/-- The position in a strictly sorted list is the number of smaller keys. -/
theorem idxOf_eq_countP [DecidableEq α] {a : α} (sorted : l.Pairwise fun a b => key a < key b)
    (member : a ∈ l) : l.idxOf a = l.countP fun b => decide (key b < key a) := by
  induction l with
  | nil => cases member
  | cons x rest ih =>
    have below := (List.pairwise_cons.mp sorted).1
    rcases List.mem_cons.mp member with rfl | later
    · have none : rest.countP (fun b => decide (key b < key a)) = 0 :=
        List.countP_eq_zero.mpr fun b here => by simpa using (below b here).le
      rw [List.idxOf_cons_self, List.countP_cons, none]
      simp
    · have less := below a later
      have apart : x ≠ a := fun same => absurd less (same ▸ lt_irrefl _)
      rw [List.idxOf_cons_ne _ apart, List.countP_cons, if_pos (decide_eq_true less),
        ih (List.pairwise_cons.mp sorted).2 later]

/-- A sorted selection from a sorted list is a sublist of it, if the keys are distinct. -/
theorem sublist_of_subperm (distinct : (l.map key).Nodup)
    (sorted : l.Pairwise fun a b => key a ≤ key b)
    (sorted' : l'.Pairwise fun a b => key a ≤ key b) (inside : l'.Subperm l) : l'.Sublist l := by
  obtain ⟨s, perm, sub⟩ := inside
  have same : s = l' :=
    eq_of_distinct ((sub.map key).nodup distinct) (sorted.sublist sub) sorted' perm
  exact same ▸ sub

/-- The elements at given places, in the order of the places. -/
def pick (l : List α) (places : List Nat) : List α := places.filterMap (l[·]?)

theorem pick_map (f : α → β) (l : List α) (places : List Nat) :
    pick (l.map f) places = (pick l places).map f := by
  simp only [pick, List.getElem?_map, List.map_filterMap]

theorem pick_range (l : List α) : pick l (List.range l.length) = l := by
  induction l with
  | nil => rfl
  | cons a l ih =>
    have tail : pick (a :: l) ((List.range l.length).map Nat.succ) = l := by
      rw [pick, List.filterMap_map]
      exact ih
    rw [List.length_cons, List.range_succ_eq_map]
    exact congrArg (a :: ·) tail

theorem getElem?_pick {places : List Nat} (inside : ∀ j ∈ places, j < l.length) (i : Nat) :
    (pick l places)[i]? = places[i]?.bind (l[·]?) := by
  induction places generalizing i with
  | nil => rfl
  | cons j places ih =>
    have later := ih fun k member => inside k (List.mem_cons_of_mem j member)
    obtain ⟨a, here⟩ : ∃ a, l[j]? = some a :=
      ⟨_, List.getElem?_eq_getElem (inside j List.mem_cons_self)⟩
    have first : pick l (j :: places) = a :: pick l places := List.filterMap_cons_some here
    rw [first]
    cases i with
    | zero => exact here.symm
    | succ i => exact later i

theorem pick_pick {places : List Nat} (inside : ∀ j ∈ places, j < l.length) (others : List Nat) :
    pick (pick l places) others = pick l (pick places others) := by
  simp only [pick, List.filterMap_filterMap]
  exact List.filterMap_congr fun i _ => getElem?_pick inside i

/-- Places are undone by where each of them stands. -/
theorem exists_inverse {places : List Nat} {n : Nat} (perm : places.Perm (List.range n)) :
    ∃ inverse : List Nat, inverse.Perm (List.range n) ∧ pick inverse places = List.range n ∧
      pick places inverse = List.range n := by
  have distinct : places.Nodup := perm.nodup_iff.mpr List.nodup_range
  have length : places.length = n := perm.length_eq.trans List.length_range
  have ranks : places.map (places.idxOf ·) = List.range n := by
    refine List.ext_getElem (by simp [length]) fun i here there => ?_
    simp only [List.getElem_map, List.getElem_range, distinct.idxOf_getElem]
  have listed : pick (List.range n) places = places := by
    have here : ∀ j ∈ places, (List.range n)[j]? = some j := fun j member =>
      List.getElem?_range (List.mem_range.mp (perm.mem_iff.mp member))
    exact (List.filterMap_congr here).trans List.filterMap_some
  refine ⟨(List.range n).map (places.idxOf ·), ?_, ?_, ?_⟩
  · exact (perm.symm.map _).trans (List.Perm.of_eq ranks)
  · rw [pick_map, listed, ranks]
  · have back : ∀ j ∈ List.range n, places[places.idxOf j]? = some j := fun j member =>
      List.getElem?_idxOf (perm.mem_iff.mpr member)
    rw [pick, List.filterMap_map]
    exact (List.filterMap_congr back).trans List.filterMap_some

theorem pick_perm {places : List Nat} (perm : places.Perm (List.range l.length)) :
    (pick l places).Perm l :=
  (perm.filterMap _).trans (List.Perm.of_eq (pick_range l))

/-- What a sorting routine promises that need not be stable. It is shown nothing but the keys,
and of equal ones any may come first. -/
structure Routine (κ : Type) [LinearOrder κ] where
  places : List κ → List Nat
  perm : ∀ keys, (places keys).Perm (List.range keys.length)
  ordered : ∀ keys, (pick keys (places keys)).Pairwise (· ≤ ·)

namespace Routine

variable (routine : Routine κ) (key)

/-- The elements as the routine arranges their keys. -/
def sort (l : List α) : List α := pick l (routine.places (l.map key))

theorem sort_perm (l : List α) : (routine.sort key l).Perm l := by
  have perm := routine.perm (l.map key)
  rw [List.length_map] at perm
  exact pick_perm perm

theorem sort_ordered (l : List α) :
    (routine.sort key l).Pairwise fun a b => key a ≤ key b := by
  have ordered := routine.ordered (l.map key)
  rw [pick_map] at ordered
  exact List.pairwise_map.mp ordered

@[simp] theorem sort_nil : routine.sort key [] = [] := (routine.sort_perm key []).eq_nil

/-- What the keys do not show has no part in it. -/
theorem sort_map (f : β → α) (l : List β) :
    routine.sort key (l.map f) = (routine.sort (fun b => key (f b)) l).map f := by
  rw [sort, sort, pick_map, List.map_map]
  rfl

theorem sort_of_distinct {key} (distinct : (l.map key).Nodup) (perm : l'.Perm l) :
    routine.sort key l' = routine.sort key l := by
  have same : (routine.sort key l').Perm (routine.sort key l) :=
    (routine.sort_perm key l').trans (perm.trans (routine.sort_perm key l).symm)
  refine eq_of_distinct ?_ (routine.sort_ordered key l') (routine.sort_ordered key l) same
  exact (((routine.sort_perm key l').trans perm).map key).nodup_iff.mpr distinct

/-- Every arrangement that is in order comes of some order of arrival. -/
theorem exists_arrival {key} (ordered : l.Pairwise fun a b => key a ≤ key b) :
    ∃ arrival : List α, arrival.Perm l ∧ routine.sort key arrival = l := by
  have perm : (routine.places (l.map key)).Perm (List.range l.length) :=
    l.length_map key ▸ routine.perm (l.map key)
  obtain ⟨inverse, perm', undone, undone'⟩ := exists_inverse perm
  -- keys in order already are left in the sequence they are in
  have level : pick (l.map key) (routine.places (l.map key)) = l.map key :=
    (pick_perm ((l.length_map key).symm ▸ perm)).eq_of_pairwise
      (fun _ _ _ _ => le_antisymm) (routine.ordered _) (List.pairwise_map.mpr ordered)
  have inside : ∀ j ∈ routine.places (l.map key), j < (l.map key).length := fun j member =>
    l.length_map key ▸ List.mem_range.mp (perm.mem_iff.mp member)
  have same : (pick l inverse).map key = l.map key := by
    rw [← pick_map, ← level, pick_pick inside, level, undone', ← l.length_map key, pick_range]
  refine ⟨pick l inverse, pick_perm perm', ?_⟩
  rw [sort, same, pick_pick fun j member => List.mem_range.mp (perm'.mem_iff.mp member), undone,
    pick_range]

end Routine

/-- The routine that leaves equal keys in the order they arrived in. -/
def Routine.stable : Routine κ where
  places keys := (keys.zipIdx.insertionSort fun p q => p.1 ≤ q.1).map Prod.snd
  perm keys := by
    have same := (List.perm_insertionSort (fun p q : κ × Nat => p.1 ≤ q.1) keys.zipIdx).map Prod.snd
    rwa [List.zipIdx_map_snd, ← List.range_eq_range'] at same
  ordered keys := by
    have sorted : (keys.zipIdx.insertionSort fun p q => p.1 ≤ q.1).Pairwise fun p q => p.1 ≤ q.1 :=
      pairwise_insertionSort _
    have here : ∀ p ∈ keys.zipIdx.insertionSort fun p q => p.1 ≤ q.1, keys[p.2]? = some p.1 :=
      fun p member =>
        List.mem_zipIdx_iff_getElem?.mp ((List.perm_insertionSort _ _).mem_iff.mp member)
    have read : pick keys ((keys.zipIdx.insertionSort fun p q => p.1 ≤ q.1).map Prod.snd) =
        (keys.zipIdx.insertionSort fun p q => p.1 ≤ q.1).map Prod.fst := by
      rw [pick, List.filterMap_map, ← List.filterMap_eq_map]
      exact List.filterMap_congr here
    rw [read]
    exact List.pairwise_map.mpr sorted

end KeySort
