import Mathlib.Data.List.Sort
import Mathlib.Data.List.Destutter
import Mathlib.Tactic.Common

/-! Two-pointer passes over strictly sorted lists. Each turn drops an element, so the
lengths together are enough turns, and each pass computes what membership says. -/

namespace SortedMerge

variable {α : Type} [LinearOrder α] {as bs : List α} {a b : α} {turns : Nat}

/-- The elements two sorted lists share. -/
def common : Nat → List α → List α → List α
  | turns + 1, a :: as, b :: bs =>
    if a = b then a :: common turns as bs
    else if a < b then common turns as (b :: bs)
    else common turns (a :: as) bs
  | _, _, _ => []

/-- Whether the first sorted list has every element of the second. -/
def covers : Nat → List α → List α → Bool
  | _, _, [] => true
  | turns + 1, a :: as, b :: bs =>
    if a = b then covers turns as bs
    else if a < b then covers turns as (b :: bs)
    else false
  | _, _, _ => false

theorem not_mem_of_lt (sorted : (b :: bs).Pairwise (· < ·)) (below : a < b) : a ∉ b :: bs := by
  intro member
  rcases List.mem_cons.mp member with rfl | later
  · exact lt_irrefl a below
  · exact lt_irrefl a (below.trans ((List.pairwise_cons.mp sorted).1 a later))

theorem common_eq_filter (left : as.Pairwise (· < ·)) (right : bs.Pairwise (· < ·))
    (enough : as.length + bs.length ≤ turns) :
    common turns as bs = as.filter fun e => decide (e ∈ bs) := by
  induction turns generalizing as bs with
  | zero =>
    have none : as = [] := List.length_eq_zero_iff.mp (by omega)
    simp [none, common]
  | succ turns ih =>
    match as, bs with
    | [], _ => simp [common]
    | a :: as, [] => simp [common]
    | a :: as, b :: bs =>
      simp only [List.length_cons] at enough
      have leftTail := (List.pairwise_cons.mp left).2
      have rightTail := (List.pairwise_cons.mp right).2
      unfold common
      by_cases same : a = b
      · subst same
        have fewer := ih leftTail rightTail (by omega)
        have apart : ∀ e ∈ as, decide (e ∈ bs) = decide (e ∈ a :: bs) := by
          intro e member
          have later := (List.pairwise_cons.mp left).1 e member
          simp [ne_of_gt later]
        rw [if_pos rfl, fewer, List.filter_cons_of_pos (by simp), List.filter_congr apart]
      · by_cases below : a < b
        · have absent := not_mem_of_lt right below
          have fewer := ih leftTail right (by simp only [List.length_cons]; omega)
          rw [if_neg same, if_pos below, fewer, List.filter_cons_of_neg (by simpa using absent)]
        · have above : b < a := lt_of_le_of_ne (not_lt.mp below) (Ne.symm same)
          have fewer := ih left rightTail (by simp only [List.length_cons]; omega)
          have apart : ∀ e ∈ a :: as, decide (e ∈ bs) = decide (e ∈ b :: bs) := by
            intro e member
            have differ : e ≠ b := by
              rintro rfl
              exact not_mem_of_lt left above member
            simp [differ]
          rw [if_neg same, if_neg below, fewer, List.filter_congr apart]

theorem covers_iff (left : as.Pairwise (· < ·)) (right : bs.Pairwise (· < ·))
    (enough : as.length + bs.length ≤ turns) :
    covers turns as bs = true ↔ ∀ e ∈ bs, e ∈ as := by
  induction turns generalizing as bs with
  | zero =>
    have none : bs = [] := List.length_eq_zero_iff.mp (by omega)
    simp [none, covers]
  | succ turns ih =>
    match as, bs with
    | _, [] => simp [covers]
    | [], b :: bs => exact ⟨nofun, fun inside => nomatch inside b List.mem_cons_self⟩
    | a :: as, b :: bs =>
      simp only [List.length_cons] at enough
      have leftTail := (List.pairwise_cons.mp left).2
      have rightTail := (List.pairwise_cons.mp right).2
      unfold covers
      by_cases same : a = b
      · subst same
        rw [if_pos rfl, ih leftTail rightTail (by omega)]
        constructor
        · intro inside e member
          rcases List.mem_cons.mp member with rfl | later
          · exact List.mem_cons_self
          · exact List.mem_cons_of_mem a (inside e later)
        · intro inside e member
          have later := (List.pairwise_cons.mp right).1 e member
          exact List.mem_of_ne_of_mem (ne_of_gt later) (inside e (List.mem_cons_of_mem a member))
      · by_cases below : a < b
        · rw [if_neg same, if_pos below, ih leftTail right (by simp only [List.length_cons]; omega)]
          constructor
          · exact fun inside e member => List.mem_cons_of_mem a (inside e member)
          · intro inside e member
            refine List.mem_of_ne_of_mem ?_ (inside e member)
            rintro rfl
            exact not_mem_of_lt right below member
        · have above : b < a := lt_of_le_of_ne (not_lt.mp below) (Ne.symm same)
          rw [if_neg same, if_neg below]
          constructor
          · exact nofun
          · exact fun inside => absurd (inside b List.mem_cons_self) (not_mem_of_lt left above)

/-- Sorting and dropping repetitions changes nothing in a strictly sorted list. -/
theorem unique_sort (sorted : as.Pairwise (· < ·)) :
    (as.insertionSort (· ≤ ·)).destutter (· ≠ ·) = as := by
  rw [(sorted.imp le_of_lt).insertionSort_eq]
  apply List.destutter_of_isChain
  exact (sorted.imp ne_of_lt).isChain

/-- Sorting and dropping repetitions makes the strictly sorted list of the elements. -/
theorem pairwise_unique_sort (l : List α) :
    ((l.insertionSort (· ≤ ·)).destutter (· ≠ ·)).Pairwise (· < ·) := by
  have sorted := List.pairwise_insertionSort (· ≤ ·) l
  have ordered := sorted.sublist (List.destutter_sublist (· ≠ ·) _)
  have distinct : ((l.insertionSort (· ≤ ·)).destutter (· ≠ ·)).Nodup := by
    rw [sorted.destutter_eq_dedup]
    exact List.nodup_dedup _
  exact ordered.imp₂ (fun _ _ below differ => lt_of_le_of_ne below differ) distinct

theorem mem_unique_sort {l : List α} :
    a ∈ (l.insertionSort (· ≤ ·)).destutter (· ≠ ·) ↔ a ∈ l := by
  have sorted := List.pairwise_insertionSort (· ≤ ·) l
  rw [sorted.destutter_eq_dedup, List.mem_dedup, List.mem_insertionSort]

end SortedMerge
