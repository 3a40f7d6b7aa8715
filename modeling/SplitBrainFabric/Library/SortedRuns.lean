import Mathlib.Data.List.Sort
import Mathlib.Data.List.TakeWhile
import Mathlib.Tactic.Common

/-! Runs of one key in a list sorted by it: what a lower bound search followed by a scan
finds, and the pairs of elements that share a key. -/

namespace SortedRuns

variable {α κ : Type} [LinearOrder κ] {key : α → κ} {l : List α}

/-- The scan from the lower bound of a key finds all its elements. -/
theorem run_eq_filter (sorted : l.Pairwise fun a b => key a ≤ key b) (k : κ) :
    (l.dropWhile fun a => decide (key a < k)).takeWhile (fun a => decide (key a = k)) =
      l.filter fun a => decide (key a = k) := by
  induction l with
  | nil => rfl
  | cons a rest ih =>
    obtain ⟨head, tail⟩ := List.pairwise_cons.mp sorted
    by_cases below : key a < k
    · rw [List.dropWhile_cons_of_pos (by simpa using below),
        List.filter_cons_of_neg (by simpa using ne_of_lt below)]
      exact ih tail
    have above : ∀ b ∈ rest, ¬ key b < k := fun b member less =>
      below (lt_of_le_of_lt (head b member) less)
    rw [List.dropWhile_cons_of_neg (by simpa using below)]
    by_cases same : key a = k
    · have whole : (rest.dropWhile fun b => decide (key b < k)) = rest := by
        rw [List.dropWhile_eq_self_iff]
        intro long
        simpa using above _ (List.getElem_mem long)
      have later := ih tail
      rw [whole] at later
      rw [List.takeWhile_cons_of_pos (by simpa using same),
        List.filter_cons_of_pos (by simpa using same), later]
    · have beyond : k < key a := lt_of_le_of_ne (not_lt.mp below) (Ne.symm same)
      have none : ∀ b ∈ a :: rest, ¬ decide (key b = k) = true := by
        intro b member
        rcases List.mem_cons.mp member with rfl | later
        · simpa using same
        · simpa using ne_of_gt (lt_of_lt_of_le beyond (head b later))
      rw [List.takeWhile_cons_of_neg (by simpa using same), List.filter_eq_nil_iff.mpr none]

/-- Every element with the later ones of its key. -/
def sharing (key : α → κ) : List α → List (α × α)
  | [] => []
  | a :: rest => ((rest.filter fun b => decide (key b = key a)).map fun b => (a, b)) ++ sharing key rest

/-- Past the run of the smallest key every key is larger. -/
theorem lt_of_mem_dropWhile (sorted : l.Pairwise fun a b => key a ≤ key b) {k : κ}
    (least : ∀ a ∈ l, k ≤ key a) {b : α}
    (member : b ∈ l.dropWhile fun a => decide (key a = k)) : k < key b := by
  induction l with
  | nil => cases member
  | cons a rest ih =>
    obtain ⟨head, tail⟩ := List.pairwise_cons.mp sorted
    by_cases same : key a = k
    · rw [List.dropWhile_cons_of_pos (by simpa using same)] at member
      exact ih tail (fun x later => least x (List.mem_cons_of_mem a later)) member
    · rw [List.dropWhile_cons_of_neg (by simpa using same)] at member
      have above : k < key a := lt_of_le_of_ne (least a List.mem_cons_self) (Ne.symm same)
      rcases List.mem_cons.mp member with rfl | later
      · exact above
      · exact lt_of_lt_of_le above (head b later)

theorem sharing_append {l' : List α} (apart : ∀ a ∈ l, ∀ b ∈ l', key b ≠ key a) :
    sharing key (l ++ l') = sharing key l ++ sharing key l' := by
  induction l with
  | nil => rfl
  | cons a rest ih =>
    have none : l'.filter (fun b => decide (key b = key a)) = [] := by
      rw [List.filter_eq_nil_iff]
      exact fun b member => by simpa using apart a List.mem_cons_self b member
    rw [List.cons_append, sharing, sharing, List.filter_append, none, List.append_nil,
      ih fun x later => apart x (List.mem_cons_of_mem a later), List.append_assoc]

theorem length_sharing_le (l : List α) : (sharing key l).length ≤ l.length * l.length := by
  induction l with
  | nil => exact le_rfl
  | cons a rest ih =>
    have few := List.length_filter_le (fun b => decide (key b = key a)) rest
    rw [sharing, List.length_append, List.length_map, List.length_cons]
    calc (rest.filter fun b => decide (key b = key a)).length + (sharing key rest).length
      _ ≤ rest.length + rest.length * rest.length := Nat.add_le_add few ih
      _ ≤ (rest.length + 1) * (rest.length + 1) := by rw [Nat.mul_succ, Nat.succ_mul]; omega

theorem mem_sharing {α : Type} [LinearOrder α] {key : α → κ} {l : List α}
    (sorted : l.Pairwise (· < ·)) {a b : α} :
    (a, b) ∈ sharing key l ↔ a ∈ l ∧ b ∈ l ∧ a < b ∧ key a = key b := by
  induction l with
  | nil => simp [sharing]
  | cons x rest ih =>
    obtain ⟨head, tail⟩ := List.pairwise_cons.mp sorted
    rw [sharing, List.mem_append, ih tail]
    constructor
    · rintro (first | ⟨left, right, less, same⟩)
      · obtain ⟨y, found, pair⟩ := List.mem_map.mp first
        obtain ⟨rfl, rfl⟩ := Prod.mk.inj pair
        obtain ⟨later, same⟩ := List.mem_filter.mp found
        exact ⟨List.mem_cons_self, List.mem_cons_of_mem _ later, head _ later,
          (of_decide_eq_true same).symm⟩
      · exact ⟨List.mem_cons_of_mem x left, List.mem_cons_of_mem x right, less, same⟩
    · rintro ⟨left, right, less, same⟩
      rcases List.mem_cons.mp left with rfl | left
      · rcases List.mem_cons.mp right with rfl | right
        · exact absurd less (lt_irrefl _)
        · refine .inl (List.mem_map.mpr ⟨b, List.mem_filter.mpr ⟨right, ?_⟩, rfl⟩)
          exact decide_eq_true same.symm
      · rcases List.mem_cons.mp right with here | right
        · exact absurd (less.trans (here ▸ head a left)) (lt_irrefl _)
        · exact .inr ⟨left, right, less, same⟩

theorem fst_mem_of_sharing {p : α × α} (member : p ∈ sharing key l) : p.1 ∈ l := by
  induction l with
  | nil => cases member
  | cons a rest ih =>
    rcases List.mem_append.mp member with first | later
    · obtain ⟨b, -, rfl⟩ := List.mem_map.mp first
      exact List.mem_cons_self
    · exact List.mem_cons_of_mem a (ih later)

/-- The searches for several keys find, one after the other, what a scan for all of them
does. -/
theorem flatMap_filter_perm {keys : List κ} (distinct : keys.Nodup) (nodup : l.Nodup) :
    (keys.flatMap fun k => l.filter fun a => decide (key a = k)).Perm
      (l.filter fun a => decide (key a ∈ keys)) := by
  refine (List.perm_ext_iff_of_nodup ?_ (nodup.filter _)).mpr fun a => ?_
  · refine List.nodup_flatMap.mpr ⟨fun k _ => nodup.filter _, distinct.imp fun differ => ?_⟩
    intro a first second
    have left := of_decide_eq_true (List.mem_filter.mp first).2
    have right := of_decide_eq_true (List.mem_filter.mp second).2
    exact differ (left.symm.trans right)
  · simp only [List.mem_flatMap, List.mem_filter, decide_eq_true_eq]
    constructor
    · rintro ⟨k, member, inside, rfl⟩
      exact ⟨inside, member⟩
    · rintro ⟨inside, member⟩
      exact ⟨key a, member, inside, rfl⟩

theorem nodup_sharing (distinct : l.Nodup) : (sharing key l).Nodup := by
  induction l with
  | nil => exact List.nodup_nil
  | cons a rest ih =>
    obtain ⟨fresh, later⟩ := List.nodup_cons.mp distinct
    rw [sharing, List.nodup_append]
    refine ⟨(later.filter _).map fun b c same => (Prod.mk.inj same).2, ih later, ?_⟩
    rintro p first q second rfl
    obtain ⟨b, -, rfl⟩ := List.mem_map.mp first
    exact fresh (fst_mem_of_sharing second)

end SortedRuns
