import SplitBrainFabric.Library.Words

/-! A table of rows kept strictly sorted by a key, the shape shared by an ordered
map and by a vector searched with a lower bound. The order is part of the type. -/

namespace SortedRows

variable {α κ : Type} [LinearOrder κ] (key : α → κ)

/-- The row a lower bound search stops at, when it carries the wanted key. -/
def lookup (k : κ) : List α → Option α
  | [] => none
  | r :: rest => if key r < k then lookup k rest else if key r = k then some r else none

/-- Overwrite the row with the same key, or insert at the lower bound. -/
def upsert (r : α) : List α → List α
  | [] => [r]
  | x :: rest =>
    if key x < key r then x :: upsert r rest
    else if key x = key r then r :: rest else r :: x :: rest

theorem mem_upsert {r x : α} {rows : List α} (member : x ∈ upsert key r rows) :
    x = r ∨ x ∈ rows := by
  induction rows with
  | nil => simpa [upsert] using member
  | cons y rest ih =>
    unfold upsert at member
    split at member
    · rcases List.mem_cons.mp member with h | h
      · exact .inr (h ▸ List.mem_cons_self)
      · exact (ih h).imp_right (List.mem_cons_of_mem y)
    · split at member
      · exact (List.mem_cons.mp member).imp_right (List.mem_cons_of_mem y)
      · exact List.mem_cons.mp member

theorem upsert_sorted {rows : List α} (sorted : rows.Pairwise (key · < key ·)) (r : α) :
    (upsert key r rows).Pairwise (key · < key ·) := by
  induction rows with
  | nil => exact List.pairwise_singleton _ _
  | cons x rest ih =>
    have head := (List.pairwise_cons.mp sorted).1
    have tail := (List.pairwise_cons.mp sorted).2
    unfold upsert
    split
    · rename_i below
      refine List.pairwise_cons.mpr ⟨fun y hy => ?_, ih tail⟩
      rcases mem_upsert key hy with h | h
      · exact h ▸ below
      · exact head y h
    · rename_i notBelow
      split
      · rename_i same
        exact List.pairwise_cons.mpr ⟨fun y hy => same ▸ head y hy, tail⟩
      · rename_i differ
        have above : key r < key x := lt_of_le_of_ne (not_lt.mp notBelow) (Ne.symm differ)
        refine List.pairwise_cons.mpr ⟨fun y hy => ?_, sorted⟩
        rcases List.mem_cons.mp hy with h | h
        · exact h ▸ above
        · exact above.trans (head y h)

theorem lookup_eq_some {k : κ} {r : α} {rows : List α}
    (sorted : rows.Pairwise (key · < key ·)) :
    lookup key k rows = some r ↔ r ∈ rows ∧ key r = k := by
  induction rows with
  | nil => simp [lookup]
  | cons x rest ih =>
    have head := (List.pairwise_cons.mp sorted).1
    have tail := (List.pairwise_cons.mp sorted).2
    unfold lookup
    split
    · rename_i below
      rw [ih tail, List.mem_cons]
      constructor
      · rintro ⟨h, e⟩; exact ⟨.inr h, e⟩
      · rintro ⟨h | h, e⟩
        · subst h; subst e; exact absurd below (lt_irrefl _)
        · exact ⟨h, e⟩
    · rename_i notBelow
      split
      · rename_i same
        simp only [Option.some.injEq, List.mem_cons]
        constructor
        · rintro rfl; exact ⟨.inl rfl, same⟩
        · rintro ⟨h | h, e⟩
          · exact h.symm
          · have less := head r h
            rw [e, same] at less
            exact absurd less (lt_irrefl _)
      · rename_i differ
        simp only [reduceCtorEq, false_iff, List.mem_cons, not_and]
        rintro (h | h) e
        · exact differ (h ▸ e)
        · exact notBelow (e ▸ head r h)

theorem lookup_upsert {k : κ} {r : α} {rows : List α}
    (sorted : rows.Pairwise (key · < key ·)) :
    lookup key k (upsert key r rows) = if key r = k then some r else lookup key k rows := by
  induction rows with
  | nil =>
    by_cases same : key r = k
    · simp [upsert, lookup, same]
    · simp [upsert, lookup, same]
  | cons x rest ih =>
    have head := (List.pairwise_cons.mp sorted).1
    have tail := (List.pairwise_cons.mp sorted).2
    by_cases below : key x < key r
    · rw [upsert, if_pos below]
      by_cases reach : key x < k
      · rw [lookup, if_pos reach, ih tail, lookup, if_pos reach]
      · have other : ¬ key r = k := fun e => reach (e ▸ below)
        simp only [lookup, if_neg reach, if_neg other]
    · by_cases same : key x = key r
      · rw [upsert, if_neg below, if_pos same]
        simp only [lookup, same]
        by_cases hit : key r = k
        · simp [hit]
        · simp [hit]
      · have above : key r < key x := lt_of_le_of_ne (not_lt.mp below) (Ne.symm same)
        rw [upsert, if_neg below, if_neg same, lookup]
        by_cases hit : key r = k
        · simp [hit]
        · by_cases reach : key r < k
          · simp [hit, reach]
          · have far : ¬ key x < k := fun h => reach (above.trans h)
            have apart : ¬ key x = k := fun h => reach (h ▸ above)
            simp only [if_neg reach, if_neg hit, lookup, if_neg far, if_neg apart]

theorem upsert_length {r : α} {rows : List α} (sorted : rows.Pairwise (key · < key ·)) :
    (upsert key r rows).length =
      if (lookup key (key r) rows).isSome then rows.length else rows.length + 1 := by
  induction rows with
  | nil => simp [upsert, lookup]
  | cons x rest ih =>
    have tail := (List.pairwise_cons.mp sorted).2
    by_cases below : key x < key r
    · simp only [upsert, lookup, if_pos below, List.length_cons, ih tail]
      split <;> rfl
    · by_cases same : key x = key r
      · simp [upsert, lookup, same]
      · simp [upsert, lookup, below, same]

theorem upsert_last {r : α} {rows : List α} (above : ∀ x ∈ rows, key x < key r) :
    upsert key r rows = rows ++ [r] := by
  induction rows with
  | nil => rfl
  | cons x rest ih =>
    have tail := ih fun y member => above y (List.mem_cons_of_mem x member)
    rw [upsert, if_pos (above x List.mem_cons_self), tail]
    rfl

theorem upsert_fresh {r : α} {rows : List α} (fresh : ∀ x ∈ rows, key x ≠ key r) :
    (upsert key r rows).Perm (r :: rows) := by
  induction rows with
  | nil => exact List.Perm.refl _
  | cons x rest ih =>
    have later := ih fun y member => fresh y (List.mem_cons_of_mem x member)
    unfold upsert
    split
    · exact (later.cons x).trans (List.Perm.swap r x rest)
    · rw [if_neg (fresh x List.mem_cons_self)]

theorem upsert_self {r : α} {rows : List α} (sorted : rows.Pairwise (key · < key ·))
    (member : r ∈ rows) : upsert key r rows = rows := by
  induction rows with
  | nil => cases member
  | cons x rest ih =>
    obtain ⟨head, tail⟩ := List.pairwise_cons.mp sorted
    unfold upsert
    rcases List.mem_cons.mp member with rfl | later
    · rw [if_neg (lt_irrefl _), if_pos rfl]
    · rw [if_pos (head r later), ih tail later]

end SortedRows

structure SortedTable {α κ : Type} [LinearOrder κ] (key : α → κ) where
  rows : List α
  sorted : rows.Pairwise (key · < key ·)

namespace SortedTable

variable {α κ : Type} [LinearOrder κ] {key : α → κ}

instance [DecidableEq α] : DecidableEq (SortedTable key) := fun a b =>
  decidable_of_iff (a.rows = b.rows) (by cases a; cases b; simp)

@[ext] theorem ext {a b : SortedTable key} (rows : a.rows = b.rows) : a = b := by
  cases a; cases b; cases rows; rfl

def empty : SortedTable key := ⟨[], List.Pairwise.nil⟩

instance : Inhabited (SortedTable key) := ⟨empty⟩

def find (t : SortedTable key) (k : κ) : Option α := SortedRows.lookup key k t.rows

def put (t : SortedTable key) (r : α) : SortedTable key :=
  ⟨SortedRows.upsert key r t.rows, SortedRows.upsert_sorted key t.sorted r⟩

/-- Insertion that leaves an existing row alone. -/
def emplace (t : SortedTable key) (r : α) : SortedTable key :=
  if (t.find (key r)).isSome then t else t.put r

def erase (t : SortedTable key) (k : κ) : SortedTable key :=
  ⟨t.rows.filter fun r => decide (key r ≠ k), t.sorted.filter _⟩

/-- Removal of the row with the smallest key. -/
def dropFirst (t : SortedTable key) : SortedTable key := ⟨t.rows.tail, t.sorted.tail⟩

def size (t : SortedTable key) : Nat := t.rows.length

/-- Sorting with duplicates removed, when the row is its own key. -/
def ofList (l : List α) : SortedTable key := l.foldl put empty

@[simp] theorem empty_rows : (empty : SortedTable key).rows = [] := rfl
@[simp] theorem find_empty (k : κ) : (empty : SortedTable key).find k = none := rfl

theorem find_eq_some {t : SortedTable key} {k : κ} {r : α} :
    t.find k = some r ↔ r ∈ t.rows ∧ key r = k :=
  SortedRows.lookup_eq_some key t.sorted

theorem find_mem {t : SortedTable key} {r : α} (member : r ∈ t.rows) : t.find (key r) = some r :=
  find_eq_some.mpr ⟨member, rfl⟩

theorem mem_keys {t : SortedTable key} {k : κ} :
    k ∈ t.rows.map key ↔ (t.find k).isSome = true := by
  rw [List.mem_map, Option.isSome_iff_exists]
  exact exists_congr fun _ => find_eq_some.symm

theorem keys_nodup (t : SortedTable key) : (t.rows.map key).Nodup :=
  List.pairwise_map.mpr (t.sorted.imp fun less => ne_of_lt less)

theorem find_put (t : SortedTable key) (r : α) (k : κ) :
    (t.put r).find k = if key r = k then some r else t.find k :=
  SortedRows.lookup_upsert key t.sorted

@[simp] theorem find_put_self (t : SortedTable key) (r : α) :
    (t.put r).find (key r) = some r := by
  simp [find_put]

theorem find_put_ne (t : SortedTable key) {r : α} {k : κ} (differ : key r ≠ k) :
    (t.put r).find k = t.find k := by
  simp [find_put, differ]

theorem mem_put {t : SortedTable key} {r x : α} :
    x ∈ (t.put r).rows ↔ x = r ∨ x ∈ t.rows ∧ key x ≠ key r := by
  rw [show x ∈ (t.put r).rows ↔ (t.put r).find (key x) = some x from
    ⟨find_mem, fun h => (find_eq_some.mp h).1⟩, find_put]
  by_cases same : key r = key x
  · simp only [same, if_true, Option.some.injEq, ne_eq, not_true_eq_false, and_false, or_false]
    exact eq_comm
  · simp only [if_neg same]
    constructor
    · intro h
      exact .inr ⟨(find_eq_some.mp h).1, fun e => same e.symm⟩
    · rintro (h | h)
      · exact absurd (congrArg key h.symm) same
      · exact find_mem h.1

/-- A row that is there already. -/
theorem put_self {t : SortedTable key} {r : α} (found : t.find (key r) = some r) : t.put r = t :=
  ext (SortedRows.upsert_self key t.sorted (find_eq_some.mp found).1)

theorem size_put (t : SortedTable key) (r : α) :
    (t.put r).size = if (t.find (key r)).isSome then t.size else t.size + 1 :=
  SortedRows.upsert_length key t.sorted

theorem size_put_le (t : SortedTable key) (r : α) : (t.put r).size ≤ t.size + 1 := by
  rw [size_put]
  split <;> omega

theorem size_foldl_put_le (l : List α) (t : SortedTable key) :
    (l.foldl put t).size ≤ t.size + l.length := by
  induction l generalizing t with
  | nil => exact le_rfl
  | cons r rest ih =>
    have grown := size_put_le t r
    have further := ih (t.put r)
    rw [List.foldl_cons, List.length_cons]
    omega

theorem find_foldl_put (l : List α) (t : SortedTable key) (k : κ)
    (missing : ∀ r ∈ l, key r ≠ k) : (l.foldl put t).find k = t.find k := by
  induction l generalizing t with
  | nil => rfl
  | cons r rest ih =>
    rw [List.foldl_cons, ih _ (fun x hx => missing x (List.mem_cons_of_mem r hx)),
      find_put_ne t (missing r List.mem_cons_self)]

theorem mem_foldl_put {l : List α} {t : SortedTable key} {x : α}
    (member : x ∈ (l.foldl put t).rows) : x ∈ l ∨ x ∈ t.rows := by
  induction l generalizing t with
  | nil => exact .inr member
  | cons r rest ih =>
    rcases ih member with later | before
    · exact .inl (List.mem_cons_of_mem r later)
    · rcases mem_put.mp before with rfl | ⟨old, _⟩
      · exact .inl List.mem_cons_self
      · exact .inr old

theorem find_foldl_put_isSome (l : List α) (t : SortedTable key) (k : κ) :
    ((l.foldl put t).find k).isSome = true ↔ (∃ r ∈ l, key r = k) ∨ (t.find k).isSome = true := by
  induction l generalizing t with
  | nil => simp
  | cons r rest ih =>
    rw [List.foldl_cons, ih, find_put]
    by_cases same : key r = k
    · simp [same]
    · simp [same]

theorem rows_put_last {t : SortedTable key} {r : α} (above : ∀ x ∈ t.rows, key x < key r) :
    (t.put r).rows = t.rows ++ [r] := SortedRows.upsert_last key above

theorem rows_put_fresh {t : SortedTable key} {r : α} (fresh : ∀ x ∈ t.rows, key x ≠ key r) :
    (t.put r).rows.Perm (r :: t.rows) := SortedRows.upsert_fresh key fresh

theorem size_ofList_le (l : List α) : (ofList l : SortedTable key).size ≤ l.length :=
  (size_foldl_put_le l empty).trans_eq (Nat.zero_add _)

/-- Rows with distinct keys are all kept. -/
theorem rows_ofList {l : List α} (distinct : (l.map key).Nodup) :
    (ofList l : SortedTable key).rows.Perm l := by
  have general : ∀ (l : List α) (t : SortedTable key), (l.map key).Nodup →
      (∀ r ∈ l, ∀ x ∈ t.rows, key x ≠ key r) → (l.foldl put t).rows.Perm (l ++ t.rows) := by
    intro l
    induction l with
    | nil => exact fun _ _ _ => List.Perm.refl _
    | cons r rest ih =>
      intro t distinct fresh
      obtain ⟨new, later⟩ := List.nodup_cons.mp distinct
      have first := rows_put_fresh (fresh r List.mem_cons_self)
      have still : ∀ y ∈ rest, ∀ x ∈ (t.put r).rows, key x ≠ key y := by
        intro y member x inside
        rcases List.mem_cons.mp (first.mem_iff.mp inside) with rfl | old
        · exact fun same => new (same ▸ List.mem_map_of_mem member)
        · exact fresh y (List.mem_cons_of_mem r member) x old
      exact (ih _ later still).trans ((first.append_left rest).trans List.perm_middle)
  simpa [ofList] using general l empty distinct fun _ _ _ member => absurd member List.not_mem_nil

/-- Rows that are their own keys: the table is a finite set. -/
theorem mem_ofList {α : Type} [LinearOrder α] (l : List α) (x : α) :
    x ∈ (ofList l : SortedTable (id : α → α)).rows ↔ x ∈ l := by
  have general : ∀ (l : List α) (t : SortedTable (id : α → α)),
      x ∈ (l.foldl put t).rows ↔ x ∈ l ∨ x ∈ t.rows := by
    intro l
    induction l with
    | nil => simp
    | cons r rest ih =>
      intro t
      rw [List.foldl_cons, ih, mem_put, List.mem_cons]
      by_cases same : x = r
      · simp [same]
      · simp [same]
  simpa [ofList] using general l empty

theorem emplace_eq_put {α : Type} [LinearOrder α] (t : SortedTable (id : α → α)) (r : α) :
    t.emplace r = t.put r := by
  unfold emplace
  split
  · rename_i found
    obtain ⟨x, here⟩ := Option.isSome_iff_exists.mp found
    obtain ⟨-, rfl⟩ := find_eq_some.mp here
    exact (put_self here).symm
  · rfl

theorem mem_emplace {α : Type} [LinearOrder α] {t : SortedTable (id : α → α)} {r x : α} :
    x ∈ (t.emplace r).rows ↔ x = r ∨ x ∈ t.rows := by
  rw [emplace_eq_put, mem_put]
  by_cases same : x = r
  · simp [same]
  · simp [same]

theorem size_emplace {α : Type} [LinearOrder α] (t : SortedTable (id : α → α)) (r : α) :
    (t.emplace r).size = if r ∈ t.rows then t.size else t.size + 1 := by
  have listed : (t.find (id r)).isSome = true ↔ r ∈ t.rows := by
    rw [← mem_keys, List.map_id]
    rfl
  rw [emplace_eq_put, size_put, if_congr listed rfl rfl]

theorem size_emplace_le (t : SortedTable key) (r : α) : (t.emplace r).size ≤ t.size + 1 := by
  unfold emplace
  split
  · exact Nat.le_succ _
  · exact size_put_le t r

end SortedTable
