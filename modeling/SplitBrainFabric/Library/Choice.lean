import Mathlib.Data.List.Forall2
import Mathlib.Order.MinMax
import Mathlib.Tactic.Common

/-! One element chosen from each of several classes, and the greatest value among those
chosen. It does not depend on the choice exactly when no element of a class matters:
whatever is gained by it is certain to be reached elsewhere. -/

namespace Choice

variable {ι α κ : Type} [LinearOrder κ] {base : κ} {value : α → κ} {l : List α}

/-- The greatest of a base value and the values of the elements. -/
def peak (base : κ) (value : α → κ) (l : List α) : κ :=
  l.foldl (fun high a => max high (value a)) base

theorem le_peak_iff {x : κ} : x ≤ peak base value l ↔ x ≤ base ∨ ∃ a ∈ l, x ≤ value a := by
  induction l generalizing base with
  | nil => simp [peak]
  | cons a rest ih =>
    have step : peak base value (a :: rest) = peak (max base (value a)) value rest := rfl
    rw [step, ih, le_max_iff]
    simp [or_assoc]

theorem peak_le_iff {x : κ} : peak base value l ≤ x ↔ base ≤ x ∧ ∀ a ∈ l, value a ≤ x := by
  induction l generalizing base with
  | nil => simp [peak]
  | cons a rest ih =>
    have step : peak base value (a :: rest) = peak (max base (value a)) value rest := rfl
    rw [step, ih, max_le_iff, List.forall_mem_cons, and_assoc]

/-- An element of every class, in order. -/
abbrev Chosen (classes : ι → α → Prop) (indices : List ι) (l : List α) : Prop :=
  List.Forall₂ classes indices l

variable {classes : ι → α → Prop} {indices : List ι}

theorem Chosen.class_of (chosen : Chosen classes indices l) {a : α} (member : a ∈ l) :
    ∃ i ∈ indices, classes i a := by
  induction chosen with
  | nil => cases member
  | cons first _ ih =>
    rcases List.mem_cons.mp member with rfl | later
    · exact ⟨_, List.mem_cons_self, first⟩
    · obtain ⟨i, inside, belongs⟩ := ih later
      exact ⟨i, List.mem_cons_of_mem _ inside, belongs⟩

theorem Chosen.of_class (chosen : Chosen classes indices l) {i : ι} (member : i ∈ indices) :
    ∃ a ∈ l, classes i a := by
  induction chosen with
  | nil => cases member
  | cons first _ ih =>
    rcases List.mem_cons.mp member with rfl | later
    · exact ⟨_, List.mem_cons_self, first⟩
    · obtain ⟨a, inside, belongs⟩ := ih later
      exact ⟨a, List.mem_cons_of_mem _ inside, belongs⟩

theorem chosen_map {c : ι → α} (chooses : ∀ i ∈ indices, classes i (c i)) :
    Chosen classes indices (indices.map c) := by
  induction indices with
  | nil => exact List.Forall₂.nil
  | cons i rest ih =>
    exact .cons (chooses i List.mem_cons_self) (ih fun j member => chooses j (List.mem_cons_of_mem i member))

/-- Two choices that differ in one class only. -/
theorem exists_exchange (chosen : Chosen classes indices l) {i : ι} (member : i ∈ indices)
    {a b : α} (left : classes i a) (right : classes i b) :
    ∃ before after, Chosen classes indices (before ++ a :: after) ∧
      Chosen classes indices (before ++ b :: after) := by
  induction chosen with
  | nil => cases member
  | @cons j x rest others first tail ih =>
    rcases List.mem_cons.mp member with rfl | later
    · exact ⟨[], others, .cons left tail, .cons right tail⟩
    · obtain ⟨before, after, chosen, chosen'⟩ := ih later
      exact ⟨x :: before, after, .cons first chosen, .cons first chosen'⟩

/-- The number of chosen elements with a property is the same for every choice when the
classes agree on the property. -/
theorem countP_constant_iff {p : α → Bool} (sample : Chosen classes indices l) :
    (∀ l l', Chosen classes indices l → Chosen classes indices l' → l.countP p = l'.countP p) ↔
      ∀ i ∈ indices, ∀ a b, classes i a → classes i b → p a = p b := by
  constructor
  · intro constant i member a b left right
    obtain ⟨before, after, chosen, chosen'⟩ := exists_exchange sample member left right
    have same := constant _ _ chosen chosen'
    simp only [List.countP_append, List.countP_cons] at same
    cases yes : p a <;> cases yes' : p b <;> simp [yes, yes'] at same ⊢
  · intro agree l l' chosen chosen'
    clear sample
    induction chosen generalizing l' with
    | nil =>
      cases chosen'
      rfl
    | cons first _ ih =>
      cases chosen' with
      | cons first' rest' =>
        rw [List.countP_cons, List.countP_cons,
          ih (fun i member => agree i (List.mem_cons_of_mem _ member)) _ rest',
          agree _ List.mem_cons_self _ _ first first']

theorem any_constant {p : α → Bool} {l' : List α} (chosen : Chosen classes indices l)
    (chosen' : Chosen classes indices l')
    (agree : ∀ i ∈ indices, ∀ a b, classes i a → classes i b → p a = p b) : l.any p = l'.any p := by
  have same := (countP_constant_iff chosen).mpr agree l l' chosen chosen'
  rw [Bool.eq_iff_iff, List.any_eq_true, List.any_eq_true, ← List.countP_pos_iff,
    ← List.countP_pos_iff, same]

/-- What is read off the chosen elements with a property, when the classes agree on both. -/
theorem map_filter_constant {β : Type} {p : α → Bool} {f : α → β} {l' : List α}
    (chosen : Chosen classes indices l) (chosen' : Chosen classes indices l')
    (agree : ∀ i ∈ indices, ∀ a b, classes i a → classes i b → p a = p b)
    (same : ∀ i ∈ indices, ∀ a b, classes i a → classes i b → f a = f b) :
    (l.filter p).map f = (l'.filter p).map f := by
  induction chosen generalizing l' with
  | nil =>
    cases chosen'
    rfl
  | cons first _ ih =>
    cases chosen' with
    | cons first' rest' =>
      have rest := ih rest' (fun i member => agree i (List.mem_cons_of_mem _ member))
        fun i member => same i (List.mem_cons_of_mem _ member)
      rw [List.filter_cons, List.filter_cons, agree _ List.mem_cons_self _ _ first first']
      split
      · rw [List.map_cons, List.map_cons, rest, same _ List.mem_cons_self _ _ first first']
      · exact rest

/-- A value of the second element of a class is reached whatever is chosen. -/
def Certain (classes : ι → α → Prop) (indices : List ι) (base : κ) (value : α → κ) (x : κ) : Prop :=
  x ≤ base ∨ ∃ i ∈ indices, ∀ a, classes i a → x ≤ value a

theorem Certain.le_peak {x : κ} (certain : Certain classes indices base value x)
    (chosen : Chosen classes indices l) : x ≤ peak base value l := by
  rw [le_peak_iff]
  rcases certain with low | ⟨i, member, all⟩
  · exact .inl low
  · obtain ⟨a, inside, belongs⟩ := chosen.of_class member
    exact .inr ⟨a, inside, all a belongs⟩

variable (classes indices base value) in
/-- When the greatest value is the same for every choice. -/
theorem peak_constant_iff :
    (∀ l l', Chosen classes indices l → Chosen classes indices l' →
        peak base value l = peak base value l') ↔
      ∀ i ∈ indices, ∀ a b, classes i a → classes i b → value a < value b →
        Certain classes indices base value (value b) := by
  constructor
  · intro constant i member a b left right less
    by_contra uncertain
    obtain ⟨low, avoided⟩ := not_or.mp uncertain
    -- every class has an element that stays below the value in question
    have lower : ∀ j, ∃ x, j ∈ indices → classes j x ∧ value x < value b := by
      intro j
      by_cases inside : j ∈ indices
      · by_contra stuck
        refine avoided ⟨j, inside, fun x belongs => ?_⟩
        by_contra short
        exact stuck ⟨x, fun _ => ⟨belongs, not_le.mp short⟩⟩
      · exact ⟨a, fun h => absurd h inside⟩
    choose c below using lower
    classical
    have chosen := chosen_map fun j inside => (below j inside).1
    have chosen' : Chosen classes indices (indices.map fun j => if j = i then b else c j) := by
      refine chosen_map fun j inside => ?_
      by_cases same : j = i
      · rw [if_pos same, same]
        exact right
      · rw [if_neg same]
        exact (below j inside).1
    have reached : value b ≤ peak base value (indices.map fun j => if j = i then b else c j) :=
      le_peak_iff.mpr (.inr ⟨b, List.mem_map.mpr ⟨i, member, if_pos rfl⟩, le_rfl⟩)
    rw [constant _ _ chosen' chosen, le_peak_iff] at reached
    rcases reached with atBase | ⟨x, inside, high⟩
    · exact low atBase
    · obtain ⟨j, place, rfl⟩ := List.mem_map.mp inside
      exact absurd high (not_le.mpr (below j place).2)
  · intro certain
    have half : ∀ l l', Chosen classes indices l → Chosen classes indices l' →
        peak base value l ≤ peak base value l' := by
      intro l l' chosen chosen'
      rcases le_peak_iff.mp (le_refl (peak base value l)) with atBase | ⟨b, inside, top⟩
      · exact atBase.trans (le_peak_iff.mpr (.inl le_rfl))
      · obtain ⟨i, member, belongs⟩ := chosen.class_of inside
        obtain ⟨a, inside', belongs'⟩ := chosen'.of_class member
        refine top.trans ?_
        rcases lt_or_ge (value a) (value b) with less | enough
        · exact (certain i member a b belongs' belongs less).le_peak chosen'
        · exact enough.trans (le_peak_iff.mpr (.inr ⟨a, inside', le_rfl⟩))
    exact fun l l' chosen chosen' => le_antisymm (half l l' chosen chosen') (half l' l chosen' chosen)

end Choice
