import Mathlib.Algebra.Group.Nat.Defs
import Mathlib.Data.List.Basic
import Mathlib.Tactic.Common

/-! A bounded search. Every node is counted before it is looked at, and the first one past
the budget ends the search without an answer. -/

namespace Metered

variable {α β γ : Type} {budget : UInt64} {found : α → Option β}

/-- A loop over nodes; the state is the count and the findings so far. -/
def visit (budget : UInt64) (found : α → Option β) :
    List α → UInt64 × List β → Option (UInt64 × List β)
  | [], s => some s
  | x :: rest, s =>
    if budget < s.1 + 1 then none
    else visit budget found rest (s.1 + 1, s.2 ++ (found x).toList)

theorem visit_append (l l' : List α) (s : UInt64 × List β) :
    visit budget found (l ++ l') s = (visit budget found l s).bind (visit budget found l') := by
  induction l generalizing s with
  | nil => rfl
  | cons x rest ih =>
    rw [List.cons_append, visit, visit]
    split
    · rfl
    · exact ih _

theorem visit_map (g : γ → α) (l : List γ) (s : UInt64 × List β) :
    visit budget found (l.map g) s = visit budget (fun x => found (g x)) l s := by
  induction l generalizing s with
  | nil => rfl
  | cons x rest ih =>
    rw [List.map_cons, visit, visit]
    split
    · rfl
    · exact ih _

/-- Loops one after another are one loop over all their nodes. -/
theorem foldlM_visit (nodes : γ → List α) (l : List γ) (s : UInt64 × List β) :
    l.foldlM (fun s x => visit budget found (nodes x) s) s =
      visit budget found (l.flatMap nodes) s := by
  induction l generalizing s with
  | nil => rfl
  | cons x rest ih =>
    rw [List.foldlM_cons, List.flatMap_cons, visit_append]
    exact congrArg _ (funext ih)

/-- While the counter cannot wrap, the budget is spent exactly by the number of nodes. -/
theorem visit_eq {l : List α} {s : UInt64 × List β} (within : s.1.toNat ≤ budget.toNat)
    (fits : s.1.toNat + l.length < 2 ^ 64) :
    visit budget found l s =
      if s.1.toNat + l.length ≤ budget.toNat then
        some (s.1 + UInt64.ofNat l.length, s.2 ++ l.filterMap found)
      else none := by
  induction l generalizing s with
  | nil => simp [visit, within]
  | cons x rest ih =>
    simp only [List.length_cons] at fits ⊢
    have next : (s.1 + 1).toNat = s.1.toNat + 1 := by
      rw [UInt64.toNat_add]
      exact Nat.mod_eq_of_lt (by simp only [UInt64.reduceToNat]; omega)
    have guard : budget < s.1 + 1 ↔ budget.toNat < s.1.toNat + 1 := by
      rw [UInt64.lt_iff_toNat_lt, next]
    rw [visit]
    by_cases spent : budget < s.1 + 1
    · have short := guard.mp spent
      rw [if_pos spent, if_neg (by omega)]
    · have left := mt guard.mpr spent
      have later := ih (s := (s.1 + 1, s.2 ++ (found x).toList)) (by simp only [next]; omega)
        (by simp only [next]; omega)
      simp only [next] at later
      have count : s.1 + 1 + UInt64.ofNat rest.length = s.1 + UInt64.ofNat (rest.length + 1) := by
        rw [UInt64.ofNat_add, UInt64.add_assoc, UInt64.add_comm 1]
        rfl
      have total : s.1.toNat + 1 + rest.length = s.1.toNat + (rest.length + 1) := by omega
      rw [if_neg spent, later, count, total, List.append_assoc, List.filterMap_cons]
      cases found x <;> rfl

theorem visit_start {l : List α} (fits : l.length < 2 ^ 64) :
    visit budget found l (0, []) =
      if l.length ≤ budget.toNat then some (UInt64.ofNat l.length, l.filterMap found)
      else none := by
  rw [visit_eq (Nat.zero_le _) (by simpa using fits)]
  simp

end Metered
