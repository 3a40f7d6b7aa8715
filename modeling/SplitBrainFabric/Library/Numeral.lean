import Mathlib.Data.List.Induction
import Mathlib.Data.Nat.Digits.Defs
import Mathlib.Tactic.Common
import Mathlib.Tactic.Ring

/-! Positional numerals, most significant digit first: the number a list of digits
stands for, and the digits of a number in a fixed width. -/

namespace Numeral

variable {base : Nat}

/-- The total after more digits have been scanned from the left. -/
def scan (base total : Nat) (l : List Nat) : Nat := l.foldl (fun total d => total * base + d) total

def value (base : Nat) (l : List Nat) : Nat := scan base 0 l

/-- The last `width` digits of a number. -/
def digits (base width n : Nat) : List Nat :=
  (List.range width).map fun i => n / base ^ (width - 1 - i) % base

@[simp] theorem scan_nil (total : Nat) : scan base total [] = total := rfl

@[simp] theorem scan_cons (total d : Nat) (l : List Nat) :
    scan base total (d :: l) = scan base (total * base + d) l := rfl

/-- More digits never make a smaller number. -/
theorem le_scan (positive : 0 < base) (total : Nat) (l : List Nat) : total ≤ scan base total l := by
  induction l generalizing total with
  | nil => exact le_rfl
  | cons d rest ih =>
    calc total
      _ ≤ total * base := Nat.le_mul_of_pos_right total positive
      _ ≤ total * base + d := Nat.le_add_right _ d
      _ ≤ scan base total (d :: rest) := ih _

@[simp] theorem value_nil : value base [] = 0 := rfl

theorem value_concat (l : List Nat) (d : Nat) :
    value base (l ++ [d]) = value base l * base + d := by
  simp [value, scan, List.foldl_append]

theorem scan_eq (total : Nat) (l : List Nat) :
    scan base total l = total * base ^ l.length + value base l := by
  induction l generalizing total with
  | nil => simp
  | cons d rest ih =>
    have whole : value base (d :: rest) = scan base d rest := by rw [value, scan_cons]; simp
    rw [scan_cons, whole, ih, ih d, List.length_cons, pow_succ']
    ring

theorem value_append (l l' : List Nat) :
    value base (l ++ l') = value base l * base ^ l'.length + value base l' := by
  rw [← scan_eq, value, value, scan, scan, scan, List.foldl_append]

theorem value_zero_cons (l : List Nat) : value base (0 :: l) = value base l := by
  simp [value]

theorem value_eq_ofDigits (l : List Nat) : value base l = Nat.ofDigits base l.reverse := by
  induction l using List.reverseRecOn with
  | nil => rfl
  | append_singleton l d ih =>
    rw [value_concat, ih, List.reverse_append, List.reverse_singleton, List.singleton_append,
      Nat.ofDigits_cons]
    ring

theorem digits_succ (width n : Nat) :
    digits base (width + 1) n = digits base width (n / base) ++ [n % base] := by
  have last : width + 1 - 1 - width = 0 := by omega
  rw [digits, digits, List.range_succ, List.map_append, List.map_singleton, last, pow_zero,
    Nat.div_one]
  congr 1
  apply List.map_congr_left
  intro i member
  have inside := List.mem_range.mp member
  have shifted : width + 1 - 1 - i = width - 1 - i + 1 := by omega
  rw [shifted, pow_succ', Nat.div_div_eq_div_mul]

theorem value_digits (width n : Nat) : value base (digits base width n) = n % base ^ width := by
  induction width generalizing n with
  | zero => simp [digits, Nat.mod_one]
  | succ width ih =>
    rw [digits_succ, value_concat, ih, pow_succ', Nat.mod_mul]
    ring

end Numeral
