import Mathlib.Algebra.Group.Nat.Defs
import Mathlib.Data.List.Lex
import Mathlib.Data.List.Sort
import Mathlib.Tactic.Common

/-! Machine words as linear orders, and their little-endian byte images. The
byte image is a plain list, so every fact about it is an induction on the width. -/

instance UInt8.linearOrder : LinearOrder UInt8 where
  le_refl _ := UInt8.le_refl _
  le_trans _ _ _ := UInt8.le_trans
  le_antisymm _ _ := UInt8.le_antisymm
  le_total := UInt8.le_total
  lt_iff_le_not_ge a b := by simp only [UInt8.lt_iff_toNat_lt, UInt8.le_iff_toNat_le]; omega
  toDecidableLE := inferInstance
  toDecidableEq := inferInstance
  toDecidableLT := inferInstance

instance UInt64.linearOrder : LinearOrder UInt64 where
  le_refl _ := UInt64.le_refl _
  le_trans _ _ _ := UInt64.le_trans
  le_antisymm _ _ := UInt64.le_antisymm
  le_total := UInt64.le_total
  lt_iff_le_not_ge a b := by simp only [UInt64.lt_iff_toNat_lt, UInt64.le_iff_toNat_le]; omega
  toDecidableLE := inferInstance
  toDecidableEq := inferInstance
  toDecidableLT := inferInstance

namespace Words

abbrev Bytes := List UInt8

/-- The largest 64-bit value, the point at which an increment wraps to zero. -/
def maxWord : UInt64 := 0xFFFFFFFFFFFFFFFF

theorem toNat_succ {a : UInt64} (below : a ≠ maxWord) : (a + 1).toNat = a.toNat + 1 := by
  have bound : a.toNat ≠ 2 ^ 64 - 1 := by
    intro full
    exact below (UInt64.toNat_inj.mp full)
  have small := a.toNat_lt
  rw [UInt64.toNat_add]
  simp only [UInt64.reduceToNat]
  omega

theorem lt_succ {a : UInt64} (below : a ≠ maxWord) : a < a + 1 := by
  rw [UInt64.lt_iff_toNat_lt, toNat_succ below]
  omega

theorem le_of_lt_succ {a b : UInt64} (below : b ≠ maxWord) (less : a < b + 1) : a ≤ b := by
  rw [UInt64.lt_iff_toNat_lt, toNat_succ below] at less
  rw [UInt64.le_iff_toNat_le]
  omega

theorem succ_ne_zero {a : UInt64} (below : a ≠ maxWord) : a + 1 ≠ 0 := by
  intro zero
  have value := toNat_succ below
  rw [zero] at value
  simp at value

theorem succ_maxWord : maxWord + 1 = 0 := by decide

theorem le_maxWord (x : UInt64) : x ≤ maxWord := by
  rw [UInt64.le_iff_toNat_le]
  have below := x.toNat_lt
  have top : maxWord.toNat = 2 ^ 64 - 1 := rfl
  omega

/-- `f n`, with a case split that makes a lazy evaluator compute `n` first. -/
def forced {α : Type} (n : Nat) (f : Nat → α) : α :=
  match n with
  | 0 => f 0
  | n + 1 => f (n + 1)

@[simp] theorem forced_eq {α : Type} (n : Nat) (f : Nat → α) : forced n f = f n := by
  cases n <;> rfl

theorem toNat_ofNat_succ {n : Nat} (fits : n + 1 < 2 ^ 64) :
    (UInt64.ofNat n + 1).toNat = n + 1 := by
  rw [UInt64.toNat_add, UInt64.toNat_ofNat']
  simp only [UInt64.reduceToNat]
  omega

theorem ofNat_succ {n : Nat} (fits : n + 1 < 2 ^ 64) : UInt64.ofNat (n + 1) = UInt64.ofNat n + 1 := by
  apply UInt64.toNat_inj.mp
  rw [toNat_ofNat_succ fits, UInt64.toNat_ofNat', Nat.mod_eq_of_lt fits]

/-- The low `width` bytes of a number, least significant first. -/
def putLE : Nat → Nat → Bytes
  | 0, _ => []
  | width + 1, n => UInt8.ofNat n :: putLE width (n / 256)

def getLE : Bytes → Nat
  | [] => 0
  | b :: rest => b.toNat + 256 * getLE rest

@[simp] theorem putLE_length (width n : Nat) : (putLE width n).length = width := by
  induction width generalizing n with
  | zero => rfl
  | succ width ih => simp only [putLE, List.length_cons, ih]

theorem getLE_putLE (width n : Nat) : getLE (putLE width n) = n % 256 ^ width := by
  induction width generalizing n with
  | zero => simp [putLE, getLE, Nat.mod_one]
  | succ width ih =>
    have digit : (UInt8.ofNat n).toNat = n % 256 := by simp
    rw [putLE, getLE, ih, digit, Nat.pow_succ, Nat.mul_comm (256 ^ width) 256, Nat.mod_mul]

theorem getLE_bound (bs : Bytes) : getLE bs < 256 ^ bs.length := by
  induction bs with
  | nil => simp [getLE]
  | cons b rest ih =>
    have small := b.toNat_lt
    simp only [getLE, List.length_cons, Nat.pow_succ]
    omega

theorem putLE_getLE (bs : Bytes) : putLE bs.length (getLE bs) = bs := by
  induction bs with
  | nil => rfl
  | cons b rest ih =>
    have digit : UInt8.ofNat (b.toNat + 256 * getLE rest) = b := by
      apply UInt8.toNat_inj.mp
      have small := b.toNat_lt
      simp only [UInt8.toNat_ofNat']
      omega
    have quotient : (b.toNat + 256 * getLE rest) / 256 = getLE rest := by
      have small := b.toNat_lt
      omega
    rw [List.length_cons, getLE, putLE, digit, quotient, ih]

@[simp] theorem getLE_put64 (v : UInt64) : UInt64.ofNat (getLE (putLE 8 v.toNat)) = v := by
  have small : v.toNat < 256 ^ 8 := by
    have bound := v.toNat_lt
    omega
  rw [getLE_putLE, Nat.mod_eq_of_lt small, UInt64.ofNat_toNat]

@[simp] theorem getLE_put32 (v : UInt32) : UInt32.ofNat (getLE (putLE 4 v.toNat)) = v := by
  have small : v.toNat < 256 ^ 4 := by
    have bound := v.toNat_lt
    omega
  rw [getLE_putLE, Nat.mod_eq_of_lt small, UInt32.ofNat_toNat]

@[simp] theorem getLE_put16 (v : UInt16) : UInt16.ofNat (getLE (putLE 2 v.toNat)) = v := by
  have small : v.toNat < 256 ^ 2 := by
    have bound := v.toNat_lt
    omega
  rw [getLE_putLE, Nat.mod_eq_of_lt small, UInt16.ofNat_toNat]

end Words
