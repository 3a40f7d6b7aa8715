import Mathlib.Logic.Function.Iterate
import Mathlib.Tactic.Common

/-! Reflected cyclic redundancy checks of any width and polynomial. A step is linear in
exclusive or, and one-to-one when the polynomial has its top bit; so a changed run of
bytes no longer than the register always changes the check. -/

namespace Crc

variable {w : Nat} (p : BitVec w)

/-- One bit of the register is divided out. -/
def bitStep (x : BitVec w) : BitVec w := if x.getLsbD 0 then (x >>> 1) ^^^ p else x >>> 1

def steps (k : Nat) (x : BitVec w) : BitVec w := (bitStep p)^[k] x

def byteStep (s : BitVec w) (b : UInt8) : BitVec w := steps p 8 (s ^^^ b.toBitVec.setWidth w)

def run (s : BitVec w) (l : List UInt8) : BitVec w := l.foldl (byteStep p) s

/-- The bytes as one number, the first byte lowest. -/
def word : List UInt8 → BitVec w
  | [] => 0#w
  | b :: rest => b.toBitVec.setWidth w ^^^ (word rest <<< 8)

theorem bitStep_bit (x : BitVec w) (i : Nat) :
    (bitStep p x).getLsbD i = (x.getLsbD (1 + i) ^^ (x.getLsbD 0 && p.getLsbD i)) := by
  unfold bitStep
  split
  · rename_i low
    rw [BitVec.getLsbD_xor, BitVec.getLsbD_ushiftRight, low, Bool.true_and]
  · rename_i low
    rw [BitVec.getLsbD_ushiftRight, Bool.eq_false_iff.mpr low, Bool.false_and, Bool.xor_false]

theorem bitStep_xor (x y : BitVec w) : bitStep p (x ^^^ y) = bitStep p x ^^^ bitStep p y := by
  apply BitVec.eq_of_getLsbD_eq
  intro i _
  simp only [bitStep_bit, BitVec.getLsbD_xor, Bool.and_xor_distrib_right, Bool.xor_assoc,
    Bool.xor_left_comm]

/-- A register with a clear top bit was shifted up before the step. -/
theorem bitStep_shift {x : BitVec w} (clear : ∀ i, w ≤ i + 1 → x.getLsbD i = false) :
    bitStep p (x <<< 1) = x := by
  have low : (x <<< 1).getLsbD 0 = false := by simp
  rw [bitStep, low, if_neg Bool.false_ne_true]
  apply BitVec.eq_of_getLsbD_eq
  intro i inside
  rw [BitVec.getLsbD_ushiftRight, BitVec.getLsbD_shiftLeft]
  by_cases top : w ≤ i + 1
  · simp [clear i top]
  · have below : 1 + i < w := by omega
    simp [below]

theorem bitStep_eq_zero (top : p.getLsbD (w - 1) = true) {x : BitVec w} (zero : bitStep p x = 0#w) :
    x = 0#w := by
  have bit : ∀ i, (x.getLsbD (1 + i) ^^ (x.getLsbD 0 && p.getLsbD i)) = false := by
    intro i
    rw [← bitStep_bit, zero, BitVec.getLsbD_zero]
  have low : x.getLsbD 0 = false := by
    have last := bit (w - 1)
    have beyond : x.getLsbD (1 + (w - 1)) = false := BitVec.getLsbD_of_ge x _ (by omega)
    rwa [beyond, top, Bool.and_true, Bool.false_xor] at last
  apply BitVec.eq_of_getLsbD_eq
  intro i _
  rw [BitVec.getLsbD_zero]
  cases i with
  | zero => exact low
  | succ i =>
    have here := bit i
    rwa [low, Bool.false_and, Bool.xor_false, Nat.add_comm] at here

theorem bitStep_injective (top : p.getLsbD (w - 1) = true) : Function.Injective (bitStep p) := by
  intro x y same
  have zero : bitStep p (x ^^^ y) = 0#w := by rw [bitStep_xor, same, BitVec.xor_self]
  exact BitVec.xor_eq_zero_iff.mp (bitStep_eq_zero p top zero)

theorem steps_xor (k : Nat) (x y : BitVec w) : steps p k (x ^^^ y) = steps p k x ^^^ steps p k y := by
  induction k generalizing x y with
  | zero => rfl
  | succ k ih => simp only [steps, Function.iterate_succ_apply, bitStep_xor] at ih ⊢; exact ih _ _

theorem steps_add (j k : Nat) (x : BitVec w) : steps p (j + k) x = steps p j (steps p k x) :=
  Function.iterate_add_apply (bitStep p) j k x

theorem steps_injective (top : p.getLsbD (w - 1) = true) (k : Nat) :
    Function.Injective (steps p k) := (bitStep_injective p top).iterate k

theorem steps_shift {k : Nat} {x : BitVec w} (clear : ∀ i, w ≤ i + k → x.getLsbD i = false) :
    steps p k (x <<< k) = x := by
  induction k with
  | zero => simp [steps]
  | succ k ih =>
    have next : ∀ i, w ≤ i + 1 → (x <<< k).getLsbD i = false := by
      intro i top
      rw [BitVec.getLsbD_shiftLeft]
      by_cases low : i < k
      · simp [low]
      · simp [clear (i - k) (by omega)]
    have first : bitStep p (x <<< (k + 1)) = x <<< k := by
      rw [BitVec.shiftLeft_add]
      exact bitStep_shift p next
    have rest := ih fun i top => clear i (by omega)
    rw [steps, Function.iterate_succ_apply, first]
    exact rest

/-- A table of the 256 low bytes does eight steps at once. -/
theorem steps_table (x : BitVec w) :
    steps p 8 x = steps p 8 (x &&& BitVec.ofNat w 255) ^^^ (x >>> 8) := by
  have low : ∀ i, (BitVec.ofNat w 255).getLsbD i = (decide (i < w) && decide (i < 8)) := by
    intro i
    rw [BitVec.getLsbD_ofNat, show (255 : Nat) = 2 ^ 8 - 1 from rfl, Nat.testBit_two_pow_sub_one]
  have halves : x = (x &&& BitVec.ofNat w 255) ^^^ ((x >>> 8) <<< 8) := by
    apply BitVec.eq_of_getLsbD_eq
    intro i inside
    rw [BitVec.getLsbD_xor, BitVec.getLsbD_and, low, BitVec.getLsbD_shiftLeft,
      BitVec.getLsbD_ushiftRight]
    by_cases below : i < 8
    · simp [inside, below]
    · simp [inside, below, show 8 + (i - 8) = i by omega]
  have high : steps p 8 ((x >>> 8) <<< 8) = x >>> 8 := by
    apply steps_shift
    intro i top
    rw [BitVec.getLsbD_ushiftRight]
    exact BitVec.getLsbD_of_ge x _ (by omega)
  calc
    steps p 8 x = steps p 8 ((x &&& BitVec.ofNat w 255) ^^^ ((x >>> 8) <<< 8)) :=
      congrArg (steps p 8) halves
    _ = steps p 8 (x &&& BitVec.ofNat w 255) ^^^ (x >>> 8) := by rw [steps_xor, high]

theorem word_clear (l : List UInt8) {i : Nat} (beyond : 8 * l.length ≤ i) :
    (word l : BitVec w).getLsbD i = false := by
  induction l generalizing i with
  | nil => exact BitVec.getLsbD_zero
  | cons b rest ih =>
    simp only [List.length_cons] at beyond
    have own : b.toBitVec.getLsbD i = false := BitVec.getLsbD_of_ge _ _ (by omega)
    simp [word, own, ih (i := i - 8) (by omega)]

theorem word_unshift {l : List UInt8} (fits : 8 * l.length + 8 ≤ w) :
    steps p 8 (word l <<< 8) = word l :=
  steps_shift p fun _ top => word_clear l (by omega)

/-- Few enough bytes go into the register all at once. -/
theorem run_short {l : List UInt8} (fits : 8 * l.length ≤ w) (s : BitVec w) :
    run p s l = steps p (8 * l.length) (s ^^^ word l) := by
  induction l generalizing s with
  | nil => simp [run, steps, word]
  | cons b rest ih =>
    simp only [List.length_cons] at fits
    have tail := ih (by omega) (byteStep p s b)
    have together : byteStep p s b ^^^ word rest = steps p 8 (s ^^^ word (b :: rest)) := by
      rw [word, ← BitVec.xor_assoc, steps_xor, word_unshift p (by omega)]
      rfl
    rw [together, ← steps_add] at tail
    exact tail

theorem word_injective {l l' : List UInt8} (fits : 8 * l.length ≤ w) (size : l.length = l'.length)
    (same : (word l : BitVec w) = word l') : l = l' := by
  induction l generalizing l' with
  | nil => exact (List.length_eq_zero_iff.mp size.symm).symm
  | cons b rest ih =>
    cases l' with
    | nil => cases size
    | cons b' rest' =>
      simp only [List.length_cons] at fits size
      have bits : ∀ i, i < 8 → b.toBitVec.getLsbD i = b'.toBitVec.getLsbD i := by
        intro i low
        have here := congrArg (BitVec.getLsbD · i) same
        have inside : i < w := by omega
        simpa [word, low, inside] using here
      have head : b = b' := UInt8.toBitVec_inj.mp (BitVec.eq_of_getLsbD_eq fun {i} low => bits i low)
      subst head
      have shifted : (word rest : BitVec w) <<< 8 = word rest' <<< 8 := by
        have both := congrArg (b.toBitVec.setWidth w ^^^ ·) same
        simpa only [word, ← BitVec.xor_assoc, BitVec.xor_self, BitVec.zero_xor] using both
      have tail : (word rest : BitVec w) = word rest' := by
        have back := congrArg (steps 0 8) shifted
        rwa [word_unshift 0 (by omega), word_unshift 0 (by omega)] at back
      rw [ih (by omega) (by omega) tail]

theorem run_append (s : BitVec w) (l l' : List UInt8) : run p s (l ++ l') = run p (run p s l) l' :=
  List.foldl_append

theorem run_injective (top : p.getLsbD (w - 1) = true) (l : List UInt8) :
    Function.Injective fun s => run p s l := by
  induction l with
  | nil => exact fun _ _ same => same
  | cons b rest ih =>
    intro s s' same
    have first : byteStep p s b = byteStep p s' b := ih same
    have inside := steps_injective p top 8 first
    have both := congrArg (· ^^^ b.toBitVec.setWidth w) inside
    simpa only [BitVec.xor_assoc, BitVec.xor_self, BitVec.xor_zero] using both

/-- A changed run of bytes that fits in the register changes the result, whatever stands
before and after it. -/
theorem run_burst (top : p.getLsbD (w - 1) = true) {burst burst' : List UInt8}
    (fits : 8 * burst.length ≤ w) (size : burst.length = burst'.length) (differ : burst ≠ burst')
    (s : BitVec w) (front back : List UInt8) :
    run p s (front ++ (burst ++ back)) ≠ run p s (front ++ (burst' ++ back)) := by
  intro same
  simp only [run_append] at same
  have after := run_injective p top back same
  simp only [run_short p fits, run_short p (size ▸ fits), ← size] at after
  have sums := steps_injective p top _ after
  have words := congrArg (run p s front ^^^ ·) sums
  simp only [← BitVec.xor_assoc, BitVec.xor_self, BitVec.zero_xor] at words
  exact differ (word_injective fits size words)

end Crc
