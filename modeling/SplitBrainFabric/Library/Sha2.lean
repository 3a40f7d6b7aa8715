import Mathlib.Data.Nat.NthRoot.Defs
import Mathlib.Data.Nat.Prime.Basic
import SplitBrainFabric.Library.Numeral

/-! The hash function of the Secure Hash Standard with a digest of 256 bits, over messages
that are strings of bits. -/

namespace Sha2

abbrev Word := BitVec 32

/-- The low bits of a number, most significant first. -/
def bitsOf (width n : Nat) : List Bool :=
  (List.range width).map fun i => n.testBit (width - 1 - i)

/-- The word that thirty-two bits spell. -/
def wordOf (bits : List Bool) : Word := BitVec.ofNat 32 (Numeral.value 2 (bits.map Bool.toNat))

section Functions

variable (x y z : Word)

def ch : Word := (x &&& y) ^^^ (~~~x &&& z)
def maj : Word := (x &&& y) ^^^ (x &&& z) ^^^ (y &&& z)
def bigSigma0 : Word := x.rotateRight 2 ^^^ x.rotateRight 13 ^^^ x.rotateRight 22
def bigSigma1 : Word := x.rotateRight 6 ^^^ x.rotateRight 11 ^^^ x.rotateRight 25
def smallSigma0 : Word := x.rotateRight 7 ^^^ x.rotateRight 18 ^^^ (x >>> 3)
def smallSigma1 : Word := x.rotateRight 17 ^^^ x.rotateRight 19 ^^^ (x >>> 10)

end Functions

def isPrime (n : Nat) : Bool :=
  decide (2 ≤ n) && (List.range n).all fun d => decide (2 ≤ d → ¬ d ∣ n)

/-- The first sixty-four primes. -/
def primes : List Nat := (List.range 312).filter isPrime

/-- The first thirty-two bits of the fractional part of a root. -/
def fraction (order p : Nat) : Word := BitVec.ofNat 32 (Nat.nthRoot order (p * 2 ^ (32 * order)))

def constants : List Word := primes.map (fraction 3)

/-- The working variables, or a hash value. -/
structure Variables where
  a : Word
  b : Word
  c : Word
  d : Word
  e : Word
  f : Word
  g : Word
  h : Word
  deriving DecidableEq

def initial : Variables where
  a := fraction 2 2
  b := fraction 2 3
  c := fraction 2 5
  d := fraction 2 7
  e := fraction 2 11
  f := fraction 2 13
  g := fraction 2 17
  h := fraction 2 19

/-- The message schedule of a block with the given words. -/
def schedule (m : Nat → Word) (t : Nat) : Word :=
  if t < 16 then m t
  else smallSigma1 (schedule m (t - 2)) + schedule m (t - 7) + smallSigma0 (schedule m (t - 15)) +
    schedule m (t - 16)
termination_by t

def round (v : Variables) (k w : Word) : Variables :=
  let t1 := v.h + bigSigma1 v.e + ch v.e v.f v.g + k + w
  let t2 := bigSigma0 v.a + maj v.a v.b v.c
  ⟨t1 + t2, v.a, v.b, v.c, v.d + t1, v.e, v.f, v.g⟩

def blockWord (block : List Bool) (t : Nat) : Word := wordOf ((block.drop (32 * t)).take 32)

def compress (hash : Variables) (block : List Bool) : Variables :=
  let v := (List.range 64).foldl
    (fun v t => round v (constants.getD t 0) (schedule (blockWord block) t)) hash
  ⟨v.a + hash.a, v.b + hash.b, v.c + hash.c, v.d + hash.d, v.e + hash.e, v.f + hash.f,
    v.g + hash.g, v.h + hash.h⟩

/-- The zeros after the one that ends the message. -/
def zeroBits (length : Nat) : Nat := (959 - length % 512) % 512

def padded (message : List Bool) : List Bool :=
  message ++ true :: List.replicate (zeroBits message.length) false ++ bitsOf 64 message.length

def block (bits : List Bool) (i : Nat) : List Bool := (bits.drop (512 * i)).take 512

def hash (message : List Bool) : Variables :=
  (List.range ((padded message).length / 512)).foldl
    (fun hash i => compress hash (block (padded message) i)) initial

def Variables.bits (v : Variables) : List Bool :=
  [v.a, v.b, v.c, v.d, v.e, v.f, v.g, v.h].flatMap fun w => bitsOf 32 w.toNat

def digest (message : List Bool) : List Bool := (hash message).bits

theorem isPrime_iff (n : Nat) : isPrime n = true ↔ n.Prime := by
  rw [Nat.prime_def_lt', isPrime, Bool.and_eq_true, decide_eq_true_iff, List.all_eq_true]
  refine and_congr_right fun _ => ?_
  constructor
  · exact fun all d two below => of_decide_eq_true (all d (List.mem_range.mpr below)) two
  · exact fun none d member => decide_eq_true fun two => none d two (List.mem_range.mp member)

theorem mem_primes {p : Nat} : p ∈ primes ↔ p.Prime ∧ p < 312 := by
  rw [primes, List.mem_filter, List.mem_range, isPrime_iff, and_comm]

theorem length_primes : primes.length = 64 := by decide +kernel

theorem length_constants : constants.length = 64 := by
  rw [constants, List.length_map, length_primes]

theorem range_getD (l : List Word) (d : Word) :
    (List.range l.length).map (fun i => l.getD i d) = l := by
  induction l with
  | nil => rfl
  | cons w rest ih =>
    rw [List.length_cons, List.range_succ_eq_map, List.map_cons, List.map_map]
    exact congrArg (w :: ·) ih

/-- The padding is the shortest that leaves room for the length in the last block. -/
theorem zeroBits_least (length : Nat) : (length + 1 + zeroBits length) % 512 = 448 ∧
    ∀ k, (length + 1 + k) % 512 = 448 → zeroBits length ≤ k := by
  unfold zeroBits
  exact ⟨by omega, fun k room => by omega⟩

section Bits

theorem bitsOf_digits (width n : Nat) :
    (bitsOf width n).map Bool.toNat = Numeral.digits 2 width n := by
  rw [bitsOf, Numeral.digits, List.map_map]
  exact List.map_congr_left fun i _ => Nat.toNat_testBit n _

@[simp] theorem length_bitsOf (width n : Nat) : (bitsOf width n).length = width := by
  simp [bitsOf]

theorem value_bitsOf (width n : Nat) :
    Numeral.value 2 ((bitsOf width n).map Bool.toNat) = n % 2 ^ width := by
  rw [bitsOf_digits, Numeral.value_digits]

theorem bitsOf_add (width more n : Nat) :
    bitsOf (width + more) n = bitsOf width (n / 2 ^ more) ++ bitsOf more n := by
  rw [bitsOf, bitsOf, bitsOf, List.range_add, List.map_append, List.map_map]
  congr 1
  · apply List.map_congr_left
    intro i member
    have inside := List.mem_range.mp member
    have shifted : width + more - 1 - i = width - 1 - i + more := by omega
    rw [shifted, Nat.testBit_div_two_pow]
  · apply List.map_congr_left
    intro i member
    have inside := List.mem_range.mp member
    have same : width + more - 1 - (width + i) = more - 1 - i := by omega
    simp only [Function.comp_apply, same]

/-- The low bits do not see what is cut off above them. -/
theorem bitsOf_mod (width n : Nat) : bitsOf width (n % 2 ^ width) = bitsOf width n := by
  apply List.map_congr_left
  intro i member
  have inside := List.mem_range.mp member
  rw [Nat.testBit_mod_two_pow]
  have low : width - 1 - i < width := by omega
  simp [low]

/-- The bits of bytes, in the order they are sent. -/
def bits (bytes : List UInt8) : List Bool := bytes.flatMap fun b => bitsOf 8 b.toNat

@[simp] theorem bits_nil : bits [] = [] := rfl

theorem bits_cons (b : UInt8) (bytes : List UInt8) :
    bits (b :: bytes) = bitsOf 8 b.toNat ++ bits bytes := rfl

theorem bits_append (left right : List UInt8) : bits (left ++ right) = bits left ++ bits right :=
  List.flatMap_append

@[simp] theorem length_bits (bytes : List UInt8) : (bits bytes).length = 8 * bytes.length := by
  induction bytes with
  | nil => rfl
  | cons b rest ih =>
    rw [bits_cons, List.length_append, length_bitsOf, ih, List.length_cons]
    omega

/-- The number that bits of bytes spell. -/
theorem value_bits_cons (b : UInt8) (bytes : List UInt8) :
    Numeral.value 2 ((bits (b :: bytes)).map Bool.toNat) =
      b.toNat * 2 ^ (8 * bytes.length) + Numeral.value 2 ((bits bytes).map Bool.toNat) := by
  have whole : b.toNat % 2 ^ 8 = b.toNat := Nat.mod_eq_of_lt b.toNat_lt
  rw [bits_cons, List.map_append, Numeral.value_append, value_bitsOf, whole, List.length_map,
    length_bits]

theorem bits_drop (bytes : List UInt8) (n : Nat) : bits (bytes.drop n) = (bits bytes).drop (8 * n) := by
  induction n generalizing bytes with
  | zero => rfl
  | succ n ih =>
    cases bytes with
    | nil => simp
    | cons b rest =>
      have eight : 8 * (n + 1) = (bitsOf 8 b.toNat).length + 8 * n := by rw [length_bitsOf]; omega
      rw [List.drop_succ_cons, ih, bits_cons, eight, List.drop_length_add_append]

theorem bits_take (bytes : List UInt8) (n : Nat) : bits (bytes.take n) = (bits bytes).take (8 * n) := by
  induction n generalizing bytes with
  | zero => rfl
  | succ n ih =>
    cases bytes with
    | nil => simp
    | cons b rest =>
      have eight : 8 * (n + 1) = (bitsOf 8 b.toNat).length + 8 * n := by rw [length_bitsOf]; omega
      rw [List.take_succ_cons, bits_cons, ih, bits_cons, eight, List.take_length_add_append]

theorem bits_replicate_zero (n : Nat) : bits (List.replicate n 0) = List.replicate (8 * n) false := by
  induction n with
  | zero => rfl
  | succ n ih =>
    have zero : bitsOf 8 (0 : UInt8).toNat = List.replicate 8 false := by decide
    rw [List.replicate_succ, bits_cons, ih, zero, List.replicate_append_replicate]
    congr 1
    omega

/-- The bytes of a number, most significant first. -/
def bytesOf (width n : Nat) : List UInt8 :=
  (List.range width).map fun i => UInt8.ofNat (n / 256 ^ (width - 1 - i))

theorem bytesOf_succ (width n : Nat) :
    bytesOf (width + 1) n = bytesOf width (n / 256) ++ [UInt8.ofNat n] := by
  have last : width + 1 - 1 - width = 0 := by omega
  rw [bytesOf, bytesOf, List.range_succ, List.map_append, List.map_singleton, last, pow_zero,
    Nat.div_one]
  congr 1
  apply List.map_congr_left
  intro i member
  have inside := List.mem_range.mp member
  have shifted : width + 1 - 1 - i = width - 1 - i + 1 := by omega
  rw [shifted, pow_succ', Nat.div_div_eq_div_mul]

theorem bits_bytesOf (width n : Nat) : bits (bytesOf width n) = bitsOf (8 * width) n := by
  induction width generalizing n with
  | zero => rfl
  | succ width ih =>
    have low : bitsOf 8 (UInt8.ofNat n).toNat = bitsOf 8 n := by
      rw [UInt8.toNat_ofNat']
      exact bitsOf_mod 8 n
    have byte : 2 ^ 8 = 256 := rfl
    rw [bytesOf_succ, bits_append, ih, bits_cons, low, bits_nil, List.append_nil, Nat.mul_succ,
      bitsOf_add, byte]

end Bits

end Sha2
