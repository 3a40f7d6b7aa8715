import SplitBrainFabric.Library.Numeral
import SplitBrainFabric.Status

/-! Decimal integers read from text. The parsers are written once over the machine
operations they use, so that the wrapping run and the checked one are the same program. -/

namespace Words

/-- What a run that never stops early returns is its value. -/
abbrev Total (α : Type) : Type := Id α

end Words

namespace SplitBrainFabric
open Words

/-- The operations that may lose part of their exact result. -/
structure Machine (m : Type → Type) where
  add : UInt64 → UInt64 → m UInt64
  sub : UInt64 → UInt64 → m UInt64
  mul : UInt64 → UInt64 → m UInt64
  narrow : UInt64 → m Int64
  neg : Int64 → m Int64

namespace Machine

/-- The machine itself: every result is cut to 64 bits. -/
def wrapping : Machine Total where
  add a b := a + b
  sub a b := a - b
  mul a b := a * b
  narrow a := a.toInt64
  neg a := -a

/-- A result that does not fit ends the run. -/
def checked : Machine Option where
  add a b := if a.toNat + b.toNat < 2 ^ 64 then some (a + b) else none
  sub a b := if b.toNat ≤ a.toNat then some (a - b) else none
  mul a b := if a.toNat * b.toNat < 2 ^ 64 then some (a * b) else none
  narrow a := if a.toNat < 2 ^ 63 then some a.toInt64 else none
  neg a := if -2 ^ 63 < a.toInt then some (-a) else none

end Machine

namespace Text

section Parsers

variable {m : Type → Type} [Monad m] (M : Machine m)

def parseU64Loop : Bytes → UInt64 → m (Except Status UInt64)
  | [], value => pure (.ok value)
  | c :: rest, value =>
    if c < 48 ∨ 57 < c then pure (.error (.make .invalid .idCharset))
    else do
      let digit ← M.sub c.toUInt64 48
      let spare ← M.sub maxWord digit
      if spare / 10 < value then pure (.error (.make .invalid .counterOverflow))
      else do
        let scaled ← M.mul value 10
        let next ← M.add scaled digit
        parseU64Loop rest next

/-- `out` is what the caller's variable held. -/
def parseU64Over (input : Bytes) (out : UInt64) : m (Status × UInt64) :=
  if input = [] then pure (.make .invalid .emptyValue, out)
  else do
    match ← parseU64Loop M input 0 with
    | .error st => pure (st, out)
    | .ok value => pure (.ok, value)

/-- What `parse_i64` does once the sign is off. -/
def parseMagnitude (negative : Bool) (input : Bytes) (out : Int64) : m (Status × Int64) := do
  let (st, magnitude) ← parseU64Over M input 0
  if st.isOk = false then pure (st, out)
  else do
    let limit ← if negative then M.add 0x7FFFFFFFFFFFFFFF 1 else pure 0x7FFFFFFFFFFFFFFF
    if limit < magnitude then pure (.make .invalid .counterOverflow, out)
    else if negative then
      if magnitude = limit then pure (.ok, Int64.minValue)
      else do
        let narrowed ← M.narrow magnitude
        let value ← M.neg narrowed
        pure (.ok, value)
    else do
      let value ← M.narrow magnitude
      pure (.ok, value)

def parseI64Over (input : Bytes) (out : Int64) : m (Status × Int64) :=
  match input with
  | [] => pure (.make .invalid .emptyValue, out)
  | c :: rest =>
    if c = 45 then
      if rest = [] then pure (.make .invalid .emptyValue, out) else parseMagnitude M true rest out
    else if c = 43 then
      if rest = [] then pure (.make .invalid .emptyValue, out) else parseMagnitude M false rest out
    else parseMagnitude M false input out

end Parsers

def parseU64 (input : Bytes) (out : UInt64) : Status × UInt64 :=
  Id.run (parseU64Over .wrapping input out)

def parseI64 (input : Bytes) (out : Int64) : Status × Int64 :=
  Id.run (parseI64Over .wrapping input out)

def isDigit (c : UInt8) : Prop := 48 ≤ c ∧ c ≤ 57

def digitValues (s : Bytes) : List Nat := s.map fun c => c.toNat - 48

/-- A non-empty string of decimal digits. -/
structure Digits (s : Bytes) : Prop where
  filled : s ≠ []
  digits : ∀ c ∈ s, isDigit c

/-- The number a string of digits denotes. -/
def decimal (s : Bytes) : Nat := Numeral.value 10 (digitValues s)

/-- The integer an optionally signed string of digits denotes. -/
inductive Denotes : Bytes → Int → Prop
  | plain {s : Bytes} (digits : Digits s) : Denotes s (decimal s)
  | plus {s : Bytes} (digits : Digits s) : Denotes (43 :: s) (decimal s)
  | minus {s : Bytes} (digits : Digits s) : Denotes (45 :: s) (-(decimal s))

section Loop

variable {c : UInt8} {v : UInt64}

theorem digit_toNat (digit : isDigit c) :
    (c.toUInt64 - 48).toNat = c.toNat - 48 ∧ c.toNat - 48 ≤ 9 := by
  have low := UInt8.le_iff_toNat_le.mp digit.1
  have high := UInt8.le_iff_toNat_le.mp digit.2
  simp only [UInt8.reduceToNat] at low high
  have within : (48 : UInt64) ≤ c.toUInt64 := by
    rw [UInt64.le_iff_toNat_le, UInt8.toNat_toUInt64]
    exact low
  rw [UInt64.toNat_sub_of_le _ _ within, UInt8.toNat_toUInt64]
  exact ⟨rfl, Nat.sub_le_sub_right high 48⟩

/-- The rearranged guard is the overflow of the next total. -/
theorem guard_iff (digit : isDigit c) : (maxWord - (c.toUInt64 - 48)) / 10 < v ↔
    2 ^ 64 ≤ v.toNat * 10 + (c.toNat - 48) := by
  obtain ⟨value, small⟩ := digit_toNat digit
  rw [UInt64.lt_iff_toNat_lt, UInt64.toNat_div, UInt64.toNat_sub_of_le _ _ (le_maxWord _), value]
  have top : maxWord.toNat = 2 ^ 64 - 1 := rfl
  have ten : (10 : UInt64).toNat = 10 := rfl
  rw [top, ten]
  omega

theorem next_toNat (digit : isDigit c) (room : v.toNat * 10 + (c.toNat - 48) < 2 ^ 64) :
    (v * 10).toNat = v.toNat * 10 ∧
      (v * 10 + (c.toUInt64 - 48)).toNat = v.toNat * 10 + (c.toNat - 48) := by
  have ten : (10 : UInt64).toNat = 10 := rfl
  have scaled : (v * 10).toNat = v.toNat * 10 := by
    rw [UInt64.toNat_mul, ten]
    exact Nat.mod_eq_of_lt (by omega)
  refine ⟨scaled, ?_⟩
  rw [UInt64.toNat_add, scaled, (digit_toNat digit).1]
  exact Nat.mod_eq_of_lt room

theorem isDigit_iff : isDigit c ↔ ¬ (c < 48 ∨ 57 < c) := by
  rw [isDigit, not_or, not_lt, not_lt]

theorem parseU64Loop_cons (rest : Bytes) : parseU64Loop .wrapping (c :: rest) v =
    if c < 48 ∨ 57 < c then .error (.make .invalid .idCharset)
    else if (maxWord - (c.toUInt64 - 48)) / 10 < v then .error (.make .invalid .counterOverflow)
    else parseU64Loop .wrapping rest (v * 10 + (c.toUInt64 - 48)) := rfl

theorem checked_sub {a b : UInt64} (within : b.toNat ≤ a.toNat) :
    Machine.checked.sub a b = some (a - b) := if_pos within

theorem checked_mul {a b : UInt64} (fits : a.toNat * b.toNat < 2 ^ 64) :
    Machine.checked.mul a b = some (a * b) := if_pos fits

theorem checked_add {a b : UInt64} (fits : a.toNat + b.toNat < 2 ^ 64) :
    Machine.checked.add a b = some (a + b) := if_pos fits

theorem parseU64Loop_checked (s : Bytes) (v : UInt64) :
    parseU64Loop .checked s v = some (parseU64Loop .wrapping s v) := by
  induction s generalizing v with
  | nil => rfl
  | cons c rest ih =>
    rw [parseU64Loop_cons, parseU64Loop]
    by_cases foreign : c < 48 ∨ 57 < c
    · rw [if_pos foreign, if_pos foreign]
      rfl
    have digit := isDigit_iff.mpr foreign
    obtain ⟨value, small⟩ := digit_toNat digit
    have first : Machine.checked.sub c.toUInt64 48 = some (c.toUInt64 - 48) := by
      apply checked_sub
      rw [UInt8.toNat_toUInt64]
      exact UInt8.le_iff_toNat_le.mp digit.1
    have second := checked_sub (UInt64.le_iff_toNat_le.mp (le_maxWord (c.toUInt64 - 48)))
    rw [if_neg foreign, if_neg foreign]
    rw [first, Option.bind_eq_bind, Option.bind_some, second, Option.bind_some]
    by_cases full : (maxWord - (c.toUInt64 - 48)) / 10 < v
    · rw [if_pos full, if_pos full]
      rfl
    · have room := Nat.not_le.mp (mt (guard_iff digit).mpr full)
      obtain ⟨scaled, next⟩ := next_toNat digit room
      have third : Machine.checked.mul v 10 = some (v * 10) := by
        have ten : (10 : UInt64).toNat = 10 := rfl
        apply checked_mul
        rw [ten]
        omega
      have fourth : Machine.checked.add (v * 10) (c.toUInt64 - 48) =
          some (v * 10 + (c.toUInt64 - 48)) := by
        apply checked_add
        rw [scaled, value]
        exact room
      rw [if_neg full, if_neg full]
      rw [third, Option.bind_some, fourth, Option.bind_some]
      exact ih _

theorem parseU64Loop_ok {s : Bytes} {w : UInt64} : parseU64Loop .wrapping s v = .ok w ↔
    (∀ c ∈ s, isDigit c) ∧ Numeral.scan 10 v.toNat (digitValues s) = w.toNat := by
  induction s generalizing v with
  | nil =>
    have same : parseU64Loop .wrapping [] v = .ok v := rfl
    rw [same, Except.ok.injEq]
    simp [digitValues, UInt64.toNat_inj]
  | cons c rest ih =>
    rw [parseU64Loop_cons]
    by_cases foreign : c < 48 ∨ 57 < c
    · rw [if_pos foreign]
      constructor
      · nofun
      · exact fun all => absurd foreign (isDigit_iff.mp (all.1 c List.mem_cons_self))
    have digit := isDigit_iff.mpr foreign
    rw [if_neg foreign]
    have total : Numeral.scan 10 v.toNat (digitValues (c :: rest)) =
        Numeral.scan 10 (v.toNat * 10 + (c.toNat - 48)) (digitValues rest) := rfl
    by_cases full : (maxWord - (c.toUInt64 - 48)) / 10 < v
    · rw [if_pos full, total]
      constructor
      · nofun
      · rintro ⟨-, reached⟩
        have above := (guard_iff digit).mp full
        have grown := @Numeral.le_scan 10 (by decide) (v.toNat * 10 + (c.toNat - 48))
          (digitValues rest)
        have small := w.toNat_lt
        omega
    · have room := Nat.not_le.mp (mt (guard_iff digit).mpr full)
      rw [if_neg full, ih, total, (next_toNat digit room).2, List.forall_mem_cons,
        and_iff_right digit]

theorem parseU64Loop_error {s : Bytes} {st : Status}
    (refused : parseU64Loop .wrapping s v = .error st) : st.isOk = false := by
  induction s generalizing v with
  | nil => cases refused
  | cons c rest ih =>
    rw [parseU64Loop_cons] at refused
    split at refused
    · cases refused
      rfl
    · split at refused
      · cases refused
        rfl
      · exact ih refused

end Loop

theorem parseU64_error {s : Bytes} {st : Status} (filled : s ≠ []) (out : UInt64)
    (run : parseU64Loop .wrapping s 0 = .error st) : parseU64 s out = (st, out) := by
  rw [parseU64, parseU64Over, if_neg filled, run]
  rfl

theorem parseU64_ok {s : Bytes} {value : UInt64} (filled : s ≠ []) (out : UInt64)
    (run : parseU64Loop .wrapping s 0 = .ok value) : parseU64 s out = (.ok, value) := by
  rw [parseU64, parseU64Over, if_neg filled, run]
  rfl

/-- Either the number, or a refusal and what was there before. -/
theorem parseU64_cases (s : Bytes) (out : UInt64) :
    (∃ value, parseU64 s out = (.ok, value) ∧ Digits s ∧ decimal s = value.toNat) ∨
    (∃ st, parseU64 s out = (st, out) ∧ st.isOk = false ∧ ¬ (Digits s ∧ decimal s < 2 ^ 64)) := by
  by_cases empty : s = []
  · subst empty
    exact .inr ⟨_, rfl, rfl, fun both => both.1.filled rfl⟩
  cases run : parseU64Loop .wrapping s 0 with
  | error st =>
    refine .inr ⟨st, parseU64_error empty out run, parseU64Loop_error run, ?_⟩
    rintro ⟨digits, small⟩
    have reached : parseU64Loop .wrapping s 0 = .ok (UInt64.ofNat (decimal s)) :=
      parseU64Loop_ok.mpr ⟨digits.digits, (UInt64.toNat_ofNat_of_lt small).symm⟩
    rw [run] at reached
    cases reached
  | ok value =>
    have reached := parseU64Loop_ok.mp run
    exact .inl ⟨value, parseU64_ok empty out run, ⟨empty, reached.1⟩, reached.2⟩

theorem parseU64Over_checked (s : Bytes) (out : UInt64) :
    parseU64Over .checked s out = some (parseU64 s out) := by
  by_cases empty : s = []
  · subst empty
    rfl
  rw [parseU64Over, if_neg empty, parseU64Loop_checked]
  cases run : parseU64Loop .wrapping s 0 with
  | error st => rw [parseU64_error empty out run]; rfl
  | ok value => rw [parseU64_ok empty out run]; rfl

/-- The largest magnitude on one side of zero. -/
def magnitudeLimit (negative : Bool) : UInt64 :=
  if negative then 0x8000000000000000 else 0x7FFFFFFFFFFFFFFF

def signed (negative : Bool) (n : Nat) : Int := if negative then -n else n

/-- The value stored; the smallest integer has no positive counterpart. -/
def signedWord (negative : Bool) (n : UInt64) : Int64 :=
  if negative then if n = magnitudeLimit true then Int64.minValue else -n.toInt64 else n.toInt64

section Magnitude

variable {negative : Bool} {s : Bytes} {n : UInt64} {st : Status}

theorem parseMagnitude_ok (read : parseU64 s 0 = (.ok, n)) (out : Int64) :
    parseMagnitude .wrapping negative s out =
      if magnitudeLimit negative < n then (.make .invalid .counterOverflow, out)
      else (.ok, signedWord negative n) := by
  have run : parseU64Over .wrapping s 0 = (.ok, n) := read
  rw [parseMagnitude, run]
  by_cases beyond : magnitudeLimit negative < n
  · rw [if_pos beyond]
    cases negative with
    | false => exact if_pos beyond
    | true => exact if_pos beyond
  rw [if_neg beyond]
  cases negative with
  | false => exact if_neg beyond
  | true =>
    refine (if_neg beyond).trans ?_
    by_cases lowest : n = magnitudeLimit true
    · rw [signedWord, if_pos rfl, if_pos lowest]
      exact if_pos lowest
    · rw [signedWord, if_pos rfl, if_neg lowest]
      exact if_neg lowest

theorem magnitudeLimit_toNat :
    (magnitudeLimit negative).toNat = if negative then 2 ^ 63 else 2 ^ 63 - 1 := by
  cases negative <;> rfl

/-- Both sides of zero reach exactly as far as the type does. -/
theorem magnitudeLimit_iff : ¬ magnitudeLimit negative < n ↔
    -2 ^ 63 ≤ signed negative n.toNat ∧ signed negative n.toNat < 2 ^ 63 := by
  rw [UInt64.lt_iff_toNat_lt, magnitudeLimit_toNat, signed]
  cases negative <;> simp <;> omega

theorem toInt64_toInt (small : n.toNat < 2 ^ 63) : n.toInt64.toInt = n.toNat := by
  have bits : n.toInt64.toInt = n.toBitVec.toInt := rfl
  rw [bits, BitVec.toInt_eq_toNat_bmod, UInt64.toNat_toBitVec]
  exact Int.bmod_eq_of_le (by omega) (by omega)

theorem signedWord_toInt (within : ¬ magnitudeLimit negative < n) :
    (signedWord negative n).toInt = signed negative n.toNat := by
  have bound := Nat.not_lt.mp (mt UInt64.lt_iff_toNat_lt.mpr within)
  rw [magnitudeLimit_toNat] at bound
  cases negative with
  | false =>
    have small : n.toNat < 2 ^ 63 := by
      simp only [Bool.false_eq_true, if_false] at bound
      omega
    exact toInt64_toInt small
  | true =>
    rw [signedWord, if_pos rfl, signed, if_pos rfl]
    by_cases lowest : n = magnitudeLimit true
    · rw [if_pos lowest, lowest]
      rfl
    · have differ : n.toNat ≠ 2 ^ 63 := by
        intro same
        exact lowest (UInt64.toNat_inj.mp same)
      simp only [if_true] at bound
      have small : n.toNat < 2 ^ 63 := by omega
      rw [if_neg lowest, Int64.toInt_neg, toInt64_toInt small]
      exact Int.bmod_eq_of_le (by omega) (by omega)

theorem parseMagnitude_cases (s : Bytes) (out : Int64) :
    (∃ value, parseMagnitude .wrapping negative s out = (.ok, value) ∧ Digits s ∧
      value.toInt = signed negative (decimal s)) ∨
    (∃ st, parseMagnitude .wrapping negative s out = (st, out) ∧ st.isOk = false ∧
      ¬ (Digits s ∧ -2 ^ 63 ≤ signed negative (decimal s) ∧
        signed negative (decimal s) < 2 ^ 63)) := by
  rcases parseU64_cases s 0 with ⟨n, read, digits, value⟩ | ⟨st, read, refused, apart⟩
  · rw [parseMagnitude_ok read, value]
    by_cases beyond : magnitudeLimit negative < n
    · rw [if_pos beyond]
      exact .inr ⟨_, rfl, rfl, fun both => magnitudeLimit_iff.mpr both.2 beyond⟩
    · rw [if_neg beyond]
      exact .inl ⟨_, rfl, digits, signedWord_toInt beyond⟩
  · refine .inr ⟨st, ?_, refused, ?_⟩
    · have run : parseU64Over .wrapping s 0 = (st, 0) := read
      rw [parseMagnitude, run]
      exact if_pos refused
    · rintro ⟨digits, low, high⟩
      refine apart ⟨digits, ?_⟩
      cases negative with
      | false => simp only [signed, Bool.false_eq_true, if_false] at high; omega
      | true => simp only [signed, if_true] at low; omega

theorem parseMagnitude_checked (s : Bytes) (out : Int64) :
    parseMagnitude .checked negative s out = some (Id.run (parseMagnitude .wrapping negative s out)) := by
  rw [parseMagnitude, parseU64Over_checked]
  rcases parseU64_cases s 0 with ⟨n, read, -, -⟩ | ⟨st, read, refused, -⟩
  · rw [parseMagnitude_ok read, read]
    have narrow : n.toNat < 2 ^ 63 → Machine.checked.narrow n = some n.toInt64 := fun h => if_pos h
    by_cases beyond : magnitudeLimit negative < n
    · rw [if_pos beyond]
      cases negative with
      | false => exact if_pos beyond
      | true => exact if_pos beyond
    have bound := Nat.not_lt.mp (mt UInt64.lt_iff_toNat_lt.mpr beyond)
    rw [magnitudeLimit_toNat] at bound
    rw [if_neg beyond]
    cases negative with
    | false =>
      have small : n.toNat < 2 ^ 63 := by
        simp only [Bool.false_eq_true, if_false] at bound
        omega
      refine (if_neg beyond).trans ?_
      rw [narrow small]
      rfl
    | true =>
      refine (if_neg beyond).trans ?_
      by_cases lowest : n = magnitudeLimit true
      · rw [signedWord, if_pos rfl, if_pos lowest]
        exact if_pos lowest
      · have differ : n.toNat ≠ 2 ^ 63 := fun same => lowest (UInt64.toNat_inj.mp same)
        simp only [if_true] at bound
        have small : n.toNat < 2 ^ 63 := by omega
        have negate : Machine.checked.neg n.toInt64 = some (-n.toInt64) := by
          refine if_pos ?_
          rw [toInt64_toInt small]
          omega
        rw [signedWord, if_pos rfl, if_neg lowest]
        refine (if_neg lowest).trans ?_
        rw [narrow small]
        exact congrArg (Option.bind · fun value => some (Status.ok, value)) negate
  · have run : parseU64Over .wrapping s 0 = (st, 0) := read
    rw [parseMagnitude, run, read]
    refine (if_pos refused).trans (congrArg some ?_)
    exact (if_pos refused).symm

end Magnitude

/-- Whether a minus stands in front, and what follows the sign. -/
def stripSign : Bytes → Bool × Bytes
  | [] => (false, [])
  | c :: rest =>
    if c = 45 then (true, rest) else if c = 43 then (false, rest) else (false, c :: rest)

/-- A sign with nothing behind it is refused as the empty magnitude is. -/
theorem parseI64Over_eq {m : Type → Type} [Monad m] (M : Machine m)
    (empty : ∀ negative out, parseMagnitude M negative [] out =
      pure (.make .invalid .emptyValue, out))
    (s : Bytes) (out : Int64) :
    parseI64Over M s out = parseMagnitude M (stripSign s).1 (stripSign s).2 out := by
  cases s with
  | nil => exact (empty false out).symm
  | cons c rest =>
    rw [parseI64Over, stripSign]
    by_cases minus : c = 45
    · rw [if_pos minus, if_pos minus]
      split
      · rename_i bare
        rw [bare]
        exact (empty true out).symm
      · rfl
    · rw [if_neg minus, if_neg minus]
      by_cases plus : c = 43
      · rw [if_pos plus, if_pos plus]
        split
        · rename_i bare
          rw [bare]
          exact (empty false out).symm
        · rfl
      · rw [if_neg plus, if_neg plus]

theorem parseI64_eq (s : Bytes) (out : Int64) :
    parseI64 s out = Id.run (parseMagnitude .wrapping (stripSign s).1 (stripSign s).2 out) :=
  parseI64Over_eq .wrapping (fun _ _ => rfl) s out

theorem parseI64Over_checked (s : Bytes) (out : Int64) :
    parseI64Over .checked s out = some (parseI64 s out) := by
  rw [parseI64Over_eq .checked (fun _ _ => rfl), parseMagnitude_checked, parseI64_eq]

theorem denotes_iff {s : Bytes} {z : Int} : Denotes s z ↔
    Digits (stripSign s).2 ∧ z = signed (stripSign s).1 (decimal (stripSign s).2) := by
  constructor
  · rintro (digits | digits | digits)
    · have unsigned : stripSign s = (false, s) := by
        cases s with
        | nil => rfl
        | cons c rest =>
          have first := digits.digits c List.mem_cons_self
          have minus : c ≠ 45 := by rintro rfl; exact absurd first.1 (by decide)
          have plus : c ≠ 43 := by rintro rfl; exact absurd first.1 (by decide)
          rw [stripSign, if_neg minus, if_neg plus]
      rw [unsigned]
      exact ⟨digits, rfl⟩
    · exact ⟨digits, rfl⟩
    · exact ⟨digits, rfl⟩
  · cases s with
    | nil => exact fun both => absurd rfl both.1.filled
    | cons c rest =>
      rintro ⟨digits, rfl⟩
      by_cases minus : c = 45
      · have stripped : stripSign (c :: rest) = (true, rest) := if_pos minus
        rw [stripped] at digits ⊢
        subst minus
        exact .minus digits
      by_cases plus : c = 43
      · have stripped : stripSign (c :: rest) = (false, rest) :=
          (if_neg minus).trans (if_pos plus)
        rw [stripped] at digits ⊢
        subst plus
        exact .plus digits
      · have stripped : stripSign (c :: rest) = (false, c :: rest) :=
          (if_neg minus).trans (if_neg plus)
        rw [stripped] at digits ⊢
        exact .plain digits

theorem parseI64_cases (s : Bytes) (out : Int64) :
    (∃ value, parseI64 s out = (.ok, value) ∧ Denotes s value.toInt) ∨
    (∃ st, parseI64 s out = (st, out) ∧ st.isOk = false ∧
      ∀ z, Denotes s z → ¬ (-2 ^ 63 ≤ z ∧ z < 2 ^ 63)) := by
  rw [parseI64_eq]
  rcases @parseMagnitude_cases (stripSign s).1 (stripSign s).2 out with
    ⟨value, run, digits, same⟩ | ⟨st, run, refused, apart⟩
  · exact .inl ⟨value, run, denotes_iff.mpr ⟨digits, same⟩⟩
  · refine .inr ⟨st, run, refused, fun z denoted within => apart ?_⟩
    obtain ⟨digits, rfl⟩ := denotes_iff.mp denoted
    exact ⟨digits, within⟩

theorem Denotes.unique {s : Bytes} {z z' : Int} (denoted : Denotes s z) (denoted' : Denotes s z') :
    z = z' := (denotes_iff.mp denoted).2.trans (denotes_iff.mp denoted').2.symm

theorem integers_read_exactly :
    (∀ s out,
      ((parseU64 s out).1.isOk = true ↔ Digits s ∧ decimal s < 2 ^ 64) ∧
      ((parseU64 s out).1.isOk = true → (parseU64 s out).2.toNat = decimal s) ∧
      ((parseU64 s out).1.isOk = false → (parseU64 s out).2 = out) ∧
      parseU64Over .checked s out = some (parseU64 s out)) ∧
    ∀ s out,
      ((parseI64 s out).1.isOk = true ↔ ∃ z, Denotes s z ∧ -2 ^ 63 ≤ z ∧ z < 2 ^ 63) ∧
      (∀ z, (parseI64 s out).1.isOk = true → Denotes s z → (parseI64 s out).2.toInt = z) ∧
      ((parseI64 s out).1.isOk = false → (parseI64 s out).2 = out) ∧
      parseI64Over .checked s out = some (parseI64 s out) := by
  constructor
  · intro s out
    refine ⟨?_, ?_, ?_, parseU64Over_checked s out⟩ <;>
      rcases parseU64_cases s out with ⟨value, read, digits, same⟩ | ⟨st, read, refused, apart⟩ <;>
      rw [read]
    · exact iff_of_true rfl ⟨digits, same ▸ value.toNat_lt⟩
    · exact iff_of_false (by simp [refused]) apart
    · exact fun _ => same.symm
    · exact fun ok => absurd ok (by simp [refused])
    · nofun
    · exact fun _ => rfl
  · intro s out
    refine ⟨?_, ?_, ?_, parseI64Over_checked s out⟩ <;>
      rcases parseI64_cases s out with ⟨value, read, denoted⟩ | ⟨st, read, refused, apart⟩ <;>
      rw [read]
    · exact iff_of_true rfl ⟨value.toInt, denoted, value.le_toInt, value.toInt_lt⟩
    · exact iff_of_false (by simp [refused]) fun ⟨z, denoted, within⟩ => apart z denoted within
    · exact fun z _ denoted' => denoted.unique denoted'
    · exact fun z ok => absurd ok (by simp [refused])
    · nofun
    · exact fun _ => rfl

end Text
end SplitBrainFabric
