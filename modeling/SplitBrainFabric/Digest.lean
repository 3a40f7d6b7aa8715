import SplitBrainFabric.Status

/-! CRC-32C and SHA-256 as the source computes them. The results below treat both
as functions of the bytes; they are executable so that concrete runs can be evaluated. -/

namespace SplitBrainFabric
open Words

def crcBit (crc : UInt32) : UInt32 :=
  if crc &&& 1 ≠ 0 then (crc >>> 1) ^^^ 0x82F63B78 else crc >>> 1

/-- Entry `i` of the reflected Castagnoli table. -/
def crcTableEntry (i : UInt32) : UInt32 :=
  crcBit (crcBit (crcBit (crcBit (crcBit (crcBit (crcBit (crcBit i)))))))

def crcByte (crc : UInt32) (b : UInt8) : UInt32 :=
  crcTableEntry ((crc ^^^ b.toUInt32) &&& 0xFF) ^^^ (crc >>> 8)

def crcLoop : Bytes → UInt32 → UInt32
  | [], crc => crc
  | b :: rest, crc => forced (crcByte crc b).toNat fun next => crcLoop rest (UInt32.ofNat next)

structure Crc32cBuilder where
  state : UInt32 := 0

def Crc32cBuilder.update (c : Crc32cBuilder) (data : Bytes) : Crc32cBuilder :=
  ⟨crcLoop data (c.state ^^^ 0xFFFFFFFF) ^^^ 0xFFFFFFFF⟩

@[irreducible] def crc32c (data : Bytes) : UInt32 := (Crc32cBuilder.update {} data).state

structure Digest256 where
  bytes : Bytes
  size : bytes.length = 32
  deriving DecidableEq

namespace Digest256

theorem ext {a b : Digest256} (bytes : a.bytes = b.bytes) : a = b := by
  cases a; cases b; cases bytes; rfl

def zero : Digest256 := ⟨List.replicate 32 0, by simp⟩

instance : Inhabited Digest256 := ⟨zero⟩

def hexDigit (n : UInt8) : UInt8 := if n < 10 then 48 + n else 87 + n

def hex (d : Digest256) : Bytes :=
  d.bytes.flatMap fun (b : UInt8) => [hexDigit (b >>> 4), hexDigit (b &&& 15)]

/-- The value of a hex digit. -/
def unhex (c : UInt8) : UInt8 := if c < 58 then c - 48 else c - 87

theorem unhex_hex (b : UInt8) :
    unhex (hexDigit (b >>> 4)) * 16 + unhex (hexDigit (b &&& 15)) = b := by
  have all : ∀ n : Fin 256, unhex (hexDigit (UInt8.ofFin n >>> 4)) * 16 +
      unhex (hexDigit (UInt8.ofFin n &&& 15)) = UInt8.ofFin n := by decide +kernel
  have here := all b.toFin
  rwa [UInt8.ofFin_toFin] at here

theorem hex_injective {a b : Digest256} (same : a.hex = b.hex) : a = b := by
  have general : ∀ l l' : Bytes,
      (l.flatMap fun (b : UInt8) => [hexDigit (b >>> 4), hexDigit (b &&& 15)]) =
        (l'.flatMap fun (b : UInt8) => [hexDigit (b >>> 4), hexDigit (b &&& 15)]) → l = l' := by
    intro l
    induction l with
    | nil =>
      intro l' same
      cases l' with
      | nil => rfl
      | cons y rest => cases same
    | cons x rest ih =>
      intro l' same
      cases l' with
      | nil => cases same
      | cons y rest' =>
        simp only [List.flatMap_cons, List.cons_append, List.nil_append, List.cons.injEq] at same
        obtain ⟨high, low, tails⟩ := same
        rw [← unhex_hex x, high, low, unhex_hex y, ih rest' tails]
  exact ext (general a.bytes b.bytes same)

def hexNibble (c : UInt8) : Option UInt8 :=
  if 48 ≤ c ∧ c ≤ 57 then some (c - 48)
  else if 97 ≤ c ∧ c ≤ 102 then some (c - 97 + 10)
  else if 65 ≤ c ∧ c ≤ 70 then some (c - 65 + 10)
  else none

def digitAt (position : Nat) (c : UInt8) : Except Status UInt8 :=
  match hexNibble c with
  | some digit => .ok digit
  | none => .error (.make .invalid .idCharset (UInt64.ofNat position))

/-- A byte for every two digits; the first of them stands at `position`. -/
def parsePairs : Nat → Bytes → Except Status Bytes
  | position, x :: y :: rest => do
    let high ← digitAt position x
    let low ← digitAt (position + 1) y
    let bytes ← parsePairs (position + 2) rest
    pure (((high <<< 4) ||| low) :: bytes)
  | _, _ => pure []

theorem parsePairs_length {n position : Nat} {l bytes : Bytes} (size : l.length = 2 * n)
    (parsed : parsePairs position l = .ok bytes) : bytes.length = n := by
  induction n generalizing position l bytes with
  | zero =>
    rw [List.length_eq_zero_iff.mp size] at parsed
    cases parsed
    rfl
  | succ n ih =>
    match l with
    | [] | [_] => simp only [List.length_cons, List.length_nil] at size; omega
    | x :: y :: rest =>
      have shorter : rest.length = 2 * n := by
        simp only [List.length_cons] at size
        omega
      unfold parsePairs at parsed
      cases high : digitAt position x with
      | error st => rw [high] at parsed; cases parsed
      | ok a =>
        cases low : digitAt (position + 1) y with
        | error st => rw [high, low] at parsed; cases parsed
        | ok b =>
          cases later : parsePairs (position + 2) rest with
          | error st => rw [high, low, later] at parsed; cases parsed
          | ok tail =>
            rw [high, low, later] at parsed
            cases parsed
            exact congrArg (· + 1) (ih shorter later)

/-- `out` is what the caller's digest was. -/
def parse (hex : Bytes) (out : Digest256) : Status × Digest256 :=
  if size : hex.length = 64 then
    match parsed : parsePairs 0 hex with
    | .error st => (st, out)
    | .ok bytes => (.ok, ⟨bytes, parsePairs_length (n := 32) size parsed⟩)
  else (.make .invalid .valueOutOfRange (UInt64.ofNat hex.length), out)

theorem digits_of_byte (b : UInt8) : hexNibble (hexDigit (b >>> 4)) = some (b >>> 4) ∧
    hexNibble (hexDigit (b &&& 15)) = some (b &&& 15) ∧ ((b >>> 4) <<< 4) ||| (b &&& 15) = b := by
  have all : ∀ n : Fin 256,
      hexNibble (hexDigit (UInt8.ofFin n >>> 4)) = some (UInt8.ofFin n >>> 4) ∧
      hexNibble (hexDigit (UInt8.ofFin n &&& 15)) = some (UInt8.ofFin n &&& 15) ∧
      ((UInt8.ofFin n >>> 4) <<< 4) ||| (UInt8.ofFin n &&& 15) = UInt8.ofFin n := by decide +kernel
  have here := all b.toFin
  rwa [UInt8.ofFin_toFin] at here

theorem parsePairs_hex (l : Bytes) (position : Nat) :
    parsePairs position (l.flatMap fun (b : UInt8) => [hexDigit (b >>> 4), hexDigit (b &&& 15)]) =
      .ok l := by
  induction l generalizing position with
  | nil => rfl
  | cons b rest ih =>
    obtain ⟨high, low, whole⟩ := digits_of_byte b
    have first : digitAt position (hexDigit (b >>> 4)) = .ok (b >>> 4) := by rw [digitAt, high]
    have second : digitAt (position + 1) (hexDigit (b &&& 15)) = .ok (b &&& 15) := by
      rw [digitAt, low]
    rw [List.flatMap_cons, List.cons_append, List.cons_append, List.nil_append, parsePairs, first,
      second, ih]
    exact congrArg (fun x => Except.ok (x :: rest)) whole

theorem hex_length (d : Digest256) : d.hex.length = 64 := by
  have two : ∀ l : Bytes, (l.flatMap fun (b : UInt8) =>
      [hexDigit (b >>> 4), hexDigit (b &&& 15)]).length = 2 * l.length := by
    intro l
    induction l with
    | nil => rfl
    | cons b rest ih =>
      rw [List.flatMap_cons, List.length_append, ih, List.length_cons]
      simp only [List.length_cons, List.length_nil]
      omega
  rw [hex, two, d.size]

theorem parse_hex (d out : Digest256) : parse d.hex out = (.ok, d) := by
  have pairs : parsePairs 0 d.hex = .ok d.bytes := parsePairs_hex d.bytes 0
  rw [parse, dif_pos d.hex_length]
  split
  · rename_i st parsed
    rw [pairs] at parsed
    cases parsed
  · rename_i bytes parsed
    rw [pairs] at parsed
    cases parsed
    rfl

end Digest256

def rotateRight (value count : UInt32) : UInt32 := (value >>> count) ||| (value <<< (32 - count))

def sha256K : List UInt32 := [
  0x428a2f98, 0x71374491, 0xb5c0fbcf, 0xe9b5dba5, 0x3956c25b, 0x59f111f1, 0x923f82a4,
  0xab1c5ed5, 0xd807aa98, 0x12835b01, 0x243185be, 0x550c7dc3, 0x72be5d74, 0x80deb1fe,
  0x9bdc06a7, 0xc19bf174, 0xe49b69c1, 0xefbe4786, 0x0fc19dc6, 0x240ca1cc, 0x2de92c6f,
  0x4a7484aa, 0x5cb0a9dc, 0x76f988da, 0x983e5152, 0xa831c66d, 0xb00327c8, 0xbf597fc7,
  0xc6e00bf3, 0xd5a79147, 0x06ca6351, 0x14292967, 0x27b70a85, 0x2e1b2138, 0x4d2c6dfc,
  0x53380d13, 0x650a7354, 0x766a0abb, 0x81c2c92e, 0x92722c85, 0xa2bfe8a1, 0xa81a664b,
  0xc24b8b70, 0xc76c51a3, 0xd192e819, 0xd6990624, 0xf40e3585, 0x106aa070, 0x19a4c116,
  0x1e376c08, 0x2748774c, 0x34b0bcb5, 0x391c0cb3, 0x4ed8aa4a, 0x5b9cca4f, 0x682e6ff3,
  0x748f82ee, 0x78a5636f, 0x84c87814, 0x8cc70208, 0x90befffa, 0xa4506ceb, 0xbef9a3f7,
  0xc67178f2]

structure ShaState where
  a : UInt32 := 0x6a09e667
  b : UInt32 := 0xbb67ae85
  c : UInt32 := 0x3c6ef372
  d : UInt32 := 0xa54ff53a
  e : UInt32 := 0x510e527f
  f : UInt32 := 0x9b05688c
  g : UInt32 := 0x1f83d9ab
  h : UInt32 := 0x5be0cd19

namespace ShaState

def bigEndianWords : Bytes → List UInt32
  | p :: q :: r :: s :: rest =>
    ((p.toUInt32 <<< 24) ||| (q.toUInt32 <<< 16) ||| (r.toUInt32 <<< 8) ||| s.toUInt32) ::
      bigEndianWords rest
  | _ => []

/-- One more word of the message schedule per turn; the latest word comes first. -/
def schedule : Nat → List UInt32 → List UInt32
  | 0, w => w.reverse
  | n + 1, w =>
    let back := fun k => w.getD (k - 1) 0
    let s0 := rotateRight (back 15) 7 ^^^ rotateRight (back 15) 18 ^^^ (back 15 >>> 3)
    let s1 := rotateRight (back 2) 17 ^^^ rotateRight (back 2) 19 ^^^ (back 2 >>> 10)
    forced (back 16 + s0 + back 7 + s1).toNat fun next => schedule n (UInt32.ofNat next :: w)

def rounds : List (UInt32 × UInt32) → ShaState → ShaState
  | [], s => s
  | (k, w) :: rest, s =>
    let s1 := rotateRight s.e 6 ^^^ rotateRight s.e 11 ^^^ rotateRight s.e 25
    let ch := (s.e &&& s.f) ^^^ (~~~s.e &&& s.g)
    let s0 := rotateRight s.a 2 ^^^ rotateRight s.a 13 ^^^ rotateRight s.a 22
    let maj := (s.a &&& s.b) ^^^ (s.a &&& s.c) ^^^ (s.b &&& s.c)
    let temp2 := s0 + maj
    forced (s.h + s1 + ch + k + w).toNat fun temp1 =>
      forced (UInt32.ofNat temp1 + temp2).toNat fun a =>
        forced (s.d + UInt32.ofNat temp1).toNat fun e =>
          rounds rest ⟨UInt32.ofNat a, s.a, s.b, s.c, UInt32.ofNat e, s.e, s.f, s.g⟩

def compress (s : ShaState) (block : Bytes) : ShaState :=
  let r := rounds (sha256K.zip (schedule 48 (bigEndianWords block).reverse)) s
  ⟨s.a + r.a, s.b + r.b, s.c + r.c, s.d + r.d, s.e + r.e, s.f + r.f, s.g + r.g, s.h + r.h⟩

def wordBytes (w : UInt32) : Bytes :=
  [(w >>> 24).toUInt8, (w >>> 16).toUInt8, (w >>> 8).toUInt8, w.toUInt8]

def digestBytes (s : ShaState) : Bytes :=
  wordBytes s.a ++ wordBytes s.b ++ wordBytes s.c ++ wordBytes s.d ++
    wordBytes s.e ++ wordBytes s.f ++ wordBytes s.g ++ wordBytes s.h

end ShaState

structure Sha256Builder where
  state : ShaState := {}
  buffer : Bytes := []
  bitLength : UInt64 := 0

namespace Sha256Builder

/-- The copying loop of `update`; every turn takes at least one byte, so the
number of bytes bounds the number of turns. -/
def absorb : Nat → Sha256Builder → Bytes → Sha256Builder
  | 0, builder, _ => builder
  | turns + 1, builder, data =>
    if data = [] then builder
    else
      let taken := min data.length (64 - builder.buffer.length)
      let buffer := builder.buffer ++ data.take taken
      let next := if buffer.length = 64
        then { builder with state := builder.state.compress buffer, buffer := [] }
        else { builder with buffer := buffer }
      absorb turns next (data.drop taken)

def update (builder : Sha256Builder) (data : Bytes) : Sha256Builder :=
  absorb data.length
    { builder with bitLength := builder.bitLength + UInt64.ofNat data.length * 8 } data

def lengthBytes (bits : UInt64) : Bytes :=
  [(bits >>> 56).toUInt8, (bits >>> 48).toUInt8, (bits >>> 40).toUInt8, (bits >>> 32).toUInt8,
    (bits >>> 24).toUInt8, (bits >>> 16).toUInt8, (bits >>> 8).toUInt8, bits.toUInt8]

def finish (builder : Sha256Builder) : Digest256 :=
  let marked := builder.buffer ++ [0x80]
  let (state, buffer) := if 56 < marked.length
    then (builder.state.compress (marked ++ List.replicate (64 - marked.length) 0), [])
    else (builder.state, marked)
  let last := buffer ++ List.replicate (56 - buffer.length) 0 ++ lengthBytes builder.bitLength
  ⟨(state.compress last).digestBytes, by simp [ShaState.digestBytes, ShaState.wordBytes]⟩

end Sha256Builder

@[irreducible] def Digest256.of (data : Bytes) : Digest256 := (Sha256Builder.update {} data).finish

end SplitBrainFabric
