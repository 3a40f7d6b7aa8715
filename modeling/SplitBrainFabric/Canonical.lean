import SplitBrainFabric.Digest
import SplitBrainFabric.Ids
import SplitBrainFabric.Library.Decoder

/-! The canonical encoding: fixed little-endian fields, counted texts and blobs. A
writer is the bytes it appends, a reader is a decoder that may refuse. -/

namespace SplitBrainFabric
open Words

namespace Writer

def u8 (v : UInt8) : Bytes := [v]
def u16 (v : UInt16) : Bytes := putLE 2 v.toNat
def u32 (v : UInt32) : Bytes := putLE 4 v.toNat
def u64 (v : UInt64) : Bytes := putLE 8 v.toNat
def i64 (v : Int64) : Bytes := u64 v.toUInt64
def boolean (v : Bool) : Bytes := u8 (if v then 1 else 0)
def text (v : Bytes) : Bytes := u16 (UInt16.ofNat v.length) ++ v
def blob (v : Bytes) : Bytes := u32 (UInt32.ofNat v.length) ++ v
def digest (v : Digest256) : Bytes := v.bytes
def outcome (v : Outcome) : Bytes := u16 v.code
def reason (v : Reason) : Bytes := u16 v.code

def sequence {α : Type} (item : α → Bytes) (xs : List α) : Bytes :=
  u32 (UInt32.ofNat xs.length) ++ xs.flatMap item

@[simp] theorem u8_length (v : UInt8) : (u8 v).length = 1 := rfl
@[simp] theorem u16_length (v : UInt16) : (u16 v).length = 2 := rfl
@[simp] theorem u32_length (v : UInt32) : (u32 v).length = 4 := rfl
@[simp] theorem u64_length (v : UInt64) : (u64 v).length = 8 := rfl
@[simp] theorem i64_length (v : Int64) : (i64 v).length = 8 := rfl
@[simp] theorem boolean_length (v : Bool) : (boolean v).length = 1 := rfl
@[simp] theorem text_length (v : Bytes) : (text v).length = 2 + v.length := by simp [text]
@[simp] theorem blob_length (v : Bytes) : (blob v).length = 4 + v.length := by simp [blob]
@[simp] theorem digest_length (v : Digest256) : (digest v).length = 32 := v.size
@[simp] theorem outcome_length (v : Outcome) : (outcome v).length = 2 := rfl
@[simp] theorem reason_length (v : Reason) : (reason v).length = 2 := rfl

end Writer

namespace Reader

abbrev Read := Decoder Status

def short (offset : Nat) : Status := .make .invalid .truncatedFrame (UInt64.ofNat offset)

def garbage (remaining : Nat) : Status := .make .invalid .trailingGarbage (UInt64.ofNat remaining)

def take (n : Nat) : Read Bytes := Decoder.take short n

def u8 : Read UInt8 := do
  let raw ← take 1
  pure (raw.headD 0)

def u16 : Read UInt16 := do
  let raw ← take 2
  pure (UInt16.ofNat (getLE raw))

def u32 : Read UInt32 := do
  let raw ← take 4
  pure (UInt32.ofNat (getLE raw))

/-- Read as two halves, so a short input is reported at the half it ends in. -/
def u64 : Read UInt64 := do
  let low ← take 4
  let high ← take 4
  pure (UInt64.ofNat (getLE (low ++ high)))

def i64 : Read Int64 := do
  let raw ← u64
  pure raw.toInt64

def boolean : Read Bool := do
  let raw ← u8
  if 1 < raw then throw (.make .invalid .invalidEnum raw.toUInt64)
  else pure (raw == 1)

def text : Read Bytes := do
  let length ← u16
  take length.toNat

def blob : Read Bytes := do
  let length ← u32
  if Limits.maxSnapshotBytes < length.toNat then
    throw (.make .invalid .impossibleLength (UInt64.ofNat length.toNat))
  else take length.toNat

def digest : Read Digest256 := do
  let raw ← take 32
  if size : raw.length = 32 then pure ⟨raw, size⟩ else throw (short 0)

def outcome : Read Outcome := do
  let raw ← u16
  match outcomeFromCode raw with
  | some o => pure o
  | none => throw (.make .invalid .invalidEnum (UInt64.ofNat raw.toNat))

def reason : Read Reason := do
  let raw ← u16
  match reasonFromCode raw with
  | some r => pure r
  | none => throw (.make .invalid .invalidEnum (UInt64.ofNat raw.toNat))

def count (bound : Nat) : Read Nat := do
  let raw ← u32
  if bound < raw.toNat then
    throw (.make .exhausted .impossibleLength (UInt64.ofNat raw.toNat))
  else do
    let left ← Decoder.remaining
    if left < raw.toNat then
      throw (.make .invalid .impossibleLength (UInt64.ofNat raw.toNat))
    else pure raw.toNat

/-- A count within the bound and that many elements. -/
def sequence {α : Type} (bound : Nat) (item : Read α) : Read (List α) := do
  let n ← count bound
  Decoder.repeatM item n

def idOf {tag : IdTag} (outcome : Outcome) (value : Bytes) : Read (Id tag) :=
  match Id.tryMake value with
  | some id => pure id
  | none => throw (.make outcome .idCharset)

/-- A text that must be an identifier; the outcome of the refusal is the caller's. -/
def identifier {tag : IdTag} (outcome : Outcome) : Read (Id tag) := do
  let value ← text
  idOf outcome value

/-- A text that may also name nothing. -/
def optionalId {tag : IdTag} (outcome : Outcome) : Read (Id tag) := do
  let value ← text
  if value = [] then pure Id.empty else idOf outcome value

/-- A code that must belong to some value of an enumeration. -/
def enum {α : Type} (fromCode : UInt16 → Option α) : Read α := do
  let raw ← u16
  match fromCode raw with
  | some value => pure value
  | none => throw (.make .invalid .invalidEnum (UInt64.ofNat raw.toNat))

/-- A counted blob handed to a nested reader that must use all of it. -/
def nested {α : Type} (item : Read α) : Read α := do
  let bytes ← blob
  Decoder.ofExcept (Decoder.whole garbage item bytes)

def decode {α : Type} (item : Read α) (bytes : Bytes) : Except Status α :=
  Decoder.whole garbage item bytes

end Reader

open Decoder (Reads Agrees)

theorem reads_take {bytes : Bytes} {n : Nat} (size : bytes.length = n) :
    Reads (Reader.take n) bytes bytes := Reads.take size

theorem reads_u8 (v : UInt8) : Reads Reader.u8 (Writer.u8 v) v := by
  have h := (reads_take (Writer.u8_length v)).last (f := fun raw => raw.headD 0)
  exact h

theorem reads_u16 (v : UInt16) : Reads Reader.u16 (Writer.u16 v) v := by
  have h := (reads_take (putLE_length 2 v.toNat)).last (f := fun raw => UInt16.ofNat (getLE raw))
  rwa [getLE_put16] at h

theorem reads_u32 (v : UInt32) : Reads Reader.u32 (Writer.u32 v) v := by
  have h := (reads_take (putLE_length 4 v.toNat)).last (f := fun raw => UInt32.ofNat (getLE raw))
  rwa [getLE_put32] at h

theorem reads_u64 (v : UInt64) : Reads Reader.u64 (Writer.u64 v) v := by
  have split : Writer.u64 v =
      (putLE 8 v.toNat).take 4 ++ ((putLE 8 v.toNat).drop 4 ++ []) := by
    rw [List.append_nil, List.take_append_drop]; rfl
  rw [split]
  refine (reads_take (by simp)).bind ((reads_take (by simp)).bind ?_)
  rw [List.take_append_drop, getLE_put64]
  exact Reads.pure v

theorem reads_boolean (v : Bool) : Reads Reader.boolean (Writer.boolean v) v := by
  rw [← List.append_nil (Writer.boolean v)]
  refine (reads_u8 _).bind ?_
  cases v
  · exact Reads.pure false
  · exact Reads.pure true

theorem reads_text {v : Bytes} (fits : v.length < 65536) :
    Reads Reader.text (Writer.text v) v := by
  refine (reads_u16 _).bind (reads_take ?_)
  rw [UInt16.toNat_ofNat', Nat.mod_eq_of_lt fits]

theorem reads_blob {v : Bytes} (fits : v.length ≤ Limits.maxSnapshotBytes) :
    Reads Reader.blob (Writer.blob v) v := by
  have small : v.length < 2 ^ 32 := by
    simp only [Limits.maxSnapshotBytes] at fits
    omega
  have value : (UInt32.ofNat v.length).toNat = v.length := by
    rw [UInt32.toNat_ofNat', Nat.mod_eq_of_lt small]
  refine (reads_u32 _).bind ?_
  rw [value, if_neg (by omega)]
  exact reads_take rfl

@[simp] theorem blob_inj {a b : Bytes} : Writer.blob a = Writer.blob b ↔ a = b := by
  constructor
  · intro same
    exact (List.append_inj same rfl).2
  · rintro rfl
    rfl

theorem blob_ne_nil (bytes : Bytes) : Writer.blob bytes ≠ [] := by
  intro h
  have size := Writer.blob_length bytes
  rw [h, List.length_nil] at size
  omega

theorem reads_digest (v : Digest256) : Reads Reader.digest (Writer.digest v) v := by
  rw [← List.append_nil (Writer.digest v)]
  refine (reads_take v.size).bind ?_
  rw [dif_pos v.size]
  exact Reads.pure v

theorem reads_outcome (v : Outcome) : Reads Reader.outcome (Writer.outcome v) v := by
  rw [← List.append_nil (Writer.outcome v)]
  refine (reads_u16 _).bind ?_
  rw [outcomeFromCode_code]
  exact Reads.pure v

theorem reads_reason (v : Reason) : Reads Reader.reason (Writer.reason v) v := by
  rw [← List.append_nil (Writer.reason v)]
  refine (reads_u16 _).bind ?_
  rw [reasonFromCode_code]
  exact Reads.pure v

theorem reads_idText {tag : IdTag} (id : Id tag) :
    Reads Reader.text (Writer.text id.value) id.value := by
  have h := id.length_le
  exact reads_text (by omega)

theorem reads_idOf {tag : IdTag} {o : Outcome} {id : Id tag} (named : id.isEmpty = false) :
    Reads (Reader.idOf o id.value) [] id := by
  rw [Reader.idOf, Id.tryMake_value named]
  exact Reads.pure id

theorem agrees_idOf {tag : IdTag} (o : Outcome) (id : Id tag) :
    Agrees (Reader.idOf o id.value) [] id := by
  cases named : id.isEmpty with
  | false => exact (reads_idOf named).agrees
  | true =>
    obtain rfl := Id.isEmpty_iff.mp named
    exact Agrees.fails Id.empty (e := .make o .idCharset) fun n rest => rfl

theorem reads_identifier {tag : IdTag} {o : Outcome} {id : Id tag} (named : id.isEmpty = false) :
    Reads (Reader.identifier o) (Writer.text id.value) id := by
  rw [← List.append_nil (Writer.text id.value)]
  exact (reads_idText id).bind (reads_idOf named)

theorem idOf_yields {tag : IdTag} (o : Outcome) (value : Bytes) :
    Decoder.Yields (Reader.idOf o value : Reader.Read (Id tag)) (·.isEmpty = false) := by
  unfold Reader.idOf
  cases made : (Id.tryMake value : Option (Id tag)) with
  | none => intro c a c' ran; cases ran
  | some id => exact .pure (Id.tryMake_isEmpty made)

theorem identifier_yields {tag : IdTag} (o : Outcome) :
    Decoder.Yields (Reader.identifier o : Reader.Read (Id tag)) (·.isEmpty = false) :=
  .skip fun value => idOf_yields o value

theorem agrees_identifier {tag : IdTag} (o : Outcome) (id : Id tag) :
    Agrees (Reader.identifier o) (Writer.text id.value) id := by
  rw [← List.append_nil (Writer.text id.value)]
  exact (reads_idText id).agrees.bind (agrees_idOf o id)

theorem reads_nested {α : Type} {item : Reader.Read α} {image : Bytes} {a : α}
    (fits : image.length ≤ Limits.maxSnapshotBytes) (reads : Reads item image a) :
    Reads (Reader.nested item) (Writer.blob image) a := by
  rw [← List.append_nil (Writer.blob image)]
  refine (reads_blob fits).bind ?_
  rw [reads.whole]
  exact Reads.pure a

theorem agrees_nested {α : Type} {item : Reader.Read α} {image : Bytes} {a : α}
    (fits : image.length ≤ Limits.maxSnapshotBytes) (agrees : Agrees item image a) :
    Agrees (Reader.nested item) (Writer.blob image) a := by
  rw [← List.append_nil (Writer.blob image)]
  refine (reads_blob fits).agrees.bind ?_
  intro n rest b c ran
  cases inner : Decoder.whole Reader.garbage item image with
  | error e => rw [inner] at ran; cases ran
  | ok x =>
    obtain rfl := agrees.whole inner
    rw [inner] at ran
    cases ran
    exact ⟨rfl, rfl⟩

section Sequences

variable {α : Type} {item : Reader.Read α} {image : α → Bytes} {xs : List α} {bound : Nat}

theorem count_run {k : Nat} {tail : Bytes} (n : Nat) (within : k ≤ bound)
    (small : bound < 2 ^ 32) (enough : k ≤ tail.length) :
    (Reader.count bound).run ⟨n, Writer.u32 (UInt32.ofNat k) ++ tail⟩ =
      .ok (k, ⟨n + 4, tail⟩) := by
  have value : (UInt32.ofNat k).toNat = k := by
    rw [UInt32.toNat_ofNat', Nat.mod_eq_of_lt (by omega)]
  rw [Reader.count, Decoder.run_bind, reads_u32 _ n tail]
  simp only [value, if_neg (Nat.not_lt.mpr within)]
  rw [Decoder.run_bind]
  simp only [Decoder.remaining, StateT.run, if_neg (Nat.not_lt.mpr enough)]
  rfl

theorem length_le_flatMap (filled : ∀ x ∈ xs, image x ≠ []) :
    xs.length ≤ (xs.flatMap image).length := by
  induction xs with
  | nil => simp
  | cons x xs ih =>
    have head := List.length_pos_iff.mpr (filled x List.mem_cons_self)
    have tail := ih fun y member => filled y (List.mem_cons_of_mem x member)
    simp only [List.flatMap_cons, List.length_append, List.length_cons]
    omega

theorem length_flatMap_le (xs : List α) (image : α → Bytes) {k : Nat}
    (each : ∀ x ∈ xs, (image x).length ≤ k) :
    (xs.flatMap image).length ≤ k * xs.length := by
  induction xs with
  | nil => simp
  | cons x xs ih =>
    have head := each x List.mem_cons_self
    have tail := ih fun y member => each y (List.mem_cons_of_mem x member)
    simp only [List.flatMap_cons, List.length_append, List.length_cons, Nat.mul_add]
    omega

theorem sequence_run (n : Nat) (rest : Bytes) (within : xs.length ≤ bound)
    (small : bound < 2 ^ 32) (filled : ∀ x ∈ xs, image x ≠ []) :
    (Reader.sequence bound item).run ⟨n, Writer.sequence image xs ++ rest⟩ =
      (Decoder.repeatM item xs.length).run ⟨n + 4, xs.flatMap image ++ rest⟩ := by
  have enough : xs.length ≤ (xs.flatMap image ++ rest).length := by
    have h := length_le_flatMap filled
    rw [List.length_append]
    omega
  rw [Reader.sequence, Decoder.run_bind, Writer.sequence, List.append_assoc,
    count_run n within small enough]

theorem reads_sequence (within : xs.length ≤ bound) (small : bound < 2 ^ 32)
    (filled : ∀ x ∈ xs, image x ≠ []) (each : ∀ x ∈ xs, Reads item (image x) x) :
    Reads (Reader.sequence bound item) (Writer.sequence image xs) xs := by
  intro n rest
  rw [sequence_run n rest within small filled, Reads.repeatM xs each (n + 4) rest]
  simp only [Writer.sequence, List.length_append, Writer.u32_length, Nat.add_assoc]

theorem agrees_sequence (within : xs.length ≤ bound) (small : bound < 2 ^ 32)
    (filled : ∀ x ∈ xs, image x ≠ []) (each : ∀ x ∈ xs, Agrees item (image x) x) :
    Agrees (Reader.sequence bound item) (Writer.sequence image xs) xs := by
  intro n rest b c ran
  rw [sequence_run n rest within small filled] at ran
  obtain ⟨rfl, rfl⟩ := Agrees.repeatM xs each (n + 4) rest b c ran
  simp only [Writer.sequence, List.length_append, Writer.u32_length, Nat.add_assoc, and_self]

theorem count_yields : Decoder.Yields (Reader.count bound) (· ≤ bound) := by
  refine .skip fun raw => ?_
  split
  · intro c a c' ran; cases ran
  · rename_i within
    refine .skip fun left => ?_
    split
    · intro c a c' ran; cases ran
    · exact .pure (Nat.not_lt.mp within)

theorem sequence_yields : Decoder.Yields (Reader.sequence bound item) (·.length ≤ bound) := by
  refine .bind count_yields fun n within => ?_
  intro c xs c' ran
  exact (Decoder.Yields.repeatM item n c xs c' ran).trans_le within

theorem nested_yields {P : α → Prop} (yields : Decoder.Yields item P) :
    Decoder.Yields (Reader.nested item) P := by
  refine .skip fun bytes => ?_
  intro c a c' ran
  cases inner : Decoder.whole Reader.garbage item bytes with
  | error e => rw [inner] at ran; cases ran
  | ok x =>
    rw [inner] at ran
    cases ran
    exact yields.whole inner

end Sequences

end SplitBrainFabric
