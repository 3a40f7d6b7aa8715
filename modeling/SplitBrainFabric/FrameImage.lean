import SplitBrainFabric.Framing

/-! The one-frame decoder, set against the image of the encoder: what is taken off a
stream is an encoded frame, but what stands behind it may be the start of another. -/

namespace SplitBrainFabric
open Words

def onlyFrame : List Frame → Except Status Frame
  | [frame] => .ok frame
  | frames => .error (.make .invalid .truncatedFrame (UInt64.ofNat frames.length))

/-- One frame from a buffer that has to hold one, by a decoder of its own. -/
def decodeFrame (bound : PayloadBound) (bytes : Bytes) : Except Status Frame :=
  let pushed := FrameDecoder.push bytes { bound := bound }
  if pushed.status.isOk = false then .error pushed.status else onlyFrame pushed.frames

/-- What a sender puts in a frame. -/
structure Frame.Sendable (bound : PayloadBound) (f : Frame) : Prop where
  magic : f.header.magic = frameMagic
  version : f.header.version = frameVersion
  fits : f.payload.length ≤ bound.maxPayload.toNat

namespace FrameDecoder

variable {bound : PayloadBound} {buffer rest : Bytes} {f : Frame} {why : Status}

theorem drop_eq (offset width : Nat) (inside : offset + width ≤ buffer.length) :
    buffer.drop offset = putLE width (readAt buffer offset width) ++ buffer.drop (offset + width) := by
  have size : ((buffer.drop offset).take width).length = width := by
    rw [List.length_take, List.length_drop]
    omega
  have field := putLE_getLE ((buffer.drop offset).take width)
  rw [size] at field
  rw [readAt, field, ← List.drop_drop, List.take_append_drop]

theorem readAt_lt (offset width : Nat) : readAt buffer offset width < 256 ^ width := by
  have bound := getLE_bound ((buffer.drop offset).take width)
  have short : ((buffer.drop offset).take width).length ≤ width := List.length_take_le width _
  exact lt_of_lt_of_le bound (Nat.pow_le_pow_right (by decide) short)

theorem u16_readU16 (offset : Nat) :
    Writer.u16 (readU16 buffer offset) = putLE 2 (readAt buffer offset 2) := by
  rw [Writer.u16, readU16, UInt16.toNat_ofNat_of_lt' (readAt_lt offset 2)]

theorem u32_readU32 (offset : Nat) :
    Writer.u32 (readU32 buffer offset) = putLE 4 (readAt buffer offset 4) := by
  rw [Writer.u32, readU32, UInt32.toNat_ofNat_of_lt' (readAt_lt offset 4)]

theorem u64_readU64 (offset : Nat) :
    Writer.u64 (readU64 buffer offset) = putLE 8 (readAt buffer offset 8) := by
  rw [Writer.u64, readU64, UInt64.toNat_ofNat_of_lt' (readAt_lt offset 8)]

/-- The header fields, written back, are the bytes they were read from. -/
theorem header_bytes (full : 32 ≤ buffer.length) : buffer =
    Writer.u32 (readU32 buffer 0) ++ (Writer.u16 (readU16 buffer 4) ++
      (Writer.u16 (readU16 buffer 6) ++ (Writer.u32 (readU32 buffer 8) ++
        (Writer.u64 (readU64 buffer 12) ++ (Writer.u32 (readU32 buffer 20) ++
          (Writer.u32 (readU32 buffer 24) ++ (Writer.u32 (readU32 buffer 28) ++
            buffer.drop 32))))))) := by
  simp only [u16_readU16, u32_readU32, u64_readU64]
  calc
    buffer = buffer.drop 0 := rfl
    _ = _ := by
      rw [drop_eq 0 4 (by omega), drop_eq 4 2 (by omega), drop_eq 6 2 (by omega),
        drop_eq 8 4 (by omega), drop_eq 12 8 (by omega), drop_eq 20 4 (by omega),
        drop_eq 24 4 (by omega), drop_eq 28 4 (by omega)]

theorem fromCode_eq_some {raw : UInt16} {type : MessageType}
    (known : MessageType.fromCode raw = some type) : type.code = raw := by
  have found := List.find?_some known
  exact of_decide_eq_true found

/-- What a header has passed. -/
structure Passed (bound : PayloadBound) (buffer : Bytes) (header : FrameHeader) : Prop where
  fields : header = { readFrameHeader buffer with type := header.type }
  magic : header.magic = frameMagic
  version : header.version = frameVersion
  type : header.type.code = readU16 buffer 6
  allowed : header.payloadLength ≤ bound.maxPayload
  sound : crc32c (buffer.take 24) = header.headerCrc

theorem checkHeader_passed {header : { header : FrameHeader // header.payloadLength ≤ bound.maxPayload }}
    (checked : checkHeader bound buffer = .ok header) : Passed bound buffer header.1 := by
  unfold checkHeader at checked
  simp only at checked
  split at checked
  · cases checked
  · rename_i magic
    split at checked
    · cases checked
    · rename_i version
      split at checked
      · cases checked
      · rename_i type known
        split at checked
        · cases checked
        · split at checked
          · cases checked
          · rename_i sound
            cases checked
            rename_i oversized
            exact ⟨rfl, not_not.mp magic, not_not.mp version, fromCode_eq_some known,
              UInt32.not_lt.mp oversized, not_not.mp sound⟩

theorem checkHeader_refused (checked : checkHeader bound buffer = .error why) : why.isOk = false := by
  unfold checkHeader at checked
  simp only at checked
  split at checked
  · cases checked
    rfl
  · split at checked
    · cases checked
      rfl
    · split at checked
      · cases checked
        rfl
      · split at checked
        · cases checked
          rfl
        · split at checked
          · cases checked
            rfl
          · cases checked

/-- What is short of a header, or passes as a header with a payload that is not all there. -/
def Incomplete (bound : PayloadBound) (buffer : Bytes) : Prop :=
  buffer.length < 32 ∨ ∃ header, checkHeader bound buffer = .ok header ∧
    buffer.length < 32 + header.1.payloadLength.toNat

/-- What one turn of the loop does. -/
inductive Turned (bound : PayloadBound) (buffer : Bytes) : Cut Status Frame buffer → Prop
  | more (waiting : Incomplete bound buffer) : Turned bound buffer .more
  | fail (why : Status) (refused : why.isOk = false) : Turned bound buffer (.fail why)
  | item (f : Frame) (rest : Bytes) (shorter : rest.length < buffer.length)
      (full : ¬ buffer.length < 32) (passed : Passed bound buffer f.header)
      (size : f.payload.length = f.header.payloadLength.toNat)
      (split : buffer.drop 32 = f.payload ++ rest)
      (sound : crc32c f.payload = f.header.payloadCrc) :
      Turned bound buffer (.item f rest shorter)

theorem nextFrame_turned (bound : PayloadBound) (buffer : Bytes) :
    Turned bound buffer (nextFrame bound buffer) := by
  by_cases full : buffer.length < 32
  · have waits : nextFrame bound buffer = .more := if_pos full
    rw [waits]
    exact .more (.inl full)
  · cases checked : checkHeader bound buffer with
    | error why =>
      rw [nextFrame_refused full checked]
      exact .fail why (checkHeader_refused checked)
    | ok header =>
      have bytes := frameBytes_eq header.2
      rw [nextFrame_checked full checked]
      split
      · rename_i short
        exact .more (.inr ⟨header, checked, bytes ▸ short⟩)
      · rename_i whole
        split
        · exact .fail _ rfl
        · rename_i sound
          refine .item _ _ _ full (checkHeader_passed checked) ?_ ?_ (not_not.mp sound)
          · rw [List.length_take, List.length_drop]
            exact Nat.min_eq_left (by omega)
          · rw [bytes, ← List.drop_drop, List.take_append_drop]

theorem nextFrame_more_iff : nextFrame bound buffer = .more ↔ Incomplete bound buffer := by
  constructor
  · intro more
    have turned := nextFrame_turned bound buffer
    rw [more] at turned
    cases turned with
    | more waiting => exact waiting
  · rintro (short | ⟨header, checked, short⟩)
    · exact if_pos short
    · by_cases full : buffer.length < 32
      · exact if_pos full
      · rw [nextFrame_checked full checked, dif_pos (by rw [frameBytes_eq header.2]; exact short)]

/-- An item is the encoding of a frame, taken off the front. -/
theorem nextFrame_item {shorter : rest.length < buffer.length}
    (item : nextFrame bound buffer = .item f rest shorter) :
    buffer = encodeFrame f ++ rest ∧ f.completed = f ∧ f.Sendable bound := by
  have turned := nextFrame_turned bound buffer
  rw [item] at turned
  cases turned with
  | item _ _ _ full passed size split sound =>
    have length : UInt32.ofNat f.payload.length = f.header.payloadLength := by
      rw [size, UInt32.ofNat_toNat]
    have bytes := header_bytes (Nat.not_lt.mp full)
    have fields : f.header.magic = readU32 buffer 0 ∧ f.header.version = readU16 buffer 4 ∧
        f.header.flags = readU32 buffer 8 ∧ f.header.requestId = readU64 buffer 12 ∧
        f.header.payloadLength = readU32 buffer 20 ∧ f.header.headerCrc = readU32 buffer 24 ∧
        f.header.payloadCrc = readU32 buffer 28 := by
      rw [passed.fields]
      exact ⟨rfl, rfl, rfl, rfl, rfl, rfl, rfl⟩
    obtain ⟨magic, version, flags, requestId, payloadLength, headerCrc, payloadCrc⟩ := fields
    have spelled : buffer = encodeFrameHead f ++ (Writer.u32 f.header.headerCrc ++
        (Writer.u32 f.header.payloadCrc ++ (f.payload ++ rest))) := by
      rw [encodeFrameHead, length, magic, version, passed.type, flags, requestId, payloadLength,
        headerCrc, payloadCrc, ← split]
      simpa only [List.append_assoc] using bytes
    have head : crc32c (encodeFrameHead f) = f.header.headerCrc := by
      have front : buffer.take 24 = encodeFrameHead f := by
        rw [spelled, ← encodeFrameHead_length f, List.take_left]
      rw [← front]
      exact passed.sound
    refine ⟨?_, ?_, passed.magic, passed.version, ?_⟩
    · rw [encodeFrame, head, sound]
      simpa only [List.append_assoc] using spelled
    · rw [Frame.completed, length, head, sound]
    · rw [size]
      exact UInt32.le_iff_toNat_le.mp passed.allowed

theorem drain_refused {frames : List Frame}
    (drained : (nextFrame bound).drain buffer = (frames, .error why)) : why.isOk = false := by
  induction buffer using Cutter.drain.induct (nextFrame bound) generalizing frames with
  | case1 buffer more =>
    rw [Cutter.drain_more more] at drained
    cases drained
  | case2 buffer e fail =>
    rw [Cutter.drain_fail fail] at drained
    cases drained
    have turned := nextFrame_turned bound buffer
    rw [fail] at turned
    cases turned with
    | fail _ refused => exact refused
  | case3 buffer a rest shorter item ih =>
    rw [Cutter.drain_item item] at drained
    obtain ⟨-, last⟩ := Prod.mk.inj drained
    exact ih (Prod.ext rfl last)

theorem push_fresh (bound : PayloadBound) (buffer : Bytes) : push buffer { bound := bound } =
    ⟨answered (.ok []) ((nextFrame bound).drain buffer).2, ((nextFrame bound).drain buffer).1,
      ofLeft bound ((nextFrame bound).drain buffer).2⟩ := by
  have fed : (nextFrame bound).feed buffer (.ok []) = (nextFrame bound).drain buffer := rfl
  have pushed := push_ofLeft bound buffer (.ok [])
  rw [fed] at pushed
  exact pushed

theorem decodeFrame_drained {frames : List Frame} {left : Bytes}
    (drained : (nextFrame bound).drain buffer = (frames, .ok left)) :
    decodeFrame bound buffer = onlyFrame frames := by
  unfold decodeFrame
  rw [push_fresh, drained]
  rfl

theorem decodeFrame_stopped {frames : List Frame}
    (drained : (nextFrame bound).drain buffer = (frames, .error why)) :
    decodeFrame bound buffer = .error why := by
  unfold decodeFrame
  rw [push_fresh, drained]
  exact if_pos (drain_refused drained)

theorem onlyFrame_ok {frames : List Frame} (only : onlyFrame frames = .ok f) : frames = [f] := by
  unfold onlyFrame at only
  split at only
  · cases only
    rfl
  · cases only

/-- One frame comes off, and what is behind it is left waiting. -/
theorem decodeFrame_ok_iff : decodeFrame bound buffer = .ok f ↔
    f.completed = f ∧ f.Sendable bound ∧ ∃ rest, buffer = encodeFrame f ++ rest ∧
      Incomplete bound rest := by
  constructor
  · intro decoded
    rcases drained : (nextFrame bound).drain buffer with ⟨frames, left⟩
    cases left with
    | error why =>
      rw [decodeFrame_stopped drained] at decoded
      cases decoded
    | ok left =>
      rw [decodeFrame_drained drained] at decoded
      have single : frames = [f] := onlyFrame_ok decoded
      subst single
      cases cut : nextFrame bound buffer with
      | more =>
        rw [Cutter.drain_more cut] at drained
        cases drained
      | fail e =>
        rw [Cutter.drain_fail cut] at drained
        cases drained
      | item a rest shorter =>
        rw [Cutter.drain_item cut] at drained
        obtain ⟨items, last⟩ := Prod.mk.inj drained
        obtain ⟨rfl, none⟩ := List.cons.inj items
        obtain ⟨spelled, completed, sendable⟩ := nextFrame_item cut
        refine ⟨completed, sendable, rest, spelled, nextFrame_more_iff.mp ?_⟩
        cases next : nextFrame bound rest with
        | more => rfl
        | fail e =>
          rw [Cutter.drain_fail next] at last
          cases last
        | item b rest' shorter' =>
          rw [Cutter.drain_item next] at none
          cases none
  · rintro ⟨completed, sendable, rest, rfl, waiting⟩
    obtain ⟨shorter, item⟩ := nextFrame_encode sendable.magic sendable.version sendable.fits rest
    rw [completed] at item
    have drained := Cutter.drain_item item
    rw [Cutter.drain_more (nextFrame_more_iff.mpr waiting)] at drained
    rw [decodeFrame_drained drained]
    rfl

/-- A frame and, behind it, bytes that do not make up a second one. -/
def Trailing (bound : PayloadBound) (buffer : Bytes) : Prop :=
  ∃ f : Frame, f.Sendable bound ∧ ∃ rest, rest ≠ [] ∧ Incomplete bound rest ∧
    buffer = encodeFrame f ++ rest

theorem completed_sendable (sendable : f.Sendable bound) : f.completed.Sendable bound :=
  ⟨sendable.magic, sendable.version, sendable.fits⟩

theorem decodeFrame_encode (sendable : f.Sendable bound) (waiting : Incomplete bound rest) :
    decodeFrame bound (encodeFrame f ++ rest) = .ok f.completed :=
  decodeFrame_ok_iff.mpr ⟨rfl, completed_sendable sendable, rest, rfl, waiting⟩

/-- What is decoded is what was encoded, but for buffers with the start of another frame
at the end: those are accepted too. -/
theorem decodeFrame_image_iff (bound : PayloadBound) :
    (∀ b, (∀ f, decodeFrame bound b = .ok f → b = encodeFrame f) ↔ ¬ Trailing bound b) ∧
    ∀ f : Frame, f.Sendable bound → ∃ g, decodeFrame bound (encodeFrame f) = .ok g ∧
      g.header.type = f.header.type ∧ g.header.flags = f.header.flags ∧
      g.header.requestId = f.header.requestId ∧ g.payload = f.payload := by
  refine ⟨fun b => ⟨?_, ?_⟩, ?_⟩
  · rintro image ⟨f, sendable, rest, some, waiting, rfl⟩
    have whole := image f.completed (decodeFrame_encode sendable waiting)
    exact some (List.append_right_eq_self.mp whole)
  · intro clean f decoded
    obtain ⟨-, sendable, rest, spelled, waiting⟩ := decodeFrame_ok_iff.mp decoded
    by_cases none : rest = []
    · rw [spelled, none, List.append_nil]
    · exact absurd ⟨f, sendable, rest, none, waiting, spelled⟩ clean
  · intro f sendable
    have none : Incomplete bound [] := .inl (by decide)
    have decoded := decodeFrame_encode sendable none
    rw [List.append_nil] at decoded
    exact ⟨f.completed, decoded, rfl, rfl, rfl, rfl⟩

def pingFrame : Frame where
  header := { type := .pingRequest, requestId := 7 }
  payload := [1, 2, 3]

theorem pingFrame_sendable : pingFrame.Sendable .default := ⟨rfl, rfl, by decide⟩

theorem decodeFrame_image_iff_ping : ∃ g, decodeFrame .default (encodeFrame pingFrame) = .ok g ∧
    g.header.type = .pingRequest ∧ g.header.flags = 0 ∧ g.header.requestId = 7 ∧
    g.payload = [1, 2, 3] :=
  (decodeFrame_image_iff .default).2 pingFrame pingFrame_sendable

/-- One byte after the frame goes unnoticed. -/
theorem decodeFrame_image_fails : ¬ ∀ b f, decodeFrame .default b = .ok f → b = encodeFrame f := by
  intro image
  have waiting : Incomplete .default [0] := .inl (by decide)
  have whole := image _ _ (decodeFrame_encode pingFrame_sendable waiting)
  cases List.append_right_eq_self.mp whole

end FrameDecoder
end SplitBrainFabric
