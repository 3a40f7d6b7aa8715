import SplitBrainFabric.Canonical
import SplitBrainFabric.Library.Chunks

/-! The framed message stream of the wire, and a decoder that takes it in chunks. -/

namespace SplitBrainFabric
open Words

namespace Limits

def maxFramePayloadBytes : UInt32 := 256 * 1024
def frameHeaderBytes : UInt32 := 32

end Limits

def frameMagic : UInt32 := 0x31464253
def frameVersion : UInt16 := 1

inductive MessageType where
  | invalid
  | helloRequest
  | helloResponse
  | pingRequest
  | pingResponse
  | shutdownRequest
  | shutdownResponse
  | errorResponse
  | defineDomainRequest
  | defineDomainResponse
  | definePolicyRequest
  | definePolicyResponse
  | allocateEpochRequest
  | allocateEpochResponse
  | decideRequest
  | decideResponse
  | commitRequest
  | commitResponse
  | fenceRequest
  | fenceResponse
  | releaseRequest
  | releaseResponse
  | inspectRequest
  | inspectResponse
  | planRequest
  | planResponse
  | attestRequest
  | attestResponse
  | witnessStatusRequest
  | witnessStatusResponse
  deriving DecidableEq

namespace MessageType

def all : List MessageType := [
  invalid, helloRequest, helloResponse, pingRequest, pingResponse, shutdownRequest,
  shutdownResponse, errorResponse, defineDomainRequest, defineDomainResponse,
  definePolicyRequest, definePolicyResponse, allocateEpochRequest, allocateEpochResponse,
  decideRequest, decideResponse, commitRequest, commitResponse, fenceRequest, fenceResponse,
  releaseRequest, releaseResponse, inspectRequest, inspectResponse, planRequest, planResponse,
  attestRequest, attestResponse, witnessStatusRequest, witnessStatusResponse]

def code : MessageType → UInt16
  | invalid => 0
  | helloRequest => 1
  | helloResponse => 2
  | pingRequest => 3
  | pingResponse => 4
  | shutdownRequest => 5
  | shutdownResponse => 6
  | errorResponse => 7
  | defineDomainRequest => 20
  | defineDomainResponse => 21
  | definePolicyRequest => 22
  | definePolicyResponse => 23
  | allocateEpochRequest => 40
  | allocateEpochResponse => 41
  | decideRequest => 42
  | decideResponse => 43
  | commitRequest => 44
  | commitResponse => 45
  | fenceRequest => 46
  | fenceResponse => 47
  | releaseRequest => 48
  | releaseResponse => 49
  | inspectRequest => 50
  | inspectResponse => 51
  | planRequest => 52
  | planResponse => 53
  | attestRequest => 80
  | attestResponse => 81
  | witnessStatusRequest => 82
  | witnessStatusResponse => 83

/-- The type a raw code stands for; nothing when `message_type_valid` refuses it. -/
def fromCode (raw : UInt16) : Option MessageType := all.find? (·.code = raw)

@[simp] theorem fromCode_code (t : MessageType) : fromCode t.code = some t := by cases t <;> rfl

end MessageType

structure FrameHeader where
  magic : UInt32 := frameMagic
  version : UInt16 := frameVersion
  type : MessageType := .invalid
  flags : UInt32 := 0
  requestId : RequestId := 0
  payloadLength : UInt32 := 0
  headerCrc : UInt32 := 0
  payloadCrc : UInt32 := 0
  deriving DecidableEq

structure Frame where
  header : FrameHeader := {}
  payload : Bytes := []
  deriving DecidableEq

/-- The fields the header checksum covers. -/
def encodeFrameHead (f : Frame) : Bytes :=
  Writer.u32 f.header.magic ++ (Writer.u16 f.header.version ++ (Writer.u16 f.header.type.code ++
    (Writer.u32 f.header.flags ++ (Writer.u64 f.header.requestId ++
      Writer.u32 (UInt32.ofNat f.payload.length)))))

def encodeFrame (f : Frame) : Bytes :=
  encodeFrameHead f ++ (Writer.u32 (crc32c (encodeFrameHead f)) ++
    (Writer.u32 (crc32c f.payload) ++ f.payload))

/-- The frame with the fields that its encoding works out. -/
def Frame.completed (f : Frame) : Frame :=
  { f with header := { f.header with
      payloadLength := UInt32.ofNat f.payload.length
      headerCrc := crc32c (encodeFrameHead f)
      payloadCrc := crc32c f.payload } }

/-- The number in the `width` bytes at an offset. -/
def readAt (base : Bytes) (offset width : Nat) : Nat := getLE ((base.drop offset).take width)

def readU16 (base : Bytes) (offset : Nat) : UInt16 := UInt16.ofNat (readAt base offset 2)
def readU32 (base : Bytes) (offset : Nat) : UInt32 := UInt32.ofNat (readAt base offset 4)
def readU64 (base : Bytes) (offset : Nat) : UInt64 := UInt64.ofNat (readAt base offset 8)

/-- The fields of a header as they stand in the stream, but for the type. -/
def readFrameHeader (base : Bytes) : FrameHeader where
  magic := readU32 base 0
  version := readU16 base 4
  flags := readU32 base 8
  requestId := readU64 base 12
  payloadLength := readU32 base 20
  headerCrc := readU32 base 24
  payloadCrc := readU32 base 28

/-- A payload bound for which a whole frame has a 32-bit size. -/
structure PayloadBound where
  maxPayload : UInt32
  fits : Limits.frameHeaderBytes.toNat + maxPayload.toNat < 2 ^ 32

def PayloadBound.default : PayloadBound := ⟨Limits.maxFramePayloadBytes, by decide⟩

namespace FrameDecoder

/-- The bytes of a frame with a payload of that length, in 32-bit arithmetic. -/
def frameBytes (payloadLength : UInt32) : Nat := (Limits.frameHeaderBytes + payloadLength).toNat

theorem frameBytes_eq {bound : PayloadBound} {length : UInt32} (allowed : length ≤ bound.maxPayload) :
    frameBytes length = 32 + length.toNat := by
  have fits := bound.fits
  rw [UInt32.le_iff_toNat_le] at allowed
  rw [frameBytes, UInt32.toNat_add]
  simp only [Limits.frameHeaderBytes, UInt32.reduceToNat] at fits ⊢
  omega

theorem frame_shorter {bound : PayloadBound} {length : UInt32} {buffer : Bytes}
    (allowed : length ≤ bound.maxPayload) (whole : ¬ buffer.length < frameBytes length) :
    (buffer.drop (frameBytes length)).length < buffer.length := by
  have size := frameBytes_eq allowed
  rw [List.length_drop]
  omega

/-- The checks a header has to pass before any payload is looked at. -/
def checkHeader (bound : PayloadBound) (base : Bytes) :
    Except Status { header : FrameHeader // header.payloadLength ≤ bound.maxPayload } :=
  let header := readFrameHeader base
  if header.magic ≠ frameMagic then .error (.make .invalid .badMagic header.magic.toUInt64)
  else if header.version ≠ frameVersion then
    .error (.make .unsupported .unsupportedVersion header.version.toUInt64)
  else
    match MessageType.fromCode (readU16 base 6) with
    | none => .error (.make .invalid .invalidEnum (readU16 base 6).toUInt64)
    | some type =>
      if oversized : bound.maxPayload < header.payloadLength then
        .error (.make .exhausted .oversizedPayload header.payloadLength.toUInt64)
      else if crc32c (base.take 24) ≠ header.headerCrc then
        .error (.make .corrupt .integrityMismatch 24)
      else .ok ⟨{ header with type := type }, UInt32.not_lt.mp oversized⟩

/-- One turn of the loop of `push`. -/
def nextFrame (bound : PayloadBound) : Cutter Status Frame := fun buffer =>
  if buffer.length < Limits.frameHeaderBytes.toNat then .more
  else
    match checkHeader bound buffer with
    | .error why => .fail why
    | .ok header =>
      if short : buffer.length < frameBytes header.1.payloadLength then .more
      else
        let payload := (buffer.drop Limits.frameHeaderBytes.toNat).take
          header.1.payloadLength.toNat
        if crc32c payload ≠ header.1.payloadCrc then .fail (.make .corrupt .integrityMismatch 28)
        else .item ⟨header.1, payload⟩ (buffer.drop (frameBytes header.1.payloadLength))
          (frame_shorter header.2 short)

end FrameDecoder

/-- The bytes not yet taken for a frame, and the failure that stopped the stream. -/
structure FrameDecoder where
  bound : PayloadBound := .default
  buffer : Bytes := []
  poisoned : Bool := false
  failure : Status := .ok

namespace FrameDecoder

def poison (why : Status) (d : FrameDecoder) : FrameDecoder :=
  { d with poisoned := true, failure := why, buffer := [] }

def reset (d : FrameDecoder) : FrameDecoder :=
  { d with buffer := [], poisoned := false, failure := .ok }

/-- What a push answers, the frames it puts out, and the decoder after it. -/
structure Pushed where
  status : Status
  frames : List Frame
  decoder : FrameDecoder

def push (chunk : Bytes) (d : FrameDecoder) : Pushed :=
  if d.poisoned then ⟨.make .invalid .stickyFailure, [], d⟩
  else
    match (nextFrame d.bound).drain (d.buffer ++ chunk) with
    | (frames, .error why) => ⟨why, frames, d.poison why⟩
    | (frames, .ok buffer) =>
      if frameBytes d.bound.maxPayload < buffer.length then
        let why := Status.make .exhausted .oversizedPayload (UInt64.ofNat buffer.length)
        ⟨why, frames, d.poison why⟩
      else ⟨.ok, frames, { d with buffer := buffer }⟩

/-- A stream that arrives in chunks: all frames, and the decoder at the end. -/
def pushAll : List Bytes → FrameDecoder → List Frame × FrameDecoder
  | [], d => ([], d)
  | chunk :: rest, d =>
    ((d.push chunk).frames ++ ((d.push chunk).decoder.pushAll rest).1,
      ((d.push chunk).decoder.pushAll rest).2)

section Cutting

variable {bound : PayloadBound} {buffer : Bytes}

theorem readAt_append {base : Bytes} {offset width : Nat} (inside : offset + width ≤ base.length)
    (chunk : Bytes) : readAt (base ++ chunk) offset width = readAt base offset width := by
  have before : offset ≤ base.length := by omega
  have enough : width ≤ (base.drop offset).length := by
    rw [List.length_drop]
    omega
  rw [readAt, readAt, List.drop_append_of_le_length before, List.take_append_of_le_length enough]

/-- A header is the same however much stands behind it. -/
theorem checkHeader_append (full : 32 ≤ buffer.length) (chunk : Bytes) :
    checkHeader bound (buffer ++ chunk) = checkHeader bound buffer := by
  have header : readFrameHeader (buffer ++ chunk) = readFrameHeader buffer := by
    simp only [readFrameHeader, readU16, readU32, readU64]
    rw [readAt_append (by omega), readAt_append (by omega), readAt_append (by omega),
      readAt_append (by omega), readAt_append (by omega), readAt_append (by omega),
      readAt_append (by omega)]
  have type : readU16 (buffer ++ chunk) 6 = readU16 buffer 6 := by
    rw [readU16, readU16, readAt_append (by omega)]
  have checked : (buffer ++ chunk).take 24 = buffer.take 24 :=
    List.take_append_of_le_length (by omega)
  simp only [checkHeader, header, type, checked]

theorem nextFrame_refused {why : Status} (full : ¬ buffer.length < 32)
    (checked : checkHeader bound buffer = .error why) : nextFrame bound buffer = .fail why := by
  have size : Limits.frameHeaderBytes.toNat = 32 := rfl
  rw [nextFrame, size, if_neg full, checked]

/-- What becomes of a frame whose header passed. -/
theorem nextFrame_checked {header : { header : FrameHeader // header.payloadLength ≤ bound.maxPayload }}
    (full : ¬ buffer.length < 32) (checked : checkHeader bound buffer = .ok header) :
    nextFrame bound buffer =
      if short : buffer.length < frameBytes header.1.payloadLength then .more
      else if crc32c ((buffer.drop 32).take header.1.payloadLength.toNat) ≠ header.1.payloadCrc then
        .fail (.make .corrupt .integrityMismatch 28)
      else .item ⟨header.1, (buffer.drop 32).take header.1.payloadLength.toNat⟩
        (buffer.drop (frameBytes header.1.payloadLength)) (frame_shorter header.2 short) := by
  have size : Limits.frameHeaderBytes.toNat = 32 := rfl
  rw [nextFrame, size, if_neg full, checked]

theorem nextFrame_append (settled : nextFrame bound buffer ≠ .more) (chunk : Bytes) :
    (∃ e, nextFrame bound buffer = .fail e ∧ nextFrame bound (buffer ++ chunk) = .fail e) ∨
      ∃ a rest shorter shorter', nextFrame bound buffer = .item a rest shorter ∧
        nextFrame bound (buffer ++ chunk) = .item a (rest ++ chunk) shorter' := by
  have full : ¬ buffer.length < 32 := by
    intro short
    exact settled (if_pos short)
  have longer : ¬ (buffer ++ chunk).length < 32 := by
    rw [List.length_append]
    omega
  have same : checkHeader bound (buffer ++ chunk) = checkHeader bound buffer :=
    checkHeader_append (Nat.not_lt.mp full) chunk
  cases checked : checkHeader bound buffer with
  | error why =>
    rw [checked] at same
    exact .inl ⟨why, nextFrame_refused full checked, nextFrame_refused longer same⟩
  | ok header =>
    rw [checked] at same
    have before := nextFrame_checked full checked
    have after := nextFrame_checked longer same
    have whole : ¬ buffer.length < frameBytes header.1.payloadLength := by
      intro short
      rw [dif_pos short] at before
      exact settled before
    have whole' : ¬ (buffer ++ chunk).length < frameBytes header.1.payloadLength := by
      rw [List.length_append]
      omega
    have size := frameBytes_eq header.2
    have payload : ((buffer ++ chunk).drop 32).take header.1.payloadLength.toNat =
        (buffer.drop 32).take header.1.payloadLength.toNat := by
      rw [List.drop_append_of_le_length (by omega), List.take_append_of_le_length]
      rw [List.length_drop]
      omega
    have rest : (buffer ++ chunk).drop (frameBytes header.1.payloadLength) =
        buffer.drop (frameBytes header.1.payloadLength) ++ chunk :=
      List.drop_append_of_le_length (Nat.not_lt.mp whole)
    rw [dif_neg whole] at before
    rw [dif_neg whole', payload] at after
    by_cases sound : crc32c ((buffer.drop 32).take header.1.payloadLength.toNat) ≠
        header.1.payloadCrc
    · rw [if_pos sound] at before after
      exact .inl ⟨_, before, after⟩
    · rw [if_neg sound] at before after
      simp only [rest] at after
      exact .inr ⟨_, _, _, _, before, after⟩

theorem nextFrame_stable (bound : PayloadBound) : (nextFrame bound).Stable := by
  constructor
  · rfl
  · intro buffer e fail chunk
    have settled : nextFrame bound buffer ≠ .more := by simp [fail]
    rcases nextFrame_append settled chunk with
      ⟨e', before, after⟩ | ⟨a, rest, shorter, shorter', before, after⟩
    · cases fail.symm.trans before
      exact after
    · cases fail.symm.trans before
  · intro buffer a rest shorter item chunk
    have settled : nextFrame bound buffer ≠ .more := by simp [item]
    rcases nextFrame_append settled chunk with
      ⟨e', before, after⟩ | ⟨a', rest', shorter, shorter', before, after⟩
    · cases item.symm.trans before
    · cases item.symm.trans before
      exact ⟨shorter', after⟩

/-- What waits for more is short of one whole frame. -/
theorem nextFrame_more (more : nextFrame bound buffer = .more) :
    buffer.length < frameBytes bound.maxPayload := by
  have most := frameBytes_eq (UInt32.le_refl bound.maxPayload)
  by_cases full : buffer.length < 32
  · omega
  · cases checked : checkHeader bound buffer with
    | error why =>
      rw [nextFrame_refused full checked] at more
      cases more
    | ok header =>
      rw [nextFrame_checked full checked] at more
      have size := frameBytes_eq header.2
      have allowed := UInt32.le_iff_toNat_le.mp header.2
      by_cases short : buffer.length < frameBytes header.1.payloadLength
      · omega
      · rw [dif_neg short] at more
        split at more
        · cases more
        · cases more

end Cutting

section Encoding

theorem readAt_front {part : Bytes} {width : Nat} (size : part.length = width) (back : Bytes) :
    readAt (part ++ back) 0 width = getLE part := by
  rw [readAt, List.drop_zero, ← size, List.take_left]

theorem readAt_behind {part : Bytes} {offset : Nat} (past : part.length ≤ offset) (back : Bytes)
    (width : Nat) : readAt (part ++ back) offset width = readAt back (offset - part.length) width := by
  rw [readAt, readAt, List.drop_append, List.drop_eq_nil_of_le past, List.nil_append]

@[simp] theorem encodeFrameHead_length (f : Frame) : (encodeFrameHead f).length = 24 := rfl

theorem readFrameHeader_encode (f : Frame) (rest : Bytes) :
    readFrameHeader (encodeFrame f ++ rest) =
      { f.completed.header with type := .invalid } := by
  simp [readFrameHeader, readU32, readU16, readU64, encodeFrame, encodeFrameHead, readAt_behind,
    readAt_front, Writer.u32, Writer.u16, Writer.u64, Frame.completed, -UInt32.toNat_ofNat']

theorem checkHeader_encode {bound : PayloadBound} {f : Frame}
    (magic : f.header.magic = frameMagic) (version : f.header.version = frameVersion)
    (allowed : f.completed.header.payloadLength ≤ bound.maxPayload) (rest : Bytes) :
    checkHeader bound (encodeFrame f ++ rest) = .ok ⟨f.completed.header, allowed⟩ := by
  have header := readFrameHeader_encode f rest
  have type : readU16 (encodeFrame f ++ rest) 6 = f.header.type.code := by
    simp [readU16, encodeFrame, encodeFrameHead, readAt_behind, readAt_front, Writer.u32,
      Writer.u16]
  have head : (encodeFrame f ++ rest).take 24 = encodeFrameHead f := by
    rw [encodeFrame, List.append_assoc, ← encodeFrameHead_length f, List.take_left]
  have small : ¬ bound.maxPayload < f.completed.header.payloadLength := UInt32.not_lt.mpr allowed
  have magic : f.completed.header.magic = frameMagic := magic
  have version : f.completed.header.version = frameVersion := version
  have crc : crc32c (encodeFrameHead f) = f.completed.header.headerCrc := rfl
  simp only [checkHeader, header, type, head, MessageType.fromCode_code, magic, version, crc,
    dif_neg small, ne_eq, not_true_eq_false, if_false]
  apply congrArg Except.ok
  apply Subtype.ext
  simp only [← magic, ← version]
  rfl

/-- An encoded frame is the first that is taken off a stream it starts. -/
theorem nextFrame_encode {bound : PayloadBound} {f : Frame} (magic : f.header.magic = frameMagic)
    (version : f.header.version = frameVersion)
    (fits : f.payload.length ≤ bound.maxPayload.toNat) (rest : Bytes) :
    ∃ shorter, nextFrame bound (encodeFrame f ++ rest) = .item f.completed rest shorter := by
  have exact : (UInt32.ofNat f.payload.length).toNat = f.payload.length :=
    UInt32.toNat_ofNat_of_lt' (lt_of_le_of_lt fits bound.maxPayload.toNat_lt)
  have allowed : f.completed.header.payloadLength ≤ bound.maxPayload :=
    UInt32.le_iff_toNat_le.mpr (exact.trans_le fits)
  have size : (encodeFrame f ++ rest).length = 32 + f.payload.length + rest.length := by
    simp only [encodeFrame, List.length_append, encodeFrameHead_length, Writer.u32_length]
    omega
  have bytes : frameBytes f.completed.header.payloadLength = 32 + f.payload.length :=
    (frameBytes_eq allowed).trans (congrArg (32 + ·) exact)
  have full : ¬ (encodeFrame f ++ rest).length < 32 := by omega
  have whole : ¬ (encodeFrame f ++ rest).length < frameBytes f.completed.header.payloadLength := by
    omega
  have front : encodeFrame f ++ rest = (encodeFrameHead f ++ (Writer.u32 (crc32c (encodeFrameHead f))
      ++ Writer.u32 (crc32c f.payload))) ++ (f.payload ++ rest) := by
    simp only [encodeFrame, List.append_assoc]
  have behind : (encodeFrame f ++ rest).drop 32 = f.payload ++ rest := by
    rw [front]
    exact List.drop_left' rfl
  have payload : ((encodeFrame f ++ rest).drop 32).take
      f.completed.header.payloadLength.toNat = f.payload := by
    rw [behind]
    exact (congrArg (List.take · (f.payload ++ rest)) exact).trans List.take_left
  have left : (encodeFrame f ++ rest).drop (frameBytes f.completed.header.payloadLength) = rest := by
    rw [bytes, ← List.drop_drop, behind, List.drop_left]
  have cut := nextFrame_checked full (checkHeader_encode magic version allowed rest)
  have sound : crc32c f.payload = f.completed.header.payloadCrc := rfl
  rw [dif_neg whole, payload, if_neg (not_not.mpr sound)] at cut
  simp only [left] at cut
  exact ⟨_, cut⟩

/-- Frames written one behind the other are taken off in that order. -/
theorem drain_encoded {bound : PayloadBound} {frames : List Frame}
    (current : ∀ f ∈ frames, f.header.magic = frameMagic ∧ f.header.version = frameVersion)
    (fits : ∀ f ∈ frames, f.payload.length ≤ bound.maxPayload.toNat) :
    (nextFrame bound).drain (frames.flatMap encodeFrame) =
      (frames.map Frame.completed, .ok []) := by
  induction frames with
  | nil => exact Cutter.drain_more (nextFrame_stable bound).waits
  | cons f rest ih =>
    obtain ⟨magic, version⟩ := current f List.mem_cons_self
    obtain ⟨shorter, item⟩ := nextFrame_encode magic version (fits f List.mem_cons_self)
      (rest.flatMap encodeFrame)
    have tail := ih (fun g member => current g (List.mem_cons_of_mem f member))
      (fun g member => fits g (List.mem_cons_of_mem f member))
    rw [List.flatMap_cons, Cutter.drain_item item, tail]
    rfl

end Encoding

/-- The decoder that a remainder or a failure leaves. -/
def ofLeft (bound : PayloadBound) : Except Status Bytes → FrameDecoder
  | .error why => { bound := bound, poisoned := true, failure := why }
  | .ok buffer => { bound := bound, buffer := buffer }

def answered : Except Status Bytes → Except Status Bytes → Status
  | .error _, _ => .make .invalid .stickyFailure
  | .ok _, .error why => why
  | .ok _, .ok _ => .ok

/-- A push is a feed: the check on the size of what is left never refuses. -/
theorem push_ofLeft (bound : PayloadBound) (chunk : Bytes) (left : Except Status Bytes) :
    (ofLeft bound left).push chunk =
      ⟨answered left ((nextFrame bound).feed chunk left).2, ((nextFrame bound).feed chunk left).1,
        ofLeft bound ((nextFrame bound).feed chunk left).2⟩ := by
  cases left with
  | error why => rfl
  | ok buffer =>
    rcases drained : (nextFrame bound).drain (buffer ++ chunk) with ⟨frames, left⟩
    cases left with
    | error why => simp [push, ofLeft, Cutter.feed, drained, poison, answered]
    | ok rest =>
      have small : ¬ frameBytes bound.maxPayload < rest.length :=
        Nat.not_lt.mpr (le_of_lt (nextFrame_more (Cutter.drain_left drained)))
      simp [push, ofLeft, Cutter.feed, drained, small, answered]

theorem pushAll_ofLeft (bound : PayloadBound) (chunks : List Bytes) (left : Except Status Bytes) :
    (ofLeft bound left).pushAll chunks =
      (((nextFrame bound).feedAll chunks left).1,
        ofLeft bound ((nextFrame bound).feedAll chunks left).2) := by
  induction chunks generalizing left with
  | nil => rfl
  | cons chunk rest ih =>
    rw [pushAll, push_ofLeft]
    simp only [ih, Cutter.feedAll]

/-- The frames and the decoder are those of the stream in one piece. -/
theorem pushAll_fresh (bound : PayloadBound) (chunks : List Bytes) :
    pushAll chunks { bound := bound } =
      (((nextFrame bound).drain chunks.flatten).1,
        ofLeft bound ((nextFrame bound).drain chunks.flatten).2) := by
  have all := pushAll_ofLeft bound chunks (.ok [])
  rw [Cutter.feedAll_fresh (nextFrame_stable bound)] at all
  exact all

theorem push_poisoned {d : FrameDecoder} (poisoned : d.poisoned = true) (chunk : Bytes) :
    d.push chunk = ⟨.make .invalid .stickyFailure, [], d⟩ := if_pos poisoned

theorem push_failed {chunk : Bytes} {d : FrameDecoder} (failed : (d.push chunk).status ≠ .ok) :
    (d.push chunk).decoder.poisoned = true := by
  by_cases poisoned : d.poisoned = true
  · rw [push_poisoned poisoned]
    exact poisoned
  · rw [push, if_neg poisoned] at failed ⊢
    rcases drained : (nextFrame d.bound).drain (d.buffer ++ chunk) with ⟨frames, left⟩
    rw [drained] at failed
    cases left with
    | error why => rfl
    | ok rest =>
      simp only at failed ⊢
      split
      · rfl
      · rename_i small
        rw [if_neg small] at failed
        exact absurd rfl failed

theorem pushAll_poisoned {d : FrameDecoder} (poisoned : d.poisoned = true) (chunks : List Bytes) :
    d.pushAll chunks = ([], d) := by
  induction chunks with
  | nil => rfl
  | cons chunk rest ih => rw [pushAll, push_poisoned poisoned, ih, List.append_nil]

theorem push_short {chunk : Bytes} {d : FrameDecoder} (accepted : (d.push chunk).status = .ok) :
    (d.push chunk).decoder.buffer.length < 32 + d.bound.maxPayload.toNat := by
  have most := frameBytes_eq (UInt32.le_refl d.bound.maxPayload)
  by_cases poisoned : d.poisoned = true
  · rw [push_poisoned poisoned] at accepted
    cases accepted
  · rw [push, if_neg poisoned] at accepted ⊢
    rcases drained : (nextFrame d.bound).drain (d.buffer ++ chunk) with ⟨frames, left⟩
    cases left with
    | error why => exact Nat.lt_of_lt_of_le (Nat.zero_lt_succ 31) (Nat.le_add_right 32 _)
    | ok rest =>
      have small := nextFrame_more (Cutter.drain_left drained)
      rw [← most]
      simp only [if_neg (Nat.not_lt.mpr (le_of_lt small))]
      exact small

/-- Wherever a stream is cut, the frames and the decoder they leave are the same; an
accepted push leaves less than one frame, and after a failure no frame comes any more. -/
theorem framing_independent (bound : PayloadBound) :
    (∀ chunks chunks' : List Bytes, chunks.flatten = chunks'.flatten →
      pushAll chunks { bound := bound } = pushAll chunks' { bound := bound }) ∧
    (∀ (d : FrameDecoder) chunk, d.bound = bound → (push chunk d).status = .ok →
      (push chunk d).decoder.buffer.length < 32 + bound.maxPayload.toNat) ∧
    (∀ (d : FrameDecoder) chunk frames left, d.bound = bound →
      (nextFrame bound).drain (d.buffer ++ chunk) = (frames, .ok left) →
      ¬ frameBytes bound.maxPayload < left.length) ∧
    ∀ d chunk, (push chunk d).status ≠ .ok → ∀ later chunk',
      push chunk' (pushAll later (push chunk d).decoder).2 =
        ⟨.make .invalid .stickyFailure, [], (pushAll later (push chunk d).decoder).2⟩ := by
  refine ⟨?_, ?_, ?_, ?_⟩
  · intro chunks chunks' same
    rw [pushAll_fresh, pushAll_fresh, same]
  · rintro d chunk rfl accepted
    exact push_short accepted
  · intro d chunk frames left _ drained
    exact Nat.not_lt.mpr (le_of_lt (nextFrame_more (Cutter.drain_left drained)))
  · intro d chunk failed later chunk'
    have poisoned := push_failed failed
    rw [pushAll_poisoned poisoned]
    exact push_poisoned poisoned chunk'

/-- A header with the wrong magic, cut in two ways. -/
theorem framing_independent_garbage :
    pushAll [List.replicate 20 7, List.replicate 30 7] {} =
      pushAll [List.replicate 1 7, List.replicate 40 7, List.replicate 9 7] {} :=
  (framing_independent .default).1 _ _ rfl

end FrameDecoder
end SplitBrainFabric
