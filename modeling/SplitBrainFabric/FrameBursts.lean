import SplitBrainFabric.FrameImage
import SplitBrainFabric.Library.Crc

/-! Burst errors on the wire. The table-driven checksum is the reflected CRC of its
polynomial, so no change of up to four neighbouring bytes leaves it as it was. -/

namespace SplitBrainFabric
open Words

/-- The reflected Castagnoli polynomial. -/
def crcPolynomial : BitVec 32 := (0x82F63B78 : UInt32).toBitVec

theorem crcPolynomial_top : crcPolynomial.getLsbD (32 - 1) = true := by decide

theorem odd_iff (c : UInt32) : c &&& 1 ≠ 0 ↔ c.toBitVec.getLsbD 0 = true := by
  have low : (c &&& 1).toBitVec = BitVec.setWidth 32 (BitVec.ofBool (c.toBitVec.getLsbD 0)) := by
    rw [UInt32.toBitVec_and]
    exact BitVec.and_one_eq_setWidth_ofBool_getLsbD
  rw [ne_eq, ← UInt32.toBitVec_inj, low]
  cases c.toBitVec.getLsbD 0 with
  | false => simp
  | true => simp

theorem crcBit_toBitVec (c : UInt32) :
    (crcBit c).toBitVec = Crc.bitStep crcPolynomial c.toBitVec := by
  unfold crcBit Crc.bitStep
  by_cases odd : c.toBitVec.getLsbD 0 = true
  · rw [if_pos ((odd_iff c).mpr odd), if_pos odd]
    simp [crcPolynomial]
  · rw [if_neg (fun low => odd ((odd_iff c).mp low)), if_neg odd]
    simp

theorem crcTableEntry_toBitVec (c : UInt32) :
    (crcTableEntry c).toBitVec = Crc.steps crcPolynomial 8 c.toBitVec := by
  simp only [crcTableEntry, crcBit_toBitVec]
  rfl

theorem crcByte_toBitVec (c : UInt32) (b : UInt8) :
    (crcByte c b).toBitVec = Crc.byteStep crcPolynomial c.toBitVec b := by
  have short : b.toBitVec.setWidth 32 >>> 8 = 0#32 := by
    apply BitVec.eq_of_getLsbD_eq
    intro i _
    simp
  rw [Crc.byteStep, Crc.steps_table, BitVec.ushiftRight_xor_distrib, short, BitVec.xor_zero,
    crcByte, UInt32.toBitVec_xor, crcTableEntry_toBitVec]
  rfl

theorem crcLoop_toBitVec (data : Bytes) (c : UInt32) :
    (crcLoop data c).toBitVec = Crc.run crcPolynomial c.toBitVec data := by
  induction data generalizing c with
  | nil => rfl
  | cons b rest ih =>
    rw [crcLoop, forced_eq, UInt32.ofNat_toNat, ih, crcByte_toBitVec]
    rfl

theorem crcLoop_append (data data' : Bytes) (c : UInt32) :
    crcLoop (data ++ data') c = crcLoop data' (crcLoop data c) := by
  apply UInt32.toBitVec_inj.mp
  simp only [crcLoop_toBitVec, Crc.run_append]

theorem update_append (c : Crc32cBuilder) (data data' : Bytes) :
    (c.update data).update data' = c.update (data ++ data') := by
  simp only [Crc32cBuilder.update, crcLoop_append, UInt32.xor_assoc, UInt32.xor_self,
    UInt32.xor_zero]

theorem foldl_update (c : Crc32cBuilder) (chunks : List Bytes) :
    (chunks.foldl Crc32cBuilder.update (c.update [])).state = (c.update chunks.flatten).state := by
  induction chunks generalizing c with
  | nil => rfl
  | cons chunk rest ih =>
    rw [List.foldl_cons, update_append, List.nil_append, List.flatten_cons, ← update_append]
    have next := ih (c.update chunk)
    rw [update_append, List.append_nil] at next
    exact next

/-- A part of the bytes, at most four neighbours, is replaced by as many others. -/
structure Changed (bytes bytes' : Bytes) (front burst burst' back : Bytes) : Prop where
  before : bytes = front ++ (burst ++ back)
  after : bytes' = front ++ (burst' ++ back)
  size : burst.length = burst'.length
  short : burst.length ≤ 4
  differ : burst ≠ burst'

theorem crc32c_changed {bytes bytes' front burst burst' back : Bytes}
    (changed : Changed bytes bytes' front burst burst' back) : crc32c bytes ≠ crc32c bytes' := by
  intro same
  have short := changed.short
  unfold crc32c at same
  have states : crcLoop bytes 0xFFFFFFFF = crcLoop bytes' 0xFFFFFFFF := by
    have back := congrArg (· ^^^ 0xFFFFFFFF) same
    simpa only [Crc32cBuilder.update, UInt32.xor_assoc, UInt32.xor_self, UInt32.xor_zero,
      UInt32.zero_xor] using back
  have runs := congrArg UInt32.toBitVec states
  rw [crcLoop_toBitVec, crcLoop_toBitVec, changed.before, changed.after] at runs
  exact Crc.run_burst crcPolynomial crcPolynomial_top (by omega) changed.size changed.differ _ _ _
    runs

/-- The change lies between two positions. -/
def BurstIn (first last : Nat) (bytes bytes' : Bytes) : Prop :=
  ∃ front burst burst' back, Changed bytes bytes' front burst burst' back ∧
    first ≤ front.length ∧ front.length + burst.length ≤ last

/-- A burst between the ends of a part changes that part and nothing else. -/
theorem BurstIn.part {before part after bytes' : Bytes} {first last : Nat}
    (burst : BurstIn first last (before ++ (part ++ after)) bytes')
    (start : before.length = first) (stop : before.length + part.length = last) :
    ∃ part', bytes' = before ++ (part' ++ after) ∧ part'.length = part.length ∧
      ∃ front burst burst' back, Changed part part' front burst burst' back := by
  obtain ⟨front, burst, burst', back, changed, first', last'⟩ := burst
  have inFront : ∃ gap, front = before ++ gap ∧ part ++ after = gap ++ (burst ++ back) := by
    rcases List.append_eq_append_iff.mp changed.before with ⟨gap, rfl, rest⟩ | ⟨gap, whole, rest⟩
    · exact ⟨gap, rfl, rest⟩
    · have sizes := congrArg List.length whole
      rw [List.length_append] at sizes
      have none : gap = [] := List.length_eq_zero_iff.mp (by omega)
      subst none
      exact ⟨[], by simpa using whole.symm, by simpa using rest.symm⟩
  obtain ⟨gap, rfl, rest⟩ := inFront
  have inside : ∃ tail, part = gap ++ (burst ++ tail) ∧ back = tail ++ after := by
    rw [← List.append_assoc] at rest
    rw [List.length_append] at last'
    rcases List.append_eq_append_iff.mp rest with ⟨tail, whole, beyond⟩ | ⟨tail, whole, beyond⟩
    · have sizes := congrArg List.length whole
      rw [List.length_append, List.length_append] at sizes
      have none : tail = [] := List.length_eq_zero_iff.mp (by omega)
      subst none
      refine ⟨[], ?_, by simpa using beyond.symm⟩
      simpa using whole.symm
    · exact ⟨tail, by simpa using whole, beyond⟩
  obtain ⟨tail, rfl, rfl⟩ := inside
  refine ⟨gap ++ (burst' ++ tail), ?_, ?_, gap, burst, burst', tail, rfl, rfl, changed.size,
    changed.short, changed.differ⟩
  · rw [changed.after]
    simp only [List.append_assoc]
  · simp only [List.length_append, changed.size]

theorem Changed.ne {bytes bytes' front burst burst' back : Bytes}
    (changed : Changed bytes bytes' front burst burst' back) : bytes' ≠ bytes := by
  intro same
  rw [changed.before, changed.after] at same
  exact changed.differ (List.append_cancel_right (List.append_cancel_left same)).symm

namespace FrameDecoder

variable {bound : PayloadBound} {f g : Frame} {bytes' : Bytes}

theorem u32_injective {a b : UInt32} (same : Writer.u32 a = Writer.u32 b) : a = b := by
  rw [← getLE_put32 a, ← getLE_put32 b]
  exact congrArg (fun raw => UInt32.ofNat (getLE raw)) same

/-- The parts of the bytes that were decoded, one behind the other. -/
theorem decodeFrame_parts (decoded : decodeFrame bound bytes' = .ok g) : ∃ rest,
    bytes' = encodeFrameHead g ++ (Writer.u32 (crc32c (encodeFrameHead g)) ++
      (Writer.u32 (crc32c g.payload) ++ (g.payload ++ rest))) := by
  obtain ⟨-, -, rest, spelled, -⟩ := decodeFrame_ok_iff.mp decoded
  refine ⟨rest, ?_⟩
  rw [spelled, encodeFrame]
  simp only [List.append_assoc]

theorem payload_length_eq (sendable : f.Sendable bound) (decoded : g.Sendable bound)
    (same : encodeFrameHead f = encodeFrameHead g) : f.payload.length = g.payload.length := by
  have field : Writer.u32 (UInt32.ofNat f.payload.length) =
      Writer.u32 (UInt32.ofNat g.payload.length) := congrArg (List.drop 20) same
  have left := lt_of_le_of_lt sendable.fits bound.maxPayload.toNat_lt
  have right := lt_of_le_of_lt decoded.fits bound.maxPayload.toNat_lt
  have lengths := congrArg UInt32.toNat (u32_injective field)
  rwa [UInt32.toNat_ofNat_of_lt' left, UInt32.toNat_ofNat_of_lt' right] at lengths

theorem heads_length (f g : Frame) : (encodeFrameHead f).length = (encodeFrameHead g).length := by
  rw [encodeFrameHead_length, encodeFrameHead_length]

theorem sums_length (a b : UInt32) : (Writer.u32 a).length = (Writer.u32 b).length := by
  rw [Writer.u32_length, Writer.u32_length]

theorem detects_head (burst : BurstIn 0 24 (encodeFrame f) bytes') :
    decodeFrame bound bytes' ≠ .ok g := by
  intro decoded
  obtain ⟨rest, spelled⟩ := decodeFrame_parts decoded
  rw [encodeFrame, ← List.nil_append (encodeFrameHead f ++ _)] at burst
  obtain ⟨head', rfl, size, front, burst, burst', back, changed⟩ := burst.part rfl (by simp)
  rw [List.nil_append] at spelled
  obtain ⟨heads, behind⟩ := List.append_inj spelled (size.trans (heads_length f g))
  obtain ⟨sums, -⟩ := List.append_inj behind (sums_length _ _)
  have same : crc32c (encodeFrameHead f) = crc32c head' := heads ▸ u32_injective sums
  exact crc32c_changed changed same

theorem detects_headerCrc (burst : BurstIn 24 28 (encodeFrame f) bytes') :
    decodeFrame bound bytes' ≠ .ok g := by
  intro decoded
  obtain ⟨rest, spelled⟩ := decodeFrame_parts decoded
  obtain ⟨sum', rfl, size, front, burst, burst', back, changed⟩ :=
    burst.part (encodeFrameHead_length f) (by simp)
  obtain ⟨heads, behind⟩ := List.append_inj spelled (heads_length f g)
  obtain ⟨sums, -⟩ := List.append_inj behind (size.trans (sums_length _ _))
  rw [← heads] at sums
  exact changed.ne sums

theorem detects_payloadCrc (sendable : f.Sendable bound)
    (burst : BurstIn 28 32 (encodeFrame f) bytes') : decodeFrame bound bytes' ≠ .ok g := by
  intro decoded
  have received : g.Sendable bound := (decodeFrame_ok_iff.mp decoded).2.1
  obtain ⟨rest, spelled⟩ := decodeFrame_parts decoded
  rw [encodeFrame, ← List.append_assoc] at burst
  obtain ⟨sum', rfl, size, front, burst, burst', back, changed⟩ :=
    burst.part (by simp) (by simp)
  rw [List.append_assoc] at spelled
  obtain ⟨heads, behind⟩ := List.append_inj spelled (heads_length f g)
  obtain ⟨-, behind⟩ := List.append_inj behind (sums_length _ _)
  obtain ⟨sums, payloads⟩ := List.append_inj behind (size.trans (sums_length _ _))
  have whole : f.payload ++ [] = g.payload ++ rest := by rwa [List.append_nil]
  obtain ⟨same, -⟩ := List.append_inj whole (payload_length_eq sendable received heads)
  rw [← same] at sums
  exact changed.ne sums

theorem detects_payload (sendable : f.Sendable bound)
    (burst : BurstIn 32 (32 + f.payload.length) (encodeFrame f) bytes') :
    decodeFrame bound bytes' ≠ .ok g := by
  intro decoded
  have received : g.Sendable bound := (decodeFrame_ok_iff.mp decoded).2.1
  obtain ⟨rest, spelled⟩ := decodeFrame_parts decoded
  have parts : encodeFrame f = (encodeFrameHead f ++ (Writer.u32 (crc32c (encodeFrameHead f)) ++
      Writer.u32 (crc32c f.payload))) ++ (f.payload ++ []) := by
    simp only [encodeFrame, List.append_assoc, List.append_nil]
  rw [parts] at burst
  obtain ⟨payload', rfl, size, front, burst, burst', back, changed⟩ :=
    burst.part (by simp) (by simp)
  simp only [List.append_assoc, List.append_nil] at spelled
  obtain ⟨heads, behind⟩ := List.append_inj spelled (heads_length f g)
  obtain ⟨-, behind⟩ := List.append_inj behind (sums_length _ _)
  obtain ⟨sums, payloads⟩ := List.append_inj behind (sums_length _ _)
  have whole : payload' ++ [] = g.payload ++ rest := by rwa [List.append_nil]
  obtain ⟨same, -⟩ := List.append_inj whole (size.trans (payload_length_eq sendable received heads))
  have equal : crc32c f.payload = crc32c payload' := same ▸ u32_injective sums
  exact crc32c_changed changed equal

/-- Where a burst can lie: the checked header bytes, one of the checksums, the payload. -/
inductive Struck (f : Frame) (bytes' : Bytes) : Prop
  | head (burst : BurstIn 0 24 (encodeFrame f) bytes')
  | headerCrc (burst : BurstIn 24 28 (encodeFrame f) bytes')
  | payloadCrc (burst : BurstIn 28 32 (encodeFrame f) bytes')
  | payload (burst : BurstIn 32 (32 + f.payload.length) (encodeFrame f) bytes')

/-- A burst of at most four bytes is never taken for a frame, and the checksum does not
depend on how its input was cut. -/
theorem detects_bursts (bound : PayloadBound) :
    (∀ f bytes', f.Sendable bound → Struck f bytes' → ∀ g, decodeFrame bound bytes' ≠ .ok g) ∧
    ∀ chunks : List Bytes,
      (chunks.foldl Crc32cBuilder.update {}).state = crc32c chunks.flatten := by
  constructor
  · intro f bytes' sendable struck g
    cases struck with
    | head burst => exact detects_head burst
    | headerCrc burst => exact detects_headerCrc burst
    | payloadCrc burst => exact detects_payloadCrc sendable burst
    | payload burst => exact detects_payload sendable burst
  · intro chunks
    unfold crc32c
    exact foldl_update {} chunks

/-- The middle one of three payload bytes is changed. -/
theorem detects_bursts_ping : ∀ g, decodeFrame .default (encodeFrameHead pingFrame ++
    (Writer.u32 (crc32c (encodeFrameHead pingFrame)) ++
      (Writer.u32 (crc32c pingFrame.payload) ++ [1, 9, 3]))) ≠ .ok g := by
  refine (detects_bursts .default).1 pingFrame _ pingFrame_sendable (.payload ?_)
  refine ⟨encodeFrameHead pingFrame ++ (Writer.u32 (crc32c (encodeFrameHead pingFrame)) ++
    (Writer.u32 (crc32c pingFrame.payload) ++ [1])), [2], [9], [3], ⟨?_, ?_, rfl, by decide,
      by decide⟩, ?_, ?_⟩
  · simp only [encodeFrame, List.append_assoc]
    rfl
  · simp only [List.append_assoc, List.cons_append, List.nil_append]
  · simp
  · simp [pingFrame]

end FrameDecoder
end SplitBrainFabric
