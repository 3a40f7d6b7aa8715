import SplitBrainFabric.Digest
import SplitBrainFabric.Library.Chunks
import SplitBrainFabric.Library.Sha2

/-! The digest builder computes the standard's hash of everything it was given, however
the bytes were cut into updates. -/

namespace SplitBrainFabric
open Words

namespace ShaState

/-- The words of a state, as the standard names them. -/
def working (s : ShaState) : Sha2.Variables where
  a := s.a.toBitVec
  b := s.b.toBitVec
  c := s.c.toBitVec
  d := s.d.toBitVec
  e := s.e.toBitVec
  f := s.f.toBitVec
  g := s.g.toBitVec
  h := s.h.toBitVec

theorem initial_working : ({} : ShaState).working = Sha2.initial := by decide +kernel

theorem constants_eq : sha256K.map (·.toBitVec) = Sha2.constants := by decide +kernel

section Rounds

variable (x : UInt32)

theorem bigSigma0_eq : (rotateRight x 2 ^^^ rotateRight x 13 ^^^ rotateRight x 22).toBitVec =
    Sha2.bigSigma0 x.toBitVec := rfl

theorem bigSigma1_eq : (rotateRight x 6 ^^^ rotateRight x 11 ^^^ rotateRight x 25).toBitVec =
    Sha2.bigSigma1 x.toBitVec := rfl

theorem smallSigma0_eq : (rotateRight x 7 ^^^ rotateRight x 18 ^^^ (x >>> 3)).toBitVec =
    Sha2.smallSigma0 x.toBitVec := rfl

theorem smallSigma1_eq : (rotateRight x 17 ^^^ rotateRight x 19 ^^^ (x >>> 10)).toBitVec =
    Sha2.smallSigma1 x.toBitVec := rfl

theorem rounds_eq (l : List (UInt32 × UInt32)) (s : ShaState) :
    (rounds l s).working =
      l.foldl (fun v kw => Sha2.round v kw.1.toBitVec kw.2.toBitVec) s.working := by
  induction l generalizing s with
  | nil => rfl
  | cons kw rest ih =>
    obtain ⟨k, w⟩ := kw
    simp only [rounds, forced_eq, UInt32.ofNat_toNat]
    rw [ih, List.foldl_cons]
    rfl

end Rounds

theorem or_eq_add {a b k : Nat} (small : b < 2 ^ k) : a * 2 ^ k ||| b = a * 2 ^ k + b := by
  rw [Nat.mul_comm]
  exact (Nat.two_pow_add_eq_or_of_lt small a).symm

theorem shifted_toNat (b : UInt8) {k : UInt32} (small : k.toNat ≤ 24) :
    (b.toUInt32 <<< k).toNat = b.toNat * 2 ^ k.toNat := by
  have below := b.toNat_lt
  have few : k.toNat % 32 = k.toNat := Nat.mod_eq_of_lt (by omega)
  have fits : b.toNat * 2 ^ k.toNat < 2 ^ 32 := calc
    b.toNat * 2 ^ k.toNat < 2 ^ 8 * 2 ^ k.toNat := Nat.mul_lt_mul_of_pos_right below (by positivity)
    _ ≤ 2 ^ 8 * 2 ^ 24 := Nat.mul_le_mul_left _ (Nat.pow_le_pow_right (by decide) small)
    _ = 2 ^ 32 := rfl
  rw [UInt32.toNat_shiftLeft, UInt8.toNat_toUInt32, few, Nat.shiftLeft_eq]
  exact Nat.mod_eq_of_lt fits

/-- The word the code puts together from four bytes. -/
theorem word_eq (p q r s : UInt8) :
    ((p.toUInt32 <<< 24) ||| (q.toUInt32 <<< 16) ||| (r.toUInt32 <<< 8) ||| s.toUInt32).toBitVec =
      Sha2.wordOf (Sha2.bits [p, q, r, s]) := by
  have hp := p.toNat_lt
  have hq := q.toNat_lt
  have hr := r.toNat_lt
  have hs := s.toNat_lt
  apply BitVec.eq_of_toNat_eq
  have spelt : Numeral.value 2 ((Sha2.bits [p, q, r, s]).map Bool.toNat) =
      p.toNat * 2 ^ 24 + (q.toNat * 2 ^ 16 + (r.toNat * 2 ^ 8 + s.toNat)) := by
    simp only [Sha2.value_bits_cons, List.length_cons, List.length_nil, Sha2.bits_nil,
      List.map_nil, Numeral.value_nil]
    norm_num
  rw [Sha2.wordOf, spelt, BitVec.toNat_ofNat, Nat.mod_eq_of_lt (by omega)]
  have low := @or_eq_add r.toNat s.toNat 8 (by omega)
  have middle := @or_eq_add q.toNat (r.toNat * 2 ^ 8 + s.toNat) 16 (by omega)
  have high := @or_eq_add p.toNat (q.toNat * 2 ^ 16 + (r.toNat * 2 ^ 8 + s.toNat)) 24 (by omega)
  have first := shifted_toNat p (k := 24) (by decide)
  have second := shifted_toNat q (k := 16) (by decide)
  have third := shifted_toNat r (k := 8) (by decide)
  rw [← high, ← middle, ← low, UInt32.toNat_toBitVec, UInt32.toNat_or, UInt32.toNat_or,
    UInt32.toNat_or, first, second, third, UInt8.toNat_toUInt32, Nat.or_assoc, Nat.or_assoc]
  rfl

theorem blockWord_bits (l : Bytes) (t : Nat) :
    Sha2.blockWord (Sha2.bits l) t = Sha2.wordOf (Sha2.bits ((l.drop (4 * t)).take 4)) := by
  have start : 32 * t = 8 * (4 * t) := by omega
  rw [Sha2.blockWord, start, ← Sha2.bits_drop]
  exact congrArg Sha2.wordOf (Sha2.bits_take _ 4).symm

theorem bigEndianWords_eq {n : Nat} {l : Bytes} (size : l.length = 4 * n) :
    (bigEndianWords l).map (·.toBitVec) = (List.range n).map (Sha2.blockWord (Sha2.bits l)) := by
  induction n generalizing l with
  | zero =>
    rw [List.length_eq_zero_iff.mp size]
    rfl
  | succ n ih =>
    match l with
    | [] | [_] | [_, _] | [_, _, _] => simp only [List.length_cons, List.length_nil] at size; omega
    | p :: q :: r :: s :: rest =>
      have shorter : rest.length = 4 * n := by
        simp only [List.length_cons] at size
        omega
      have later : ∀ t, Sha2.blockWord (Sha2.bits (p :: q :: r :: s :: rest)) (t + 1) =
          Sha2.blockWord (Sha2.bits rest) t := by
        intro t
        have place : 4 * (t + 1) = 4 * t + 4 := by omega
        rw [blockWord_bits, blockWord_bits, place]
        rfl
      rw [bigEndianWords, List.map_cons, word_eq, ih shorter, List.range_succ_eq_map, List.map_cons,
        List.map_map, blockWord_bits]
      exact congrArg₂ List.cons rfl (List.map_congr_left fun t _ => (later t).symm)

/-- The latest word comes first, so a word some places back stands that far into the list. -/
theorem getD_back {l : List UInt32} {w : Nat → Sha2.Word} {m k : Nat}
    (listed : l.map (·.toBitVec) = ((List.range m).map w).reverse) (positive : 1 ≤ k)
    (within : k ≤ m) : (l.getD (k - 1) 0).toBitVec = w (m - k) := by
  have sizes := congrArg List.length listed
  simp only [List.length_map, List.length_reverse, List.length_range] at sizes
  have inside : k - 1 < l.length := by omega
  have read : (l.map (·.toBitVec))[k - 1]? = ((List.range m).map w).reverse[k - 1]? := by rw [listed]
  have place : ((List.range m).map w).length - 1 - (k - 1) = m - k := by
    rw [List.length_map, List.length_range]
    omega
  rw [List.getElem?_map, List.getElem?_eq_getElem inside, List.getElem?_reverse (by simp; omega),
    place, List.getElem?_map, List.getElem?_range (by omega)] at read
  rw [List.getD_eq_getElem?_getD, List.getElem?_eq_getElem inside]
  exact Option.some.inj read

theorem schedule_eq {block : Nat → Sha2.Word} (n : Nat) {l : List UInt32} {m : Nat}
    (enough : 16 ≤ m)
    (listed : l.map (·.toBitVec) = ((List.range m).map (Sha2.schedule block)).reverse) :
    (schedule n l).map (·.toBitVec) = (List.range (m + n)).map (Sha2.schedule block) := by
  induction n generalizing l m with
  | zero => rw [schedule, List.map_reverse, listed, List.reverse_reverse, Nat.add_zero]
  | succ n ih =>
    simp only [schedule, forced_eq, UInt32.ofNat_toNat]
    have total : m + (n + 1) = m + 1 + n := by omega
    rw [total]
    apply ih (by omega)
    have next : Sha2.schedule block m = Sha2.smallSigma1 (Sha2.schedule block (m - 2)) +
        Sha2.schedule block (m - 7) + Sha2.smallSigma0 (Sha2.schedule block (m - 15)) +
        Sha2.schedule block (m - 16) := by
      rw [Sha2.schedule, if_neg (by omega)]
    rw [List.range_succ, List.map_append, List.map_singleton, List.reverse_append,
      List.reverse_singleton, List.singleton_append, List.map_cons, listed, next]
    have w2 := getD_back listed (k := 2) (by decide) (by omega)
    have w7 := getD_back listed (k := 7) (by decide) (by omega)
    have w15 := getD_back listed (k := 15) (by decide) (by omega)
    have w16 := getD_back listed (k := 16) (by decide) (by omega)
    rw [UInt32.toBitVec_add, UInt32.toBitVec_add, UInt32.toBitVec_add, smallSigma0_eq,
      smallSigma1_eq, w2, w7, w15, w16]
    congr 1
    ac_rfl

theorem compress_eq (s : ShaState) {block : Bytes} (size : block.length = 64) :
    (s.compress block).working = Sha2.compress s.working (Sha2.bits block) := by
  have words := bigEndianWords_eq (n := 16) size
  have first : (List.range 16).map (Sha2.schedule (Sha2.blockWord (Sha2.bits block))) =
      (List.range 16).map (Sha2.blockWord (Sha2.bits block)) := by
    apply List.map_congr_left
    intro t member
    rw [Sha2.schedule, if_pos (List.mem_range.mp member)]
  have scheduled := schedule_eq 48 (l := (bigEndianWords block).reverse) (m := 16) le_rfl
    (by rw [List.map_reverse, words, first])
  have constants : sha256K.map (·.toBitVec) =
      (List.range 64).map fun t => Sha2.constants.getD t 0 := by
    rw [constants_eq, ← Sha2.length_constants]
    exact (Sha2.range_getD Sha2.constants 0).symm
  have inputs : (sha256K.zip (schedule 48 (bigEndianWords block).reverse)).map
      (Prod.map (·.toBitVec) (·.toBitVec)) = (List.range 64).map fun t =>
        (Sha2.constants.getD t 0, Sha2.schedule (Sha2.blockWord (Sha2.bits block)) t) := by
    rw [← List.zip_map, constants, scheduled, List.zip_map']
  have folded : (rounds (sha256K.zip (schedule 48 (bigEndianWords block).reverse)) s).working =
      (List.range 64).foldl (fun v t => Sha2.round v (Sha2.constants.getD t 0)
        (Sha2.schedule (Sha2.blockWord (Sha2.bits block)) t)) s.working := by
    have mapped := congrArg (List.foldl (fun v kw => Sha2.round v kw.1 kw.2) s.working) inputs
    rw [List.foldl_map, List.foldl_map] at mapped
    exact (rounds_eq _ s).trans mapped
  unfold Sha2.compress
  rw [← folded]
  simp only [compress, working, UInt32.toBitVec_add, BitVec.add_comm]

theorem shifted_byte (w : UInt32) {k : UInt32} {e : Nat} (small : k.toNat < 32)
    (place : 2 ^ k.toNat = 256 ^ e) : (w >>> k).toUInt8 = UInt8.ofNat (w.toNat / 256 ^ e) := by
  apply UInt8.toNat_inj.mp
  rw [UInt32.toNat_toUInt8, UInt32.toNat_shiftRight, Nat.mod_eq_of_lt small,
    Nat.shiftRight_eq_div_pow, place, UInt8.toNat_ofNat']

theorem wordBytes_eq (w : UInt32) : wordBytes w = Sha2.bytesOf 4 w.toNat := by
  have first := shifted_byte w (k := 24) (e := 3) (by decide) rfl
  have second := shifted_byte w (k := 16) (e := 2) (by decide) rfl
  have third := shifted_byte w (k := 8) (e := 1) (by decide) rfl
  have last := shifted_byte w (k := 0) (e := 0) (by decide) rfl
  rw [UInt32.shiftRight_zero] at last
  rw [wordBytes, first, second, third, last]
  rfl

theorem digest_bits (s : ShaState) : Sha2.bits s.digestBytes = s.working.bits := by
  have word : ∀ w : UInt32, Sha2.bits (wordBytes w) = Sha2.bitsOf 32 w.toBitVec.toNat := by
    intro w
    rw [wordBytes_eq, Sha2.bits_bytesOf, UInt32.toNat_toBitVec]
  simp only [digestBytes, Sha2.bits_append, word, Sha2.Variables.bits, working, List.flatMap_cons,
    List.flatMap_nil, List.append_nil, List.append_assoc]

end ShaState

namespace Sha256Builder

/-- Sixty-four bytes at a time. -/
def cutBlock : Cutter Empty Bytes := fun buffer =>
  if full : 64 ≤ buffer.length then
    .item (buffer.take 64) (buffer.drop 64) (by rw [List.length_drop]; omega)
  else .more

theorem cutBlock_stable : cutBlock.Stable where
  waits := rfl
  fail := by
    intro buffer e failed
    exact e.elim
  item := by
    intro buffer a rest shorter found chunk
    unfold cutBlock at found
    split at found
    · rename_i full
      cases found
      have longer : 64 ≤ (buffer ++ chunk).length := by
        rw [List.length_append]
        omega
      refine ⟨by rw [List.length_append, List.length_drop, List.length_append]; omega, ?_⟩
      unfold cutBlock
      rw [dif_pos longer]
      congr 1
      · exact List.take_append_of_le_length full
      · exact List.drop_append_of_le_length full
    · cases found

/-- The whole blocks of a stream, and the bytes after them. -/
def blocks (stream : Bytes) : List Bytes := (cutBlock.drain stream).1

theorem drain_short {stream : Bytes} (short : stream.length < 64) :
    cutBlock.drain stream = ([], .ok stream) := by
  apply Cutter.drain_more
  rw [cutBlock, dif_neg (Nat.not_le.mpr short)]

theorem drain_block {first rest : Bytes} (size : first.length = 64) :
    cutBlock.drain (first ++ rest) =
      (first :: (cutBlock.drain rest).1, (cutBlock.drain rest).2) := by
  have longer : 64 ≤ (first ++ rest).length := by
    rw [List.length_append, size]
    exact Nat.le_add_right 64 _
  have found : ∃ shorter, cutBlock (first ++ rest) = .item first rest shorter := by
    refine ⟨by rw [List.length_append, size]; omega, ?_⟩
    rw [cutBlock, dif_pos longer]
    congr 1
    · exact List.take_left' size
    · exact List.drop_left' size
  obtain ⟨shorter, item⟩ := found
  exact Cutter.drain_item item

theorem blocks_block {first rest : Bytes} (size : first.length = 64) :
    blocks (first ++ rest) = first :: blocks rest := congrArg Prod.fst (drain_block size)

theorem blocks_append {stream left : Bytes} (drained : (cutBlock.drain stream).2 = .ok left)
    (data : Bytes) : blocks (stream ++ data) = blocks stream ++ blocks (left ++ data) := by
  rw [blocks, Cutter.drain_append cutBlock_stable, drained]
  rfl

/-- A stream of whole blocks. -/
theorem blocks_eq {n : Nat} {stream : Bytes} (size : stream.length = 64 * n) :
    blocks stream = (List.range n).map fun i => (stream.drop (64 * i)).take 64 := by
  induction n generalizing stream with
  | zero =>
    rw [List.length_eq_zero_iff.mp size, blocks, drain_short (by decide)]
    rfl
  | succ n ih =>
    have first : (stream.take 64).length = 64 := by
      rw [List.length_take]
      omega
    have rest : (stream.drop 64).length = 64 * n := by
      rw [List.length_drop]
      omega
    have later : blocks stream = stream.take 64 :: blocks (stream.drop 64) := by
      conv_lhs => rw [← List.take_append_drop 64 stream]
      exact blocks_block first
    rw [later, ih rest, List.range_succ_eq_map, List.map_cons, List.map_map]
    refine congrArg₂ List.cons rfl (List.map_congr_left fun i _ => ?_)
    have place : 64 + 64 * i = 64 * (i + 1) := by omega
    rw [Function.comp_apply, Nat.succ_eq_add_one, List.drop_drop, place]

theorem left_length {stream left : Bytes} (drained : (cutBlock.drain stream).2 = .ok left) :
    left.length = stream.length % 64 := by
  induction stream using Cutter.drain.induct cutBlock with
  | case1 stream more =>
    rw [Cutter.drain_more more] at drained
    cases drained
    have short : ¬ 64 ≤ left.length := by
      intro full
      rw [cutBlock, dif_pos full] at more
      cases more
    omega
  | case2 stream e => exact e.elim
  | case3 stream a rest shorter item ih =>
    rw [Cutter.drain_item item] at drained
    have size := ih drained
    unfold cutBlock at item
    split at item
    · cases item
      rw [List.length_drop] at size
      omega
    · cases item

/-- The builder has been given this stream. -/
structure Absorbed (builder : Sha256Builder) (stream : Bytes) : Prop where
  state : builder.state = (blocks stream).foldl ShaState.compress {}
  buffer : (cutBlock.drain stream).2 = .ok builder.buffer
  bits : builder.bitLength = UInt64.ofNat (8 * stream.length)

/-- The copying loop compresses the blocks of what was left over and what is new. -/
theorem absorb_spec {turns : Nat} {builder : Sha256Builder} {data : Bytes}
    (short : builder.buffer.length < 64) (enough : data.length ≤ turns) :
    (absorb turns builder data).state =
      (blocks (builder.buffer ++ data)).foldl ShaState.compress builder.state ∧
    (cutBlock.drain (builder.buffer ++ data)).2 = .ok (absorb turns builder data).buffer ∧
    (absorb turns builder data).bitLength = builder.bitLength := by
  induction turns generalizing builder data with
  | zero =>
    rw [List.length_eq_zero_iff.mp (Nat.le_zero.mp enough), List.append_nil, blocks,
      drain_short short]
    exact ⟨rfl, rfl, rfl⟩
  | succ turns ih =>
    rw [absorb]
    by_cases none : data = []
    · rw [if_pos none, none, List.append_nil, blocks, drain_short short]
      exact ⟨rfl, rfl, rfl⟩
    have some : 0 < data.length := List.length_pos_iff.mpr none
    rw [if_neg none]
    generalize counted : min data.length (64 - builder.buffer.length) = taken
    have shorter : (data.drop taken).length ≤ turns := by
      rw [List.length_drop]
      omega
    have whole : builder.buffer ++ data =
        builder.buffer ++ data.take taken ++ data.drop taken := by
      rw [List.append_assoc, List.take_append_drop]
    rw [whole]
    by_cases full : (builder.buffer ++ data.take taken).length = 64
    · simp only [if_pos full]
      rw [drain_block full, blocks_block full]
      exact ih (Nat.succ_pos 63) shorter
    · simp only [if_neg full]
      refine ih ?_ shorter
      simp only [List.length_append, List.length_take] at full ⊢
      omega

theorem short_of_drained {stream left : Bytes} (drained : (cutBlock.drain stream).2 = .ok left) :
    left.length < 64 := by
  rw [left_length drained]
  exact Nat.mod_lt _ (by decide)

theorem absorbed_start : Absorbed {} [] := by
  have waiting := @drain_short [] (by decide)
  constructor
  · rw [blocks, waiting]
    rfl
  · rw [waiting]
  · rfl

theorem Absorbed.update {builder : Sha256Builder} {stream : Bytes}
    (absorbed : Absorbed builder stream) (data : Bytes) :
    Absorbed (builder.update data) (stream ++ data) := by
  have short := short_of_drained absorbed.buffer
  obtain ⟨state, buffer, bits⟩ := @absorb_spec data.length
    { builder with bitLength := builder.bitLength + UInt64.ofNat data.length * 8 } data short le_rfl
  constructor
  · rw [blocks_append absorbed.buffer, List.foldl_append, ← absorbed.state]
    exact state
  · rw [Cutter.drain_append cutBlock_stable, absorbed.buffer]
    exact buffer
  · have total : 8 * (stream ++ data).length = 8 * stream.length + data.length * 8 := by
      rw [List.length_append]
      omega
    rw [total, UInt64.ofNat_add, ← absorbed.bits, UInt64.ofNat_mul]
    exact bits

theorem Absorbed.updates {builder : Sha256Builder} {stream : Bytes}
    (absorbed : Absorbed builder stream) (chunks : List Bytes) :
    Absorbed (chunks.foldl Sha256Builder.update builder) (stream ++ chunks.flatten) := by
  induction chunks generalizing builder stream with
  | nil => simpa using absorbed
  | cons data rest ih =>
    rw [List.foldl_cons, List.flatten_cons, ← List.append_assoc]
    exact ih (absorbed.update data)

theorem shifted_byte (w : UInt64) {k : UInt64} {e : Nat} (small : k.toNat < 64)
    (place : 2 ^ k.toNat = 256 ^ e) : (w >>> k).toUInt8 = UInt8.ofNat (w.toNat / 256 ^ e) := by
  apply UInt8.toNat_inj.mp
  rw [UInt64.toNat_toUInt8, UInt64.toNat_shiftRight, Nat.mod_eq_of_lt small,
    Nat.shiftRight_eq_div_pow, place, UInt8.toNat_ofNat']

theorem lengthBytes_eq (w : UInt64) : lengthBytes w = Sha2.bytesOf 8 w.toNat := by
  have b7 := shifted_byte w (k := 56) (e := 7) (by decide) rfl
  have b6 := shifted_byte w (k := 48) (e := 6) (by decide) rfl
  have b5 := shifted_byte w (k := 40) (e := 5) (by decide) rfl
  have b4 := shifted_byte w (k := 32) (e := 4) (by decide) rfl
  have b3 := shifted_byte w (k := 24) (e := 3) (by decide) rfl
  have b2 := shifted_byte w (k := 16) (e := 2) (by decide) rfl
  have b1 := shifted_byte w (k := 8) (e := 1) (by decide) rfl
  have b0 := shifted_byte w (k := 0) (e := 0) (by decide) rfl
  rw [UInt64.shiftRight_zero] at b0
  rw [lengthBytes, b7, b6, b5, b4, b3, b2, b1, b0]
  rfl

/-- The bytes `finish` puts behind a stream. -/
def padding (length : Nat) : Bytes :=
  0x80 :: List.replicate ((119 - length % 64) % 64) 0 ++ Sha2.bytesOf 8 (8 * length)

theorem padded_length (stream : Bytes) :
    ∃ n, (stream ++ padding stream.length).length = 64 * n := by
  have tail : (padding stream.length).length = (119 - stream.length % 64) % 64 + 9 := by
    simp [padding, Sha2.bytesOf]
  refine ⟨(stream.length + (119 - stream.length % 64) % 64 + 9) / 64, ?_⟩
  rw [List.length_append, tail]
  omega

theorem padded_bits {stream : Bytes} :
    Sha2.bits (stream ++ padding stream.length) = Sha2.padded (Sha2.bits stream) := by
  have mark : Sha2.bitsOf 8 (0x80 : UInt8).toNat = true :: List.replicate 7 false := by decide
  have zeros : 7 + 8 * ((119 - stream.length % 64) % 64) = Sha2.zeroBits (8 * stream.length) := by
    unfold Sha2.zeroBits
    omega
  rw [Sha2.bits_append, padding, List.cons_append, Sha2.bits_cons, Sha2.bits_append,
    Sha2.bits_replicate_zero, Sha2.bits_bytesOf, mark, Sha2.padded, Sha2.length_bits, ← zeros,
    ← List.replicate_append_replicate]
  simp only [List.cons_append, List.append_assoc]

theorem blocks_single {last : Bytes} (size : last.length = 64) : blocks last = [last] := by
  have one := @blocks_block _ [] size
  have none : blocks [] = [] := congrArg Prod.fst (@drain_short [] (Nat.succ_pos 63))
  rwa [List.append_nil, none] at one

/-- One block more, or two where the mark leaves no room for the length. -/
theorem finish_bytes {builder : Sha256Builder} {stream : Bytes}
    (absorbed : Absorbed builder stream) (short : stream.length < 2 ^ 61) :
    builder.finish.bytes =
      ((blocks (stream ++ padding stream.length)).foldl ShaState.compress {}).digestBytes := by
  have size := left_length absorbed.buffer
  have count : lengthBytes builder.bitLength = Sha2.bytesOf 8 (8 * stream.length) := by
    rw [lengthBytes_eq, absorbed.bits, UInt64.toNat_ofNat', Nat.mod_eq_of_lt (by omega)]
  have eight : (lengthBytes builder.bitLength).length = 8 := rfl
  rw [blocks_append absorbed.buffer, List.foldl_append, ← absorbed.state, padding, ← count]
  obtain ⟨marked, joined⟩ : ∃ marked : Bytes, builder.buffer ++ [0x80] = marked := ⟨_, rfl⟩
  have length : marked.length = stream.length % 64 + 1 := by
    rw [← joined, List.length_append, size]
    rfl
  by_cases crowded : 56 < marked.length
  · have first : (marked ++ List.replicate (64 - marked.length) 0).length = 64 := by
      rw [List.length_append, List.length_replicate]
      omega
    have last : (List.replicate 56 0 ++ lengthBytes builder.bitLength).length = 64 := by
      rw [List.length_append, List.length_replicate, eight]
    have zeros : (119 - stream.length % 64) % 64 = 64 - marked.length + 56 := by omega
    have whole : builder.buffer ++ ((0x80 : UInt8) ::
        List.replicate ((119 - stream.length % 64) % 64) 0 ++ lengthBytes builder.bitLength) =
          marked ++ List.replicate (64 - marked.length) 0 ++
            (List.replicate 56 0 ++ lengthBytes builder.bitLength) := by
      rw [zeros, ← List.replicate_append_replicate, ← joined]
      simp only [List.append_assoc, List.cons_append, List.nil_append]
    rw [whole, blocks_block first, blocks_single last]
    simp only [finish, joined, if_pos crowded]
    rfl
  · have last : (marked ++ List.replicate (56 - marked.length) 0 ++
        lengthBytes builder.bitLength).length = 64 := by
      rw [List.length_append, List.length_append, List.length_replicate, eight]
      omega
    have zeros : (119 - stream.length % 64) % 64 = 56 - marked.length := by omega
    have whole : builder.buffer ++ ((0x80 : UInt8) ::
        List.replicate ((119 - stream.length % 64) % 64) 0 ++ lengthBytes builder.bitLength) =
          marked ++ List.replicate (56 - marked.length) 0 ++ lengthBytes builder.bitLength := by
      rw [zeros, ← joined]
      simp only [List.append_assoc, List.cons_append, List.nil_append]
    rw [whole, blocks_single last]
    simp only [finish, joined, if_neg crowded]
    rfl

theorem foldl_working {l : List Bytes} (sizes : ∀ block ∈ l, block.length = 64) (s : ShaState) :
    (l.foldl ShaState.compress s).working =
      l.foldl (fun hash block => Sha2.compress hash (Sha2.bits block)) s.working := by
  induction l generalizing s with
  | nil => rfl
  | cons block rest ih =>
    rw [List.foldl_cons, List.foldl_cons, ih fun x later => sizes x (List.mem_cons_of_mem block later),
      ShaState.compress_eq s (sizes block List.mem_cons_self)]

theorem block_bits (stream : Bytes) (i : Nat) :
    Sha2.bits ((stream.drop (64 * i)).take 64) = Sha2.block (Sha2.bits stream) i := by
  have start : 512 * i = 8 * (64 * i) := by omega
  rw [Sha2.block, start, ← Sha2.bits_drop, Sha2.bits_take]

theorem hash_eq (stream : Bytes) :
    ((blocks (stream ++ padding stream.length)).foldl ShaState.compress {}).working =
      Sha2.hash (Sha2.bits stream) := by
  obtain ⟨n, size⟩ := padded_length stream
  have count : (Sha2.padded (Sha2.bits stream)).length / 512 = n := by
    rw [← padded_bits, Sha2.length_bits, size]
    omega
  have sizes : ∀ block ∈ blocks (stream ++ padding stream.length), block.length = 64 := by
    intro block member
    rw [blocks_eq size] at member
    obtain ⟨i, inside, rfl⟩ := List.mem_map.mp member
    have below := List.mem_range.mp inside
    rw [List.length_take, List.length_drop, size]
    omega
  rw [foldl_working sizes, blocks_eq size, List.foldl_map, ShaState.initial_working, Sha2.hash,
    count, ← padded_bits]
  simp only [block_bits]

theorem sha256_correct (chunks : List Bytes) (short : chunks.flatten.length < 2 ^ 61) :
    Sha2.bits (chunks.foldl update {}).finish.bytes = Sha2.digest (Sha2.bits chunks.flatten) ∧
    ∀ d out : Digest256, Digest256.parse d.hex out = (.ok, d) := by
  have absorbed := absorbed_start.updates chunks
  rw [List.nil_append] at absorbed
  refine ⟨?_, Digest256.parse_hex⟩
  rw [finish_bytes absorbed short, ShaState.digest_bits, hash_eq, Sha2.digest]

/-- A letter and then two: the standard's own first example. -/
theorem sha256_correct_abc :
    Sha2.digest (Sha2.bits [97, 98, 99]) = Sha2.bits [
      0xba, 0x78, 0x16, 0xbf, 0x8f, 0x01, 0xcf, 0xea, 0x41, 0x41, 0x40, 0xde, 0x5d, 0xae, 0x22,
      0x23, 0xb0, 0x03, 0x61, 0xa3, 0x96, 0x17, 0x7a, 0x9c, 0xb4, 0x10, 0xff, 0x61, 0xf2, 0x00,
      0x15, 0xad] := by
  have computed : ([[97], [98, 99]].foldl update {}).finish.bytes = [
      0xba, 0x78, 0x16, 0xbf, 0x8f, 0x01, 0xcf, 0xea, 0x41, 0x41, 0x40, 0xde, 0x5d, 0xae, 0x22,
      0x23, 0xb0, 0x03, 0x61, 0xa3, 0x96, 0x17, 0x7a, 0x9c, 0xb4, 0x10, 0xff, 0x61, 0xf2, 0x00,
      0x15, 0xad] := by decide +kernel
  have hashed := (sha256_correct [[97], [98, 99]] (by decide)).1
  rw [computed] at hashed
  exact hashed.symm

end Sha256Builder
end SplitBrainFabric
