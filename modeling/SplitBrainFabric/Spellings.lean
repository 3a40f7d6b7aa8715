import SplitBrainFabric.Records

/-! What each reader accepts, for every input. All but one accept the images of their
writer and nothing else; a scope is also read from its extents in another order. -/

namespace SplitBrainFabric
open Words Decoder

/-- A fixed number of bytes that stand for a value one to one. -/
theorem exact_fixed {α : Type} {width : Nat} {write : α → Bytes} {read : Bytes → α}
    (size : ∀ a, (write a).length = width) (there : ∀ a, read (write a) = a)
    (back : ∀ raw, raw.length = width → write (read raw) = raw) :
    Exact (Reader.take width >>= fun raw => pure (read raw)) (fun _ => True) write := by
  refine ((Spells.take Reader.short width).bind fun raw => .pure (read raw)).congr ?_
  intro a image
  constructor
  · rintro ⟨-, rfl⟩
    exact ⟨write a, write a, [], ⟨size a, rfl⟩, ⟨(there a).symm, rfl⟩, by rw [List.append_nil]⟩
  · rintro ⟨raw, _, _, ⟨length, same⟩, ⟨rfl, rfl⟩, rfl⟩
    exact ⟨trivial, by rw [back raw length, same, List.append_nil]⟩

theorem exact_u8 : Exact Reader.u8 (fun _ => True) Writer.u8 :=
  exact_fixed (fun _ => rfl) (fun _ => rfl) fun raw length => by
    obtain ⟨b, rfl⟩ := List.length_eq_one_iff.mp length
    rfl

/-- The bytes of a word are the only ones of their number with its value. -/
theorem putLE_getLE_of_length {raw : Bytes} {width value : Nat} (length : raw.length = width)
    (same : value = getLE raw) : putLE width value = raw := by
  rw [same, ← length, putLE_getLE]

theorem exact_u16 : Exact Reader.u16 (fun _ => True) Writer.u16 :=
  exact_fixed (fun _ => rfl) getLE_put16 fun raw length => by
    refine putLE_getLE_of_length length ?_
    have bound := getLE_bound raw
    rw [length] at bound
    rw [UInt16.toNat_ofNat']
    exact Nat.mod_eq_of_lt bound

theorem exact_u32 : Exact Reader.u32 (fun _ => True) Writer.u32 :=
  exact_fixed (fun _ => rfl) getLE_put32 fun raw length => by
    refine putLE_getLE_of_length length ?_
    have bound := getLE_bound raw
    rw [length] at bound
    rw [UInt32.toNat_ofNat']
    exact Nat.mod_eq_of_lt bound

theorem put64_getLE {raw : Bytes} (length : raw.length = 8) :
    Writer.u64 (UInt64.ofNat (getLE raw)) = raw := by
  refine putLE_getLE_of_length length ?_
  have bound := getLE_bound raw
  rw [length] at bound
  rw [UInt64.toNat_ofNat']
  exact Nat.mod_eq_of_lt bound

theorem exact_u64 : Exact Reader.u64 (fun _ => True) Writer.u64 := by
  refine ((Spells.take Reader.short 4).bind fun low =>
    (Spells.take Reader.short 4).bind fun high =>
      .pure (UInt64.ofNat (getLE (low ++ high)))).congr ?_
  intro a image
  constructor
  · rintro ⟨-, rfl⟩
    have halves := List.take_append_drop 4 (putLE 8 a.toNat)
    refine ⟨(putLE 8 a.toNat).take 4, _, _, ⟨by simp, rfl⟩,
      ⟨(putLE 8 a.toNat).drop 4, _, [], ⟨by simp, rfl⟩, ⟨?_, rfl⟩, rfl⟩, ?_⟩
    · rw [halves, getLE_put64]
    · rw [List.append_nil, halves]
      rfl
  · rintro ⟨low, _, _, ⟨lowLength, rfl⟩, ⟨high, _, _, ⟨highLength, rfl⟩, ⟨rfl, rfl⟩, rfl⟩, rfl⟩
    refine ⟨trivial, ?_⟩
    rw [List.append_nil, put64_getLE (by rw [List.length_append, lowLength, highLength])]

theorem exact_i64 : Exact Reader.i64 (fun _ => True) Writer.i64 := by
  refine (exact_u64.bind fun raw => .pure raw.toInt64).congr ?_
  intro a image
  constructor
  · rintro ⟨-, rfl⟩
    exact ⟨a.toUInt64, _, [], ⟨trivial, rfl⟩, ⟨(Int64.toInt64_toUInt64 a).symm, rfl⟩,
      by rw [List.append_nil]; rfl⟩
  · rintro ⟨raw, _, _, ⟨-, rfl⟩, ⟨rfl, rfl⟩, rfl⟩
    exact ⟨trivial, by rw [List.append_nil, Writer.i64, UInt64.toUInt64_toInt64]⟩

theorem exact_boolean : Exact Reader.boolean (fun _ => True) Writer.boolean := by
  refine (exact_u8.bind fun raw => Spells.ite (.throw _) (.pure (raw == 1))).congr ?_
  intro a image
  constructor
  · rintro ⟨-, rfl⟩
    cases a
    · exact ⟨0, [0], [], ⟨trivial, rfl⟩, by simp, rfl⟩
    · exact ⟨1, [1], [], ⟨trivial, rfl⟩, by simp, rfl⟩
  · rintro ⟨raw, _, _, ⟨-, rfl⟩, accepted, rfl⟩
    split at accepted
    · exact accepted.elim
    · rename_i small
      obtain ⟨rfl, rfl⟩ := accepted
      have either : raw = 0 ∨ raw = 1 := by
        have bound : raw.toNat ≤ 1 := UInt8.le_iff_toNat_le.mp (UInt8.not_lt.mp small)
        rcases Nat.le_one_iff_eq_zero_or_eq_one.mp bound with zero | one
        · exact .inl (UInt8.toNat_inj.mp zero)
        · exact .inr (UInt8.toNat_inj.mp one)
      rcases either with rfl | rfl
      · exact ⟨trivial, rfl⟩
      · exact ⟨trivial, rfl⟩

theorem exact_text : Exact Reader.text (·.length < 65536) Writer.text := by
  refine (exact_u16.bind fun length => Spells.take Reader.short length.toNat).congr ?_
  intro a image
  constructor
  · rintro ⟨fits, rfl⟩
    refine ⟨UInt16.ofNat a.length, _, a, ⟨trivial, rfl⟩, ⟨?_, rfl⟩, rfl⟩
    rw [UInt16.toNat_ofNat', Nat.mod_eq_of_lt fits]
  · rintro ⟨length, _, _, ⟨-, rfl⟩, ⟨size, rfl⟩, rfl⟩
    have small := length.toNat_lt
    refine ⟨by omega, ?_⟩
    rw [Writer.text, size, UInt16.ofNat_toNat]

theorem exact_blob : Exact Reader.blob (·.length ≤ Limits.maxSnapshotBytes) Writer.blob := by
  refine (exact_u32.bind fun length =>
    Spells.ite (.throw _) (Spells.take Reader.short length.toNat)).congr ?_
  intro a image
  constructor
  · rintro ⟨fits, rfl⟩
    have small : a.length < 2 ^ 32 := by
      simp only [Limits.maxSnapshotBytes] at fits
      omega
    have value : (UInt32.ofNat a.length).toNat = a.length := by
      rw [UInt32.toNat_ofNat', Nat.mod_eq_of_lt small]
    refine ⟨UInt32.ofNat a.length, _, a, ⟨trivial, rfl⟩, ?_, rfl⟩
    rw [value, if_neg (Nat.not_lt.mpr fits)]
    exact ⟨rfl, rfl⟩
  · rintro ⟨length, _, _, ⟨-, rfl⟩, accepted, rfl⟩
    split at accepted
    · exact accepted.elim
    · rename_i fits
      obtain ⟨size, rfl⟩ := accepted
      refine ⟨by omega, ?_⟩
      rw [Writer.blob, size, UInt32.ofNat_toNat]

theorem exact_digest : Exact Reader.digest (fun _ => True) Writer.digest := by
  have body : ∀ raw : Bytes, Spells (if size : raw.length = 32 then
      (pure ⟨raw, size⟩ : Reader.Read Digest256) else throw (Reader.short 0))
      fun a image => a.bytes = raw ∧ image = [] := by
    intro raw
    split
    · rename_i size
      refine (Spells.pure _).congr fun a image => and_congr_left fun _ => ?_
      constructor
      · rintro rfl
        rfl
      · rintro rfl
        rfl
    · rename_i size
      refine (Spells.throw _).congr fun a image => ?_
      constructor
      · rintro ⟨rfl, -⟩
        exact size a.size
      · exact False.elim
  refine ((Spells.take Reader.short 32).bind body).congr ?_
  intro a image
  constructor
  · rintro ⟨-, rfl⟩
    exact ⟨a.bytes, a.bytes, [], ⟨a.size, rfl⟩, ⟨rfl, rfl⟩, by rw [List.append_nil]; rfl⟩
  · rintro ⟨raw, _, _, ⟨size, rfl⟩, ⟨rfl, rfl⟩, rfl⟩
    exact ⟨trivial, by rw [List.append_nil]; rfl⟩

/-- A code read as the value it belongs to, for codes that are told apart. -/
theorem exact_coded {α : Type} {code : α → UInt16} {fromCode : UInt16 → Option α}
    {d : UInt16 → Reader.Read α} {refusal : UInt16 → Status}
    (known : ∀ raw a, fromCode raw = some a → d raw = pure a)
    (unknown : ∀ raw, fromCode raw = none → d raw = throw (refusal raw))
    (there : ∀ a, fromCode (code a) = some a)
    (back : ∀ raw a, fromCode raw = some a → code a = raw) :
    Exact (Reader.u16 >>= d) (fun _ => True) (fun a => Writer.u16 (code a)) := by
  have body : ∀ raw, Spells (d raw) fun a image => fromCode raw = some a ∧ image = [] := by
    intro raw
    cases read : fromCode raw with
    | none =>
      rw [unknown raw read]
      exact (Spells.throw _).congr fun a image => by simp
    | some b =>
      rw [known raw b read]
      exact (Spells.pure b).congr fun a image => by simp [eq_comm]
  refine (exact_u16.bind body).congr ?_
  intro a image
  constructor
  · rintro ⟨-, rfl⟩
    exact ⟨code a, _, [], ⟨trivial, rfl⟩, ⟨there a, rfl⟩, by rw [List.append_nil]⟩
  · rintro ⟨raw, _, _, ⟨-, rfl⟩, ⟨read, rfl⟩, rfl⟩
    exact ⟨trivial, by rw [← back raw a read, List.append_nil]⟩

/-- A value found by its code has that code. -/
theorem code_of_find {α : Type} {code : α → UInt16} {all : List α} (raw : UInt16) (a : α)
    (found : all.find? (code · = raw) = some a) : code a = raw :=
  of_decide_eq_true (List.find?_some (p := fun x => decide (code x = raw)) found)

theorem exact_enum {α : Type} {code : α → UInt16} {fromCode : UInt16 → Option α}
    (there : ∀ a, fromCode (code a) = some a)
    (back : ∀ raw a, fromCode raw = some a → code a = raw) :
    Exact (Reader.enum fromCode) (fun _ => True) (fun a => Writer.u16 (code a)) :=
  exact_coded (fun raw o read => by rw [read]) (fun raw none => by rw [none]) there back

theorem exact_outcome : Exact Reader.outcome (fun _ => True) Writer.outcome :=
  exact_coded (fun raw o read => by rw [read]) (fun raw none => by rw [none])
    outcomeFromCode_code code_of_find

theorem exact_reason : Exact Reader.reason (fun _ => True) Writer.reason :=
  exact_coded (fun raw r read => by rw [read]) (fun raw none => by rw [none])
    reasonFromCode_code code_of_find

theorem exact_quorumMode : Exact QuorumMode.read (fun _ => True) fun m => Writer.u16 m.code :=
  exact_coded (fun raw m read => by rw [read]) (fun raw none => by rw [none])
    QuorumMode.fromCode_code code_of_find

theorem spells_idOf {tag : IdTag} (o : Outcome) (value : Bytes) :
    Spells (Reader.idOf o value : Reader.Read (Id tag)) fun id image =>
      (id.isEmpty = false ∧ id.value = value) ∧ image = [] := by
  unfold Reader.idOf
  cases made : (Id.tryMake value : Option (Id tag)) with
  | none =>
    refine (Spells.throw _).congr fun id image => ?_
    constructor
    · rintro ⟨⟨named, rfl⟩, -⟩
      rw [Id.tryMake_value named] at made
      cases made
    · exact False.elim
  | some made' =>
    refine (Spells.pure made').congr fun id image => and_congr_left fun _ => ?_
    constructor
    · rintro ⟨named, rfl⟩
      rw [Id.tryMake_value named] at made
      exact Option.some.inj made
    · rintro rfl
      exact ⟨Id.tryMake_isEmpty made, Id.tryMake_text made⟩

theorem exact_identifier {tag : IdTag} (o : Outcome) :
    Exact (Reader.identifier o : Reader.Read (Id tag)) (·.isEmpty = false)
      fun id => Writer.text id.value := by
  refine (exact_text.bind fun value => spells_idOf o value).congr ?_
  intro id image
  constructor
  · rintro ⟨named, rfl⟩
    have short := id.length_le
    exact ⟨id.value, _, [], ⟨by omega, rfl⟩, ⟨⟨named, rfl⟩, rfl⟩, by rw [List.append_nil]⟩
  · rintro ⟨value, _, _, ⟨-, rfl⟩, ⟨⟨named, rfl⟩, rfl⟩, rfl⟩
    exact ⟨named, by rw [List.append_nil]⟩

theorem exact_optionalId {tag : IdTag} (o : Outcome) :
    Exact (Reader.optionalId o : Reader.Read (Id tag)) (fun _ => True)
      fun id => Writer.text id.value := by
  refine (exact_text.bind fun value => Spells.ite (.pure Id.empty) (spells_idOf o value)).congr ?_
  intro id image
  constructor
  · rintro ⟨-, rfl⟩
    have short := id.length_le
    refine ⟨id.value, _, [], ⟨by omega, rfl⟩, ?_, by rw [List.append_nil]⟩
    split
    · rename_i none
      exact ⟨Id.ext none, rfl⟩
    · rename_i filled
      exact ⟨⟨by simpa [Id.isEmpty] using filled, rfl⟩, rfl⟩
  · rintro ⟨value, _, _, ⟨-, rfl⟩, accepted, rfl⟩
    split at accepted
    · rename_i none
      obtain ⟨rfl, rfl⟩ := accepted
      exact ⟨trivial, by rw [List.append_nil, none]; rfl⟩
    · obtain ⟨⟨-, rfl⟩, rfl⟩ := accepted
      exact ⟨trivial, by rw [List.append_nil]⟩

section Collections

variable {α : Type} {item : Reader.Read α} {P : α → Prop} {write : α → Bytes} {bound : Nat}

/-- A count that is accepted stands in front of at least as many bytes. -/
theorem count_ok {n k : Nat} {bytes : Bytes} {c : Cursor}
    (ran : (Reader.count bound).run ⟨n, bytes⟩ = .ok (k, c)) :
    k ≤ bound ∧ ∃ left, bytes = Writer.u32 (UInt32.ofNat k) ++ left ∧ c = ⟨n + 4, left⟩ := by
  rw [Reader.count, run_bind] at ran
  cases first : Reader.u32.run ⟨n, bytes⟩ with
  | error e => rw [first] at ran; cases ran
  | ok r =>
    obtain ⟨raw, m, left⟩ := r
    obtain ⟨image, ⟨-, rfl⟩, rfl, rfl⟩ := (exact_u32 n bytes raw m left).mp first
    rw [first] at ran
    simp only at ran
    split at ran
    · cases ran
    · rename_i within
      rw [run_remaining_bind] at ran
      split at ran
      · cases ran
      · cases ran
        exact ⟨Nat.not_lt.mp within, left, by rw [UInt32.ofNat_toNat], rfl⟩

/-- The items must leave a trace, or a count could ask for more of them than bytes remain. -/
theorem exact_sequence (each : Exact item P write) (small : bound < 2 ^ 32)
    (filled : ∀ x, write x ≠ []) :
    Exact (Reader.sequence bound item) (fun xs => xs.length ≤ bound ∧ ∀ x ∈ xs, P x)
      (Writer.sequence write) := by
  intro n bytes xs n' rest
  have items := Spells.repeatM each xs.length
  constructor
  · intro ran
    rw [Reader.sequence, run_bind] at ran
    cases first : (Reader.count bound).run ⟨n, bytes⟩ with
    | error e => rw [first] at ran; cases ran
    | ok r =>
      obtain ⟨k, c⟩ := r
      rw [first] at ran
      obtain ⟨within, left, rfl, rfl⟩ := count_ok first
      obtain ⟨_, ⟨rfl, all, rfl⟩, rfl, rfl⟩ := (Spells.repeatM each k _ _ _ _ _).mp ran
      refine ⟨_, ⟨⟨within, all⟩, rfl⟩, (List.append_assoc _ _ _).symm, ?_⟩
      rw [Writer.sequence, List.length_append, Writer.u32_length, Nat.add_assoc]
  · rintro ⟨_, ⟨⟨within, all⟩, rfl⟩, rfl, rfl⟩
    rw [sequence_run n rest within small fun x _ => filled x]
    refine (items _ _ _ _ _).mpr ⟨_, ⟨rfl, all, rfl⟩, rfl, ?_⟩
    rw [Writer.sequence, List.length_append, Writer.u32_length, Nat.add_assoc]

/-- A nested value is read from the blob of any of its spellings. -/
theorem spells_nested {S : α → Bytes → Prop} (inner : Spells item S)
    (fits : ∀ a i, S a i → i.length ≤ Limits.maxSnapshotBytes) :
    Spells (Reader.nested item) fun a image => ∃ i, S a i ∧ image = Writer.blob i := by
  refine (exact_blob.bind fun bytes => .ofExcept (whole Reader.garbage item bytes)).congr ?_
  intro a image
  constructor
  · rintro ⟨i, spelled, rfl⟩
    exact ⟨i, _, [], ⟨fits a i spelled, rfl⟩, ⟨inner.whole_iff.mpr spelled, rfl⟩,
      by rw [List.append_nil]⟩
  · rintro ⟨i, _, _, ⟨-, rfl⟩, ⟨accepted, rfl⟩, rfl⟩
    exact ⟨i, inner.whole_iff.mp accepted, by rw [List.append_nil]⟩

theorem exact_nested (inner : Exact item P write)
    (fits : ∀ a, P a → (write a).length ≤ Limits.maxSnapshotBytes) :
    Exact (Reader.nested item) P (fun a => Writer.blob (write a)) := by
  refine (spells_nested inner fun a i spelled => ?_).congr fun a image => ?_
  · rw [spelled.2]
    exact fits a spelled.1
  · constructor
    · rintro ⟨holds, rfl⟩
      exact ⟨write a, ⟨holds, rfl⟩, rfl⟩
    · rintro ⟨_, ⟨holds, rfl⟩, rfl⟩
      exact ⟨holds, rfl⟩

end Collections

theorem exact_slot : Exact decodeSlot
    (fun slot => slot.witness.isEmpty = false ∧ slot.faultDomain.isEmpty = false) encodeSlot := by
  refine (exact_text.bind fun witnessText => exact_text.bind fun domainText =>
    (spells_idOf .invalid witnessText).bind fun witness =>
    (spells_idOf .invalid domainText).bind fun faultDomain =>
      .pure (⟨witness, faultDomain⟩ : WitnessSlot)).congr ?_
  rintro ⟨witness, faultDomain⟩ image
  have first := witness.length_le
  have second := faultDomain.length_le
  simp [encodeSlot]
  grind

namespace QuorumProfile

@[mk_iff] structure Encodable (p : QuorumProfile) : Prop where
  policy : p.policy.isEmpty = false
  bounded : p.witnesses.length ≤ Limits.maxWitnessesPerProfile
  witnesses : ∀ slot ∈ p.witnesses, slot.witness.isEmpty = false ∧
    slot.faultDomain.isEmpty = false

theorem exact_decode : Exact decode Encodable encode := by
  have witnesses : Exact (Reader.sequence Limits.maxWitnessesPerProfile decodeSlot) _ _ :=
    exact_sequence exact_slot (by decide) encodeSlot_ne_nil
  refine ((exact_identifier .invalid).bind fun policy => exact_u64.bind fun generation =>
    witnesses.bind fun witnesses => exact_quorumMode.bind fun mode =>
    exact_u32.bind fun threshold => exact_u32.bind fun minFaultDomains =>
    exact_u64.bind fun evidenceHorizonSteps => .pure (⟨policy, generation, witnesses, mode,
      threshold, minFaultDomains, evidenceHorizonSteps⟩ : QuorumProfile)).congr ?_
  rintro ⟨⟩ image
  simp [encode, encodable_iff]
  grind

end QuorumProfile

namespace Scope

/-- The extents of a scope in any order. -/
def Spelled (s : Scope) (image : Bytes) : Prop :=
  ∃ extents : List ExtentId, extents.Perm s.extents ∧
    image = Writer.sequence (fun e => Writer.text e.value) extents

theorem encode_spelled (s : Scope) : s.Spelled s.encode := ⟨s.extents, .refl _, rfl⟩

theorem make_perm {extents : List ExtentId} {s : Scope} (made : make extents = .ok s) :
    extents.Perm s.extents ∧ extents ≠ [] := by
  unfold make at made
  split at made
  · cases made
  · rename_i filled
    split at made
    · cases made
    · split at made
      · cases made
      · split at made
        · cases made
        · cases made
          exact ⟨(List.perm_insertionSort (· ≤ ·) extents).symm, filled⟩

theorem make_of_perm {extents : List ExtentId} {s : Scope} (filled : extents ≠ [])
    (same : extents.Perm s.extents) : make extents = .ok s := by
  have sorted : extents.insertionSort (· ≤ ·) = s.extents :=
    (List.perm_insertionSort (· ≤ ·) extents |>.trans same).eq_of_pairwise'
      (List.pairwise_insertionSort (· ≤ ·) extents) (s.sorted.imp le_of_lt)
  have small : ¬ Limits.maxExtentsPerScope < extents.length := by
    rw [same.length_eq]
    exact Nat.not_lt.mpr s.bounded
  have named : ¬ extents.any (·.isEmpty) = true := by
    rw [List.any_eq_true]
    rintro ⟨e, member, unnamed⟩
    rw [s.named e (same.mem_iff.mp member)] at unnamed
    cases unnamed
  have distinct : firstDuplicate 1 (extents.insertionSort (· ≤ ·)) = none := by
    rw [sorted]
    exact noDuplicate_of_strict s.sorted 1
  unfold make
  rw [if_neg filled, dif_neg small, dif_neg named]
  split
  · rename_i i found
    rw [distinct] at found
    cases found
  · exact congrArg Except.ok (ext sorted)

theorem spells_decode : Spells decode Spelled := by
  have items : Exact (Reader.sequence Limits.maxExtentsPerScope (Reader.identifier .invalid))
      (fun xs => xs.length ≤ Limits.maxExtentsPerScope ∧ ∀ e ∈ xs, e.isEmpty = false)
      (Writer.sequence fun e : ExtentId => Writer.text e.value) :=
    exact_sequence (exact_identifier _) (by decide) fun e none => by
      simpa using congrArg List.length none
  refine (items.bind fun extents =>
    Spells.ite (.pure empty) (.ofExcept (make extents))).congr ?_
  intro s image
  constructor
  · rintro ⟨extents, same, rfl⟩
    have bounded : extents.length ≤ Limits.maxExtentsPerScope := same.length_eq ▸ s.bounded
    have named : ∀ e ∈ extents, e.isEmpty = false := fun e member =>
      s.named e (same.mem_iff.mp member)
    refine ⟨extents, _, [], ⟨⟨bounded, named⟩, rfl⟩, ?_, by rw [List.append_nil]⟩
    split
    · rename_i none
      rw [none] at same
      exact ⟨ext (List.perm_nil.mp same.symm), rfl⟩
    · rename_i filled
      exact ⟨make_of_perm filled same, rfl⟩
  · rintro ⟨extents, _, _, ⟨-, rfl⟩, accepted, rfl⟩
    split at accepted
    · rename_i none
      obtain ⟨rfl, rfl⟩ := accepted
      exact ⟨extents, none ▸ .nil, by rw [List.append_nil]⟩
    · obtain ⟨made, rfl⟩ := accepted
      exact ⟨extents, (make_perm made).1, by rw [List.append_nil]⟩

end Scope

end SplitBrainFabric
