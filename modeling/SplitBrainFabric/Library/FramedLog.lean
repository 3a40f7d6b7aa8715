import SplitBrainFabric.Library.Words

/-! Append-only logs of frames: a length, a checksum and the payload, each frame
complete or the log torn there. A reader folds a visitor over the decoded payloads. -/

open Words

structure LogFormat (ε α : Type) where
  maxLength : Nat
  checksum : Bytes → UInt32
  decode : Bytes → Except ε α
  badLength : Nat → ε
  badChecksum : Nat → ε

namespace LogFormat

variable {ε α σ : Type} (format : LogFormat ε α)

/-- Length and checksum, four bytes each. -/
def frameHead (payload : Bytes) : Bytes :=
  putLE 4 (UInt32.ofNat payload.length).toNat ++ putLE 4 (format.checksum payload).toNat

def frame (payload : Bytes) : Bytes := format.frameHead payload ++ payload

structure Scan (σ : Type) where
  state : σ
  goodEnd : Nat
  torn : Bool

/-- Every turn consumes a whole frame, so the number of bytes bounds the turns. -/
def scan (visit : σ → α → Except ε σ) : Nat → Nat → σ → Bytes → Except ε (Scan σ)
  | 0, offset, s, _ => .ok ⟨s, offset, false⟩
  | turns + 1, offset, s, bytes =>
    if bytes = [] then .ok ⟨s, offset, false⟩
    else if bytes.length < 8 then .ok ⟨s, offset, true⟩
    else
      let length := getLE (bytes.take 4)
      if length = 0 ∨ format.maxLength < length then .error (format.badLength length)
      else if bytes.length - 8 < length then .ok ⟨s, offset, true⟩
      else
        let payload := (bytes.drop 8).take length
        if (format.checksum payload).toNat ≠ getLE ((bytes.drop 4).take 4) then
          .error (format.badChecksum offset)
        else
          match format.decode payload with
          | .error e => .error e
          | .ok a =>
            match visit s a with
            | .error e => .error e
            | .ok s' => scan visit turns (offset + 8 + length) s' (bytes.drop (8 + length))

def read (visit : σ → α → Except ε σ) (s : σ) (bytes : Bytes) : Except ε (Scan σ) :=
  format.scan visit bytes.length 0 s bytes

/-- Fold of a visitor that may refuse. -/
def visitAll (visit : σ → α → Except ε σ) : σ → List α → Except ε σ
  | s, [] => .ok s
  | s, a :: rest =>
    match visit s a with
    | .error e => .error e
    | .ok s' => visitAll visit s' rest

@[simp] theorem frameHead_length (payload : Bytes) : (format.frameHead payload).length = 8 := by
  simp [frameHead]

theorem frame_length (payload : Bytes) : (format.frame payload).length = 8 + payload.length := by
  simp [frame]

/-- A payload the format carries and reads back as `a`. -/
structure Carries (payload : Bytes) (a : α) : Prop where
  filled : payload ≠ []
  fits : payload.length ≤ format.maxLength
  small : format.maxLength < 2 ^ 32
  decoded : format.decode payload = .ok a

variable {format}

/-- A whole frame at the front of the bytes, its payload read as `a`. -/
structure Heads (format : LogFormat ε α) (bytes : Bytes) (length : Nat) (a : α) : Prop where
  size : getLE (bytes.take 4) = length
  whole : 8 + length ≤ bytes.length
  bounded : ¬ (length = 0 ∨ format.maxLength < length)
  sum : (format.checksum ((bytes.drop 8).take length)).toNat = getLE ((bytes.drop 4).take 4)
  decoded : format.decode ((bytes.drop 8).take length) = .ok a

theorem Heads.scan_cons {visit : σ → α → Except ε σ} {bytes : Bytes} {length : Nat} {a : α}
    (heads : format.Heads bytes length a) (turns offset : Nat) (s : σ) :
    format.scan visit (turns + 1) offset s bytes = match visit s a with
      | .error e => .error e
      | .ok s' => format.scan visit turns (offset + 8 + length) s' (bytes.drop (8 + length)) := by
  have whole := heads.whole
  have some : bytes ≠ [] := by
    rintro rfl
    rw [List.length_nil] at whole
    omega
  rw [scan, if_neg some, if_neg (by omega)]
  simp only [heads.size, if_neg heads.bounded]
  rw [if_neg (by omega), if_neg (not_not.mpr heads.sum), heads.decoded]

/-- What follows the frame does not matter to it. -/
theorem Heads.take {bytes : Bytes} {length n : Nat} {a : α} (heads : format.Heads bytes length a)
    (within : 8 + length ≤ n) : format.Heads (bytes.take n) length a := by
  have whole := heads.whole
  have first : (bytes.take n).take 4 = bytes.take 4 := by
    rw [List.take_take, Nat.min_eq_left (by omega)]
  have second : ((bytes.take n).drop 4).take 4 = (bytes.drop 4).take 4 := by
    rw [List.drop_take, List.take_take, Nat.min_eq_left (by omega)]
  have body : ((bytes.take n).drop 8).take length = (bytes.drop 8).take length := by
    rw [List.drop_take, List.take_take, Nat.min_eq_left (by omega)]
  refine ⟨?_, ?_, heads.bounded, ?_, ?_⟩
  · rw [first]
    exact heads.size
  · rw [List.length_take]
    omega
  · rw [body, second]
    exact heads.sum
  · rw [body]
    exact heads.decoded

theorem Carries.toNat_length {payload : Bytes} {a : α} (carries : format.Carries payload a) :
    (UInt32.ofNat payload.length).toNat = payload.length := by
  rw [UInt32.toNat_ofNat']
  exact Nat.mod_eq_of_lt (lt_of_le_of_lt carries.fits carries.small)

theorem Carries.heads {payload : Bytes} {a : α} (carries : format.Carries payload a)
    (rest : Bytes) : format.Heads (format.frame payload ++ rest) payload.length a := by
  have filled := List.length_pos_iff.mpr carries.filled
  have fits := carries.fits
  have first : (format.frame payload ++ rest).take 4 = putLE 4 payload.length := by
    simp [frame, frameHead, carries.toNat_length]
  have second : ((format.frame payload ++ rest).drop 4).take 4 =
      putLE 4 (format.checksum payload).toNat := by
    simp [frame, frameHead]
  have body : ((format.frame payload ++ rest).drop 8).take payload.length = payload := by
    rw [frame, List.append_assoc, List.drop_left' (format.frameHead_length payload)]
    exact List.take_left
  refine ⟨?_, ?_, by omega, ?_, ?_⟩
  · rw [first, getLE_putLE]
    exact Nat.mod_eq_of_lt (lt_of_le_of_lt carries.fits carries.small)
  · rw [List.length_append, frame_length]
    omega
  · rw [body, second, getLE_putLE]
    exact (Nat.mod_eq_of_lt (format.checksum payload).toNat_lt).symm
  · rw [body]
    exact carries.decoded

theorem scan_frame {visit : σ → α → Except ε σ} {payload : Bytes} {a : α}
    (carries : format.Carries payload a) (turns offset : Nat) (s : σ) (rest : Bytes) :
    format.scan visit (turns + 1) offset s (format.frame payload ++ rest) =
      match visit s a with
      | .error e => .error e
      | .ok s' => format.scan visit turns (offset + (format.frame payload).length) s' rest := by
  have after : (format.frame payload ++ rest).drop (8 + payload.length) = rest :=
    List.drop_left' (format.frame_length payload)
  rw [(carries.heads rest).scan_cons, after, frame_length, Nat.add_assoc]

/-- Reading back what was appended visits exactly the appended values. -/
theorem scan_frames {visit : σ → α → Except ε σ} {image : α → Bytes} (l : List α)
    (carries : ∀ a ∈ l, format.Carries (image a) a) (turns offset : Nat) (s : σ)
    (enough : (l.flatMap fun a => format.frame (image a)).length ≤ turns) :
    format.scan visit turns offset s (l.flatMap fun a => format.frame (image a)) =
      (visitAll visit s l).map
        (⟨·, offset + (l.flatMap fun a => format.frame (image a)).length, false⟩) := by
  induction l generalizing turns offset s with
  | nil =>
    cases turns with
    | zero => rfl
    | succ turns => rfl
  | cons a rest ih =>
    rw [List.flatMap_cons] at enough ⊢
    rw [List.length_append, frame_length] at enough
    obtain ⟨turns, rfl⟩ : ∃ k, turns = k + 1 := ⟨turns - 1, by omega⟩
    rw [scan_frame (carries a List.mem_cons_self), visitAll]
    cases visit s a with
    | error e => rfl
    | ok s' =>
      have tail := ih (fun b member => carries b (List.mem_cons_of_mem a member)) turns
        (offset + (format.frame (image a)).length) s' (by omega)
      simp only [tail, List.length_append, Nat.add_assoc]

theorem read_frames {visit : σ → α → Except ε σ} {image : α → Bytes} (l : List α)
    (carries : ∀ a ∈ l, format.Carries (image a) a) (s : σ) :
    format.read visit s (l.flatMap fun a => format.frame (image a)) =
      (visitAll visit s l).map
        (⟨·, (l.flatMap fun a => format.frame (image a)).length, false⟩) := by
  rw [read, scan_frames l carries _ 0 s le_rfl, Nat.zero_add]

/-- Keep every value. -/
def collect (seen : List α) (a : α) : Except ε (List α) := .ok (seen ++ [a])

theorem visitAll_collect (l seen : List α) :
    visitAll (ε := ε) collect seen l = .ok (seen ++ l) := by
  induction l generalizing seen with
  | nil => rw [List.append_nil]; rfl
  | cons a rest ih =>
    have tail := ih (seen ++ [a])
    rw [List.append_assoc] at tail
    exact tail

theorem visitAll_append (visit : σ → α → Except ε σ) (l rest : List α) (s : σ) :
    visitAll visit s (l ++ rest) = (visitAll visit s l).bind (visitAll visit · rest) := by
  induction l generalizing s with
  | nil => rfl
  | cons a l ih =>
    rw [List.cons_append, visitAll, visitAll]
    cases visit s a with
    | error e => rfl
    | ok s' => exact ih s'

/-- Turns beyond the number of bytes change nothing. -/
theorem scan_turns {visit : σ → α → Except ε σ} (m n offset : Nat) (s : σ) (bytes : Bytes)
    (enough : bytes.length ≤ m) (enough' : bytes.length ≤ n) :
    format.scan visit m offset s bytes = format.scan visit n offset s bytes := by
  induction m generalizing n offset s bytes with
  | zero =>
    have none : bytes = [] := List.length_eq_zero_iff.mp (by omega)
    subst none
    cases n with
    | zero => rfl
    | succ n => rfl
  | succ m ih =>
    cases n with
    | zero =>
      have none : bytes = [] := List.length_eq_zero_iff.mp (by omega)
      subst none
      rfl
    | succ n =>
      rw [scan, scan]
      by_cases none : bytes = []
      · rw [if_pos none, if_pos none]
      rw [if_neg none, if_neg none]
      by_cases short : bytes.length < 8
      · rw [if_pos short, if_pos short]
      rw [if_neg short, if_neg short]
      have tail := fun s' => ih n (offset + 8 + getLE (bytes.take 4)) s'
        (bytes.drop (8 + getLE (bytes.take 4))) (by rw [List.length_drop]; omega)
        (by rw [List.length_drop]; omega)
      simp only [tail]

/-- What a scan visits is a property of the bytes, not of the visitor. -/
structure Visits (format : LogFormat ε α) (turns offset : Nat) (bytes : Bytes) (l : List α)
    (goodEnd : Nat) (torn : Bool) : Prop where
  scanned : ∀ {τ : Type} (visit : τ → α → Except ε τ) (t t' : τ), visitAll visit t l = .ok t' →
    format.scan visit turns offset t bytes = .ok ⟨t', goodEnd, torn⟩
  extent : ∃ n ≤ bytes.length, goodEnd = offset + n ∧
    (bytes.length ≤ turns → torn = false → n = bytes.length) ∧
    ∀ {τ : Type} (visit : τ → α → Except ε τ) (t t' : τ), visitAll visit t l = .ok t' →
      format.scan visit turns offset t (bytes.take n) = .ok ⟨t', goodEnd, false⟩
  decoded : ∀ a ∈ l, ∃ payload, format.decode payload = .ok a

theorem Visits.stop {turns offset : Nat} {bytes : Bytes} {torn : Bool}
    (stops : ∀ {τ : Type} (visit : τ → α → Except ε τ) (t : τ),
      format.scan visit turns offset t bytes = .ok ⟨t, offset, torn⟩)
    (whole : bytes.length ≤ turns → torn = false → bytes = []) :
    Visits format turns offset bytes [] offset torn := by
  refine ⟨fun visit t t' all => ?_,
    ⟨0, Nat.zero_le _, rfl, fun enough intact => ?_, ?_⟩, by simp⟩
  · cases all
    exact stops visit t
  · rw [whole enough intact]
    rfl
  · intro τ visit t t' all
    cases all
    cases turns with
    | zero => rfl
    | succ turns => rfl

theorem Visits.cons {turns offset length goodEnd : Nat} {bytes : Bytes} {a : α} {l : List α}
    {torn : Bool} (heads : format.Heads bytes length a)
    (visits : Visits format turns (offset + 8 + length) (bytes.drop (8 + length)) l goodEnd torn) :
    Visits format (turns + 1) offset bytes (a :: l) goodEnd torn := by
  have long := heads.whole
  obtain ⟨n, within, ends, whole, cut⟩ := visits.extent
  rw [List.length_drop] at within whole
  refine ⟨?_, ⟨8 + length + n, by omega, by omega, ?_, ?_⟩, ?_⟩
  · intro τ visit t t' taken
    rw [visitAll] at taken
    rw [heads.scan_cons]
    cases step : visit t a with
    | error e => rw [step] at taken; cases taken
    | ok t₁ =>
      rw [step] at taken
      exact visits.scanned visit t₁ t' taken
  · intro enough intact
    have rest := whole (by omega) intact
    omega
  · intro τ visit t t' taken
    rw [visitAll] at taken
    rw [(heads.take (Nat.le_add_right (8 + length) n)).scan_cons, List.drop_take,
      Nat.add_sub_cancel_left]
    cases step : visit t a with
    | error e => rw [step] at taken; cases taken
    | ok t₁ =>
      rw [step] at taken
      exact cut visit t₁ t' taken
  · intro b member
    rcases List.mem_cons.mp member with rfl | later
    · exact ⟨_, heads.decoded⟩
    · exact visits.decoded b later

/-- A turn stops, for every visitor alike, or takes one whole frame off the front. -/
theorem scan_cases {visit : σ → α → Except ε σ} {turns offset : Nat} {s : σ} {bytes : Bytes}
    {r : Scan σ} (ran : format.scan visit (turns + 1) offset s bytes = .ok r) :
    (∃ torn, r = ⟨s, offset, torn⟩ ∧ (torn = false → bytes = []) ∧
        ∀ {τ : Type} (visit : τ → α → Except ε τ) (t : τ),
          format.scan visit (turns + 1) offset t bytes = .ok ⟨t, offset, torn⟩) ∨
      ∃ length a s', format.Heads bytes length a ∧ visit s a = .ok s' ∧
        format.scan visit turns (offset + 8 + length) s' (bytes.drop (8 + length)) = .ok r := by
  rw [scan] at ran
  by_cases none : bytes = []
  · rw [if_pos none] at ran
    cases ran
    exact .inl ⟨false, rfl, fun _ => none, fun _ _ => by rw [scan, if_pos none]⟩
  rw [if_neg none] at ran
  by_cases short : bytes.length < 8
  · rw [if_pos short] at ran
    cases ran
    exact .inl ⟨true, rfl, by simp, fun _ _ => by rw [scan, if_neg none, if_pos short]⟩
  rw [if_neg short] at ran
  by_cases bad : getLE (bytes.take 4) = 0 ∨ format.maxLength < getLE (bytes.take 4)
  · simp only [if_pos bad] at ran
    cases ran
  simp only [if_neg bad] at ran
  by_cases cut : bytes.length - 8 < getLE (bytes.take 4)
  · rw [if_pos cut] at ran
    cases ran
    refine .inl ⟨true, rfl, by simp, fun _ _ => ?_⟩
    rw [scan, if_neg none, if_neg short]
    simp only [if_neg bad, if_pos cut]
  rw [if_neg cut] at ran
  by_cases sum : (format.checksum ((bytes.drop 8).take (getLE (bytes.take 4)))).toNat ≠
      getLE ((bytes.drop 4).take 4)
  · rw [if_pos sum] at ran
    cases ran
  rw [if_neg sum] at ran
  cases decoded : format.decode ((bytes.drop 8).take (getLE (bytes.take 4))) with
  | error e => rw [decoded] at ran; cases ran
  | ok a =>
    simp only [decoded] at ran
    cases visited : visit s a with
    | error e => rw [visited] at ran; cases ran
    | ok s' =>
      simp only [visited] at ran
      exact .inr ⟨_, a, s', ⟨rfl, by omega, bad, not_not.mp sum, decoded⟩, visited, ran⟩

theorem scan_visits {visit : σ → α → Except ε σ} {turns offset : Nat} {s : σ} {bytes : Bytes}
    {r : Scan σ} (ran : format.scan visit turns offset s bytes = .ok r) :
    ∃ l, visitAll visit s l = .ok r.state ∧
      Visits format turns offset bytes l r.goodEnd r.torn := by
  induction turns generalizing offset s bytes with
  | zero =>
    cases ran
    exact ⟨[], rfl, .stop (fun _ _ => rfl) fun enough _ => List.length_eq_zero_iff.mp (by omega)⟩
  | succ turns ih =>
    rcases scan_cases ran with ⟨torn, rfl, whole, stops⟩ | ⟨length, a, s', heads, visited, rest⟩
    · exact ⟨[], rfl, .stop stops fun _ intact => whole intact⟩
    · obtain ⟨l, all, visits⟩ := ih rest
      refine ⟨a :: l, ?_, visits.cons heads⟩
      rw [visitAll, visited]
      exact all

/-- The values of a file: everything complete in it. -/
def contents (format : LogFormat ε α) (bytes : Bytes) : Except ε (Scan (List α)) :=
  format.read collect [] bytes

theorem read_visits {visit : σ → α → Except ε σ} {s : σ} {bytes : Bytes} {r : Scan σ}
    (ran : format.read visit s bytes = .ok r) :
    ∃ l, visitAll visit s l = .ok r.state ∧
      format.contents bytes = .ok ⟨l, r.goodEnd, r.torn⟩ := by
  obtain ⟨l, all, visits⟩ := scan_visits ran
  exact ⟨l, all, visits.scanned collect [] l (visitAll_collect l [])⟩

/-- Whatever the decoder guarantees holds of every value of a file. -/
theorem contents_decoded {bytes : Bytes} {r : Scan (List α)} {P : α → Prop}
    (known : format.contents bytes = .ok r)
    (yields : ∀ payload a, format.decode payload = .ok a → P a) : ∀ a ∈ r.state, P a := by
  obtain ⟨l, kept, visits⟩ := scan_visits known
  rw [visitAll_collect, List.nil_append] at kept
  cases kept
  intro a member
  obtain ⟨payload, decoded⟩ := visits.decoded a member
  exact yields payload a decoded

/-- A reader gets through a file as far as its visitor does. -/
theorem read_contents {visit : σ → α → Except ε σ} {s t : σ} {bytes : Bytes} {l : List α}
    {goodEnd : Nat} {torn : Bool} (known : format.contents bytes = .ok ⟨l, goodEnd, torn⟩)
    (all : visitAll visit s l = .ok t) : format.read visit s bytes = .ok ⟨t, goodEnd, torn⟩ := by
  obtain ⟨l', kept, visits⟩ := scan_visits known
  rw [visitAll_collect, List.nil_append] at kept
  cases kept
  exact visits.scanned visit s t all

/-- Cutting a file behind its last complete frame loses nothing. -/
theorem contents_take {bytes : Bytes} {l : List α} {goodEnd : Nat} {torn : Bool}
    (known : format.contents bytes = .ok ⟨l, goodEnd, torn⟩) :
    format.contents (bytes.take goodEnd) = .ok ⟨l, goodEnd, false⟩ := by
  obtain ⟨l', kept, visits⟩ := scan_visits known
  rw [visitAll_collect, List.nil_append] at kept
  cases kept
  obtain ⟨n, within, size, -, cut⟩ := visits.extent
  rw [Nat.zero_add] at size
  simp only at size
  subst size
  rw [contents, read, scan_turns _ bytes.length 0 [] _ le_rfl (by rw [List.length_take]; omega)]
  exact cut collect [] l (visitAll_collect l [])

section Cut

variable (format) (image : α → Bytes)

/-- The values whose frames fit into `k` bytes. -/
def fitting : Nat → List α → List α
  | _, [] => []
  | k, a :: rest =>
    if (format.frame (image a)).length ≤ k then
      a :: fitting (k - (format.frame (image a)).length) rest
    else []

theorem fitting_prefix (k : Nat) (l : List α) : format.fitting image k l <+: l := by
  induction l generalizing k with
  | nil => exact List.prefix_rfl
  | cons a rest ih =>
    unfold fitting
    split
    · exact (List.prefix_cons_inj a).mpr (ih _)
    · exact List.nil_prefix

theorem fitting_all {l : List α} {k : Nat}
    (room : (l.flatMap fun a => format.frame (image a)).length ≤ k) :
    format.fitting image k l = l := by
  induction l generalizing k with
  | nil => rfl
  | cons a rest ih =>
    rw [List.flatMap_cons, List.length_append] at room
    rw [fitting, if_pos (by omega), ih (by omega)]

variable {format image}

theorem fitting_fits (l : List α) (k : Nat) :
    ((format.fitting image k l).flatMap fun a => format.frame (image a)).length ≤ k := by
  induction l generalizing k with
  | nil => exact Nat.zero_le k
  | cons a rest ih =>
    unfold fitting
    split
    · have tail := ih (k - (format.frame (image a)).length)
      rw [List.flatMap_cons, List.length_append]
      omega
    · exact Nat.zero_le k

/-- A longer prefix than the fitting one does not fit. -/
theorem fitting_most {l : List α} {k i : Nat} (beyond : (format.fitting image k l).length < i)
    (inside : i ≤ l.length) :
    k < ((l.take i).flatMap fun a => format.frame (image a)).length := by
  induction l generalizing k i with
  | nil =>
    rw [List.length_nil] at inside
    omega
  | cons a rest ih =>
    obtain ⟨i, rfl⟩ : ∃ n, i = n + 1 := ⟨i - 1, by omega⟩
    rw [List.take_succ_cons, List.flatMap_cons, List.length_append]
    unfold fitting at beyond
    split at beyond
    · have tail := ih (k := k - (format.frame (image a)).length) (i := i)
        (by rw [List.length_cons] at beyond; omega) (by rw [List.length_cons] at inside; omega)
      omega
    · omega

/-- One more frame than what certainly fits is there in full or not at all. -/
theorem fitting_one {l : List α} {a : α} {k : Nat}
    (room : (l.flatMap fun a => format.frame (image a)).length ≤ k) :
    format.fitting image k (l ++ [a]) = l ∨ format.fitting image k (l ++ [a]) = l ++ [a] ∧
      ((l ++ [a]).flatMap fun a => format.frame (image a)).length ≤ k := by
  induction l generalizing k with
  | nil =>
    rw [List.nil_append, fitting]
    split
    · rename_i fits
      exact .inr ⟨rfl, by simpa using fits⟩
    · exact .inl rfl
  | cons b rest ih =>
    rw [List.flatMap_cons, List.length_append] at room
    rw [List.cons_append, fitting, if_pos (by omega)]
    rcases ih (k := k - (format.frame (image b)).length) (by omega) with same | ⟨same, fits⟩
    · exact .inl (by rw [same])
    · refine .inr ⟨by rw [same], ?_⟩
      rw [List.flatMap_cons, List.length_append]
      omega

theorem scan_torn {visit : σ → α → Except ε σ} {payload : Bytes} {a : α}
    (carries : format.Carries payload a) {k : Nat} (some : 0 < k)
    (short : k < (format.frame payload).length) (turns offset : Nat) (s : σ) :
    format.scan visit (turns + 1) offset s ((format.frame payload).take k) =
      .ok ⟨s, offset, true⟩ := by
  have size : ((format.frame payload).take k).length = k := by
    rw [List.length_take]
    omega
  have filled : (format.frame payload).take k ≠ [] := by
    intro h
    rw [h, List.length_nil] at size
    omega
  rw [scan, if_neg filled, size]
  by_cases head : k < 8
  · rw [if_pos head]
  have first : ((format.frame payload).take k).take 4 =
      putLE 4 (UInt32.ofNat payload.length).toNat := by
    rw [List.take_take, Nat.min_eq_left (by omega), frame, frameHead, List.append_assoc]
    exact List.take_left' (putLE_length 4 _)
  have length : getLE (((format.frame payload).take k).take 4) = payload.length := by
    rw [first, getLE_putLE, carries.toNat_length]
    exact Nat.mod_eq_of_lt (lt_of_le_of_lt carries.fits carries.small)
  have positive := List.length_pos_iff.mpr carries.filled
  have fits := carries.fits
  rw [frame_length] at short
  rw [if_neg head]
  simp only [length]
  rw [if_neg (by omega), if_pos (by omega)]

/-- A log cut anywhere reads back to the last frame that is whole. -/
theorem scan_cut {visit : σ → α → Except ε σ} (l : List α)
    (carries : ∀ a ∈ l, format.Carries (image a) a) (k turns offset : Nat) (s : σ)
    (enough : k ≤ turns) :
    format.scan visit turns offset s ((l.flatMap fun a => format.frame (image a)).take k) =
      (visitAll visit s (format.fitting image k l)).map fun t =>
        ⟨t, offset + ((format.fitting image k l).flatMap fun a => format.frame (image a)).length,
          decide (((format.fitting image k l).flatMap fun a => format.frame (image a)).length <
            min k (l.flatMap fun a => format.frame (image a)).length)⟩ := by
  induction l generalizing k turns offset s with
  | nil =>
    rw [List.flatMap_nil, List.take_nil]
    cases turns with
    | zero => simp [scan, fitting, visitAll, Except.map]
    | succ turns => simp [scan, fitting, visitAll, Except.map]
  | cons a rest ih =>
    have size := format.frame_length (image a)
    rw [List.flatMap_cons]
    by_cases fits : (format.frame (image a)).length ≤ k
    · obtain ⟨turns, rfl⟩ : ∃ n, turns = n + 1 := ⟨turns - 1, by omega⟩
      have parts : (format.frame (image a) ++ rest.flatMap fun a => format.frame (image a)).take k =
          format.frame (image a) ++
            (rest.flatMap fun a => format.frame (image a)).take (k - (format.frame (image a)).length) := by
        rw [List.take_append, List.take_of_length_le fits]
      rw [parts, scan_frame (carries a List.mem_cons_self), fitting, if_pos fits, visitAll]
      cases visit s a with
      | error e => rfl
      | ok s' =>
        have tail := ih (fun b member => carries b (List.mem_cons_of_mem a member))
          (k - (format.frame (image a)).length) turns (offset + (format.frame (image a)).length) s'
          (by omega)
        simp only [tail, List.flatMap_cons, List.length_append, Nat.add_assoc]
        congr 1
        funext t
        congr 1
        rw [decide_eq_decide]
        omega
    · rw [fitting, if_neg fits, List.take_append_of_le_length (by omega)]
      simp only [visitAll, Except.map, List.flatMap_nil, List.length_nil, Nat.add_zero,
        List.length_append]
      by_cases none : k = 0
      · subst none
        cases turns with
        | zero => simp [scan]
        | succ turns => simp [scan]
      · obtain ⟨turns, rfl⟩ : ∃ n, turns = n + 1 := ⟨turns - 1, by omega⟩
        rw [scan_torn (carries a List.mem_cons_self) (by omega) (by omega)]
        have behind : 0 < min k ((format.frame (image a)).length +
            (rest.flatMap fun a => format.frame (image a)).length) := by omega
        rw [decide_eq_true behind]

theorem contents_cut {l : List α} (carries : ∀ a ∈ l, format.Carries (image a) a) (k : Nat) :
    format.contents ((l.flatMap fun a => format.frame (image a)).take k) =
      .ok ⟨format.fitting image k l,
        ((format.fitting image k l).flatMap fun a => format.frame (image a)).length,
        decide (((format.fitting image k l).flatMap fun a => format.frame (image a)).length <
          min k (l.flatMap fun a => format.frame (image a)).length)⟩ := by
  rw [contents, read, scan_turns _ k 0 [] _ le_rfl (by rw [List.length_take]; omega),
    scan_cut l carries k k 0 [] le_rfl, visitAll_collect, Nat.zero_add]
  rfl

theorem contents_frames {l : List α} (carries : ∀ a ∈ l, format.Carries (image a) a) :
    format.contents (l.flatMap fun a => format.frame (image a)) =
      .ok ⟨l, (l.flatMap fun a => format.frame (image a)).length, false⟩ := by
  rw [contents, read_frames l carries, visitAll_collect]
  rfl

/-- A proper part of a frame behind whole ones is a torn tail. -/
theorem contents_torn {l : List α} {a : α} {n : Nat}
    (carries : ∀ x ∈ l ++ [a], format.Carries (image x) x) (some : 0 < n)
    (short : n < (format.frame (image a)).length) :
    format.contents ((l.flatMap fun a => format.frame (image a)) ++
        (format.frame (image a)).take n) =
      .ok ⟨l, (l.flatMap fun a => format.frame (image a)).length, true⟩ := by
  have parts : (l.flatMap fun a => format.frame (image a)) ++ (format.frame (image a)).take n =
      ((l ++ [a]).flatMap fun a => format.frame (image a)).take
        ((l.flatMap fun a => format.frame (image a)).length + n) := by
    rw [List.flatMap_append, List.take_length_add_append]
    simp
  have total : ((l ++ [a]).flatMap fun a => format.frame (image a)).length =
      (l.flatMap fun a => format.frame (image a)).length + (format.frame (image a)).length := by
    simp
  have fits : format.fitting image
      ((l.flatMap fun a => format.frame (image a)).length + n) (l ++ [a]) = l := by
    rcases fitting_one (a := a) (Nat.le_add_right
      (l.flatMap fun a => format.frame (image a)).length n) with same | ⟨-, long⟩
    · exact same
    · omega
  rw [parts, contents_cut carries, fits, total]
  congr 2
  exact decide_eq_true (by omega)

end Cut

end LogFormat
