import SplitBrainFabric.Library.Words

/-! Reading a byte string from the front. `Reads` says that a decoder accepts the
image of a value and stops right behind it; `Agrees` is the weaker statement for
decoders that may also refuse, but never return anything else. `Spells` says of every
input what it is read as, so it also speaks of images that no encoder writes. -/

open Words

structure Cursor where
  offset : Nat := 0
  rest : Bytes
  deriving DecidableEq

abbrev Decoder (ε : Type) := StateT Cursor (Except ε)

namespace Decoder

variable {ε α β : Type}

/-- The next `n` bytes, or the refusal built from the current offset. -/
def take (short : Nat → ε) (n : Nat) : Decoder ε Bytes := fun c =>
  if c.rest.length < n then .error (short c.offset)
  else .ok (c.rest.take n, ⟨c.offset + n, c.rest.drop n⟩)

def remaining : Decoder ε Nat := fun c => .ok (c.rest.length, c)

def offset : Decoder ε Nat := fun c => .ok (c.offset, c)

def repeatM (item : Decoder ε α) : Nat → Decoder ε (List α)
  | 0 => pure []
  | n + 1 => do
    let x ← item
    let xs ← repeatM item n
    pure (x :: xs)

def ofExcept (x : Except ε α) : Decoder ε α := fun c => x.map (·, c)

def refuseIf (c : Prop) [Decidable c] (e : ε) : Decoder ε PUnit := if c then throw e else pure ⟨⟩

/-- A whole byte string through one decoder. -/
def whole (garbage : Nat → ε) (d : Decoder ε α) (bytes : Bytes) : Except ε α :=
  match d.run ⟨0, bytes⟩ with
  | .ok (a, c) => if c.rest = [] then .ok a else .error (garbage c.rest.length)
  | .error e => .error e

theorem run_bind (d : Decoder ε α) (f : α → Decoder ε β) (c : Cursor) :
    (d >>= f).run c = (match d.run c with
      | .ok (a, c') => (f a).run c'
      | .error e => .error e) := by
  simp only [StateT.run, bind, StateT.bind, Except.bind]
  cases d c <;> rfl

theorem run_remaining_bind (f : Nat → Decoder ε β) (c : Cursor) :
    (remaining >>= f).run c = (f c.rest.length).run c := rfl

theorem run_offset_bind (f : Nat → Decoder ε β) (c : Cursor) :
    (offset >>= f).run c = (f c.offset).run c := rfl

theorem run_refuseIf_bind {p : Prop} [Decidable p] {e : ε} (f : PUnit → Decoder ε β) (c : Cursor)
    (passes : ¬ p) : (refuseIf p e >>= f).run c = (f ⟨⟩).run c := by
  rw [refuseIf, if_neg passes]
  rfl

def Reads (d : Decoder ε α) (image : Bytes) (a : α) : Prop :=
  ∀ n rest, d.run ⟨n, image ++ rest⟩ = .ok (a, ⟨n + image.length, rest⟩)

/-- The decoder gets past exactly the spellings of a value. -/
def Spells (d : Decoder ε α) (spelled : α → Bytes → Prop) : Prop :=
  ∀ n bytes a n' rest, d.run ⟨n, bytes⟩ = .ok (a, ⟨n', rest⟩) ↔
    ∃ image, spelled a image ∧ bytes = image ++ rest ∧ n' = n + image.length

/-- The values with the property have one image each, and nothing else is read. -/
abbrev Exact (d : Decoder ε α) (P : α → Prop) (write : α → Bytes) : Prop :=
  Spells d fun a image => P a ∧ image = write a

def Agrees (d : Decoder ε α) (image : Bytes) (a : α) : Prop :=
  ∀ n rest b c, d.run ⟨n, image ++ rest⟩ = .ok (b, c) → b = a ∧ c = ⟨n + image.length, rest⟩

/-- Whatever is read has the property, wherever it is read from. -/
def Yields (d : Decoder ε α) (P : α → Prop) : Prop :=
  ∀ c a c', d.run c = .ok (a, c') → P a

namespace Yields

theorem pure {P : α → Prop} {a : α} (holds : P a) : Yields (Pure.pure a : Decoder ε α) P := by
  intro c b c' ran
  cases ran
  exact holds

theorem bind {d : Decoder ε α} {f : α → Decoder ε β} {P : α → Prop} {Q : β → Prop}
    (first : Yields d P) (second : ∀ a, P a → Yields (f a) Q) : Yields (d >>= f) Q := by
  intro c b c' ran
  rw [run_bind] at ran
  cases middle : d.run c with
  | error e => rw [middle] at ran; cases ran
  | ok r =>
    rw [middle] at ran
    exact second r.1 (first c r.1 r.2 middle) r.2 b c' ran

/-- A step whose result does not matter. -/
theorem skip {d : Decoder ε α} {f : α → Decoder ε β} {Q : β → Prop}
    (rest : ∀ a, Yields (f a) Q) : Yields (d >>= f) Q :=
  bind (P := fun _ => True) (fun _ _ _ _ => trivial) fun a _ => rest a

theorem refuseIf {c : Prop} [Decidable c] {e : ε} {f : PUnit → Decoder ε β} {Q : β → Prop}
    (rest : ¬ c → Yields (f ⟨⟩) Q) : Yields (Decoder.refuseIf c e >>= f) Q := by
  by_cases fails : c
  · intro start b c' ran
    rw [run_bind, Decoder.refuseIf, if_pos fails] at ran
    cases ran
  · intro start b c' ran
    rw [run_refuseIf_bind f start fails] at ran
    exact rest fails start b c' ran

theorem repeatM (item : Decoder ε α) (n : Nat) :
    Yields (Decoder.repeatM item n) (·.length = n) := by
  induction n with
  | zero => exact pure rfl
  | succ n ih => exact skip fun x => bind ih fun xs size => pure (congrArg (· + 1) size)

theorem whole {garbage : Nat → ε} {d : Decoder ε α} {P : α → Prop} {bytes : Bytes} {a : α}
    (yields : Yields d P) (accepted : Decoder.whole garbage d bytes = .ok a) : P a := by
  unfold Decoder.whole at accepted
  cases ran : d.run ⟨0, bytes⟩ with
  | error e => rw [ran] at accepted; cases accepted
  | ok r =>
    rw [ran] at accepted
    simp only at accepted
    split at accepted
    · cases accepted
      exact yields _ _ _ ran
    · cases accepted

end Yields

namespace Reads

theorem agrees {d : Decoder ε α} {image : Bytes} {a : α} (reads : Reads d image a) :
    Agrees d image a := by
  intro n rest b c ran
  rw [reads n rest] at ran
  cases ran
  exact ⟨rfl, rfl⟩

theorem pure (a : α) : Reads (Pure.pure a : Decoder ε α) [] a := fun _ _ => rfl

theorem run_then {d : Decoder ε α} {f : α → Decoder ε β} {image : Bytes} {a : α}
    (reads : Reads d image a) (n : Nat) (rest : Bytes) :
    (d >>= f).run ⟨n, image ++ rest⟩ = (f a).run ⟨n + image.length, rest⟩ := by
  rw [Decoder.run_bind, reads n rest]

theorem bind {d : Decoder ε α} {f : α → Decoder ε β} {image image' : Bytes} {a : α} {b : β}
    (first : Reads d image a) (second : Reads (f a) image' b) :
    Reads (d >>= f) (image ++ image') b := by
  intro n rest
  rw [List.append_assoc, run_bind, first n (image' ++ rest)]
  simp only [second (n + image.length) rest, List.length_append, Nat.add_assoc]

/-- A step that reads nothing. -/
theorem silent {d : Decoder ε α} {f : α → Decoder ε β} {image : Bytes} {a : α} {b : β}
    (first : Reads d [] a) (second : Reads (f a) image b) : Reads (d >>= f) image b :=
  bind first second

/-- One field of a record whose image is a list of field images. -/
theorem field {d : Decoder ε α} {f : α → Decoder ε β} {image : Bytes} {rest : List Bytes} {a : α}
    {b : β} (first : Reads d image a) (second : Reads (f a) rest.flatten b) :
    Reads (d >>= f) (image :: rest).flatten b :=
  bind first second

theorem refuseIf {c : Prop} [Decidable c] {e : ε} {f : PUnit → Decoder ε β} {image : Bytes} {b : β}
    (passes : ¬ c) (second : Reads (f ⟨⟩) image b) :
    Reads (Decoder.refuseIf c e >>= f) image b := by
  refine silent (a := ⟨⟩) ?_ second
  rw [Decoder.refuseIf, if_neg passes]
  exact pure _

theorem last {d : Decoder ε α} {f : α → β} {image : Bytes} {a : α} (reads : Reads d image a) :
    Reads (d >>= fun x => Pure.pure (f x)) image (f a) := by
  have h : Reads (d >>= fun x => Pure.pure (f x)) (image ++ []) (f a) := reads.bind (pure (f a))
  rwa [List.append_nil] at h

theorem take {short : Nat → ε} {bytes : Bytes} {n : Nat} (size : bytes.length = n) :
    Reads (Decoder.take short n) bytes bytes := by
  intro k rest
  subst size
  simp [Decoder.take, StateT.run]

theorem repeatM {item : Decoder ε α} {image : α → Bytes} (xs : List α)
    (each : ∀ x ∈ xs, Reads item (image x) x) :
    Reads (Decoder.repeatM item xs.length) (xs.flatMap image) xs := by
  induction xs with
  | nil => exact pure []
  | cons x xs ih =>
    have tail := ih fun y member => each y (List.mem_cons_of_mem x member)
    exact (each x List.mem_cons_self).bind tail.last

theorem whole {garbage : Nat → ε} {d : Decoder ε α} {image : Bytes} {a : α}
    (reads : Reads d image a) : Decoder.whole garbage d image = .ok a := by
  have ran := reads 0 []
  rw [List.append_nil] at ran
  simp only [Decoder.whole, ran, if_true]

end Reads

namespace Agrees

theorem pure (a : α) : Agrees (Pure.pure a : Decoder ε α) [] a := (Reads.pure a).agrees

theorem bind {d : Decoder ε α} {f : α → Decoder ε β} {image image' : Bytes} {a : α} {b : β}
    (first : Agrees d image a) (second : Agrees (f a) image' b) :
    Agrees (d >>= f) (image ++ image') b := by
  intro n rest x c ran
  rw [List.append_assoc, run_bind] at ran
  cases middle : d.run ⟨n, image ++ (image' ++ rest)⟩ with
  | error e => rw [middle] at ran; cases ran
  | ok r =>
    obtain ⟨y, c'⟩ := r
    rw [middle] at ran
    obtain ⟨rfl, rfl⟩ := first n (image' ++ rest) y c' middle
    obtain ⟨rfl, rfl⟩ := second _ rest x c ran
    exact ⟨rfl, by rw [List.length_append, Nat.add_assoc]⟩

theorem silent {d : Decoder ε α} {f : α → Decoder ε β} {image : Bytes} {a : α} {b : β}
    (first : Agrees d [] a) (second : Agrees (f a) image b) : Agrees (d >>= f) image b :=
  bind first second

theorem field {d : Decoder ε α} {f : α → Decoder ε β} {image : Bytes} {rest : List Bytes} {a : α}
    {b : β} (first : Agrees d image a) (second : Agrees (f a) rest.flatten b) :
    Agrees (d >>= f) (image :: rest).flatten b :=
  bind first second

theorem refuseIf {c : Prop} [Decidable c] {e : ε} {f : PUnit → Decoder ε β} {image : Bytes} {b : β}
    (second : ¬ c → Agrees (f ⟨⟩) image b) : Agrees (Decoder.refuseIf c e >>= f) image b := by
  by_cases fails : c
  · intro n rest x t ran
    rw [run_bind, Decoder.refuseIf, if_pos fails] at ran
    cases ran
  · have passed : Agrees (Decoder.refuseIf c e) [] PUnit.unit := by
      rw [Decoder.refuseIf, if_neg fails]
      exact pure _
    exact bind passed (second fails)

theorem last {d : Decoder ε α} {f : α → β} {image : Bytes} {a : α} (agrees : Agrees d image a) :
    Agrees (d >>= fun x => Pure.pure (f x)) image (f a) := by
  have h : Agrees (d >>= fun x => Pure.pure (f x)) (image ++ []) (f a) := agrees.bind (pure (f a))
  rwa [List.append_nil] at h

theorem repeatM {item : Decoder ε α} {image : α → Bytes} (xs : List α)
    (each : ∀ x ∈ xs, Agrees item (image x) x) :
    Agrees (Decoder.repeatM item xs.length) (xs.flatMap image) xs := by
  induction xs with
  | nil => exact pure []
  | cons x xs ih =>
    have tail := ih fun y member => each y (List.mem_cons_of_mem x member)
    exact (each x List.mem_cons_self).bind tail.last

theorem fails {d : Decoder ε α} {image : Bytes} (a : α) {e : ε}
    (refused : ∀ n rest, d.run ⟨n, image ++ rest⟩ = .error e) : Agrees d image a := by
  intro n rest b c ran
  rw [refused n rest] at ran
  cases ran

theorem whole {garbage : Nat → ε} {d : Decoder ε α} {image : Bytes} {a b : α}
    (agrees : Agrees d image a) (accepted : Decoder.whole garbage d image = .ok b) : b = a := by
  unfold Decoder.whole at accepted
  cases ran : d.run ⟨0, image⟩ with
  | error e => rw [ran] at accepted; cases accepted
  | ok r =>
    obtain ⟨x, c⟩ := r
    obtain ⟨rfl, rfl⟩ := agrees 0 [] x c (by rwa [List.append_nil])
    rw [ran] at accepted
    exact (Except.ok.inj accepted).symm

end Agrees

namespace Spells

variable {d : Decoder ε α} {S T : α → Bytes → Prop}

theorem reads (spells : Spells d S) {a : α} {image : Bytes} (spelled : S a image) :
    Reads d image a := fun n rest =>
  (spells n (image ++ rest) a _ rest).mpr ⟨image, spelled, rfl, rfl⟩

/-- Two spellings in front of one input are the same. -/
theorem splits (spells : Spells d S) {a b : α} {i j x y : Bytes} (spelled : S a i)
    (spelled' : S b j) (same : i ++ x = j ++ y) : a = b ∧ x = y := by
  have first := spells.reads spelled 0 x
  rw [same, spells.reads spelled' 0 y] at first
  obtain ⟨value, cursor⟩ := Prod.mk.inj (Except.ok.inj first)
  exact ⟨value.symm, (congrArg Cursor.rest cursor).symm⟩

theorem whole_iff (spells : Spells d S) {garbage : Nat → ε} {bytes : Bytes} {a : α} :
    Decoder.whole garbage d bytes = .ok a ↔ S a bytes := by
  constructor
  · intro accepted
    unfold Decoder.whole at accepted
    cases ran : d.run ⟨0, bytes⟩ with
    | error e => rw [ran] at accepted; cases accepted
    | ok r =>
      obtain ⟨b, n', rest⟩ := r
      rw [ran] at accepted
      obtain ⟨image, spelled, rfl, rfl⟩ := (spells _ _ _ _ _).mp ran
      simp only at accepted
      split at accepted
      · rename_i used
        cases accepted
        rwa [used, List.append_nil]
      · cases accepted
  · exact fun spelled => (spells.reads spelled).whole

/-- A spelling with more behind it, or with its end cut off, spells nothing. -/
theorem whole_refused (spells : Spells d S) {garbage : Nat → ε} {a : α} {image more : Bytes}
    (spelled : S a image) (proper : more ≠ []) :
    (∃ e, Decoder.whole garbage d (image ++ more) = .error e) ∧
      ∀ front, image = front ++ more → ∃ e, Decoder.whole garbage d front = .error e := by
  constructor
  · cases ran : Decoder.whole garbage d (image ++ more) with
    | error e => exact ⟨e, rfl⟩
    | ok b =>
      have split := spells.splits spelled (spells.whole_iff.mp ran) (List.append_nil _).symm
      exact absurd split.2 proper
  · intro front parts
    cases ran : Decoder.whole garbage d front with
    | error e => exact ⟨e, rfl⟩
    | ok b =>
      have whole : image ++ [] = front ++ more := by rw [List.append_nil, parts]
      exact absurd (spells.splits spelled (spells.whole_iff.mp ran) whole).2.symm proper

theorem congr (spells : Spells d S) (same : ∀ a image, T a image ↔ S a image) : Spells d T := by
  intro n bytes a n' rest
  rw [spells n bytes a n' rest]
  simp only [same]

theorem pure (a : α) :
    Spells (Pure.pure a : Decoder ε α) fun b image => b = a ∧ image = [] := by
  intro n bytes b n' rest
  constructor
  · intro ran
    cases ran
    exact ⟨[], ⟨rfl, rfl⟩, rfl, rfl⟩
  · rintro ⟨image, ⟨rfl, rfl⟩, rfl, rfl⟩
    rfl

theorem throw (e : ε) : Spells (throw e : Decoder ε α) fun _ _ => False := by
  intro n bytes b n' rest
  constructor
  · intro ran
    cases ran
  · rintro ⟨image, impossible, -⟩
    exact impossible.elim

theorem bind {f : α → Decoder ε β} {T : α → β → Bytes → Prop} (first : Spells d S)
    (second : ∀ a, Spells (f a) (T a)) :
    Spells (d >>= f) fun b image => ∃ a i j, S a i ∧ T a b j ∧ image = i ++ j := by
  intro n bytes b n' rest
  rw [run_bind]
  constructor
  · intro ran
    cases middle : d.run ⟨n, bytes⟩ with
    | error e => rw [middle] at ran; cases ran
    | ok r =>
      obtain ⟨a, m, left⟩ := r
      rw [middle] at ran
      obtain ⟨i, spelled, rfl, rfl⟩ := (first _ _ _ _ _).mp middle
      obtain ⟨j, spelled', rfl, rfl⟩ := (second a _ _ _ _ _).mp ran
      refine ⟨i ++ j, ⟨a, i, j, spelled, spelled', rfl⟩, (List.append_assoc _ _ _).symm, ?_⟩
      rw [List.length_append, Nat.add_assoc]
  · rintro ⟨image, ⟨a, i, j, spelled, spelled', rfl⟩, rfl, rfl⟩
    have middle := (first n _ a _ (j ++ rest)).mpr ⟨i, spelled, rfl, rfl⟩
    rw [List.append_assoc, middle]
    refine (second a _ _ _ _ _).mpr ⟨j, spelled', rfl, ?_⟩
    rw [List.length_append, Nat.add_assoc]

theorem ite {c : Prop} [Decidable c] {d' : Decoder ε α} (yes : Spells d S) (no : Spells d' T) :
    Spells (if c then d else d') fun a image => if c then S a image else T a image := by
  split
  · exact yes
  · exact no

theorem refuseIf {c : Prop} [Decidable c] {e : ε} {f : PUnit → Decoder ε β}
    {T : β → Bytes → Prop} (rest : Spells (f ⟨⟩) T) :
    Spells (Decoder.refuseIf c e >>= f) fun b image => ¬ c ∧ T b image := by
  by_cases fails : c
  · intro n bytes b n' left
    have stuck : (Decoder.refuseIf c e >>= f).run ⟨n, bytes⟩ = .error e := by
      rw [run_bind, Decoder.refuseIf, if_pos fails]
      rfl
    rw [stuck]
    simp [fails]
  · intro n bytes b n' left
    rw [run_refuseIf_bind f _ fails, rest n bytes b n' left]
    simp only [fails, not_false_eq_true, true_and]

theorem ofExcept (x : Except ε α) :
    Spells (Decoder.ofExcept x) fun a image => x = .ok a ∧ image = [] := by
  cases x with
  | error e => exact (throw e).congr fun a image => by simp
  | ok b => exact (pure b).congr fun a image => by simp [eq_comm]

theorem take (short : Nat → ε) (n : Nat) :
    Spells (Decoder.take short n) fun a image => a.length = n ∧ image = a := by
  intro k bytes a k' rest
  constructor
  · intro ran
    simp only [Decoder.take, StateT.run] at ran
    split at ran
    · cases ran
    · rename_i enough
      cases ran
      have size : (bytes.take n).length = n := List.length_take_of_le (Nat.le_of_not_lt enough)
      exact ⟨bytes.take n, ⟨size, rfl⟩, (List.take_append_drop n bytes).symm, by rw [size]⟩
  · rintro ⟨image, ⟨size, rfl⟩, rfl, rfl⟩
    exact (Reads.take size k rest).trans (by rw [size])

theorem repeatM {P : α → Prop} {write : α → Bytes} (item : Exact d P write) (n : Nat) :
    Spells (Decoder.repeatM d n) fun xs image =>
      xs.length = n ∧ (∀ x ∈ xs, P x) ∧ image = xs.flatMap write := by
  induction n with
  | zero => exact (pure []).congr fun xs image => by simp +contextual
  | succ n ih =>
    refine (item.bind fun x => ih.bind fun xs => pure (x :: xs)).congr fun ys image => ?_
    constructor
    · rintro ⟨size, holds, rfl⟩
      cases ys with
      | nil => cases size
      | cons y ys =>
        have later := fun x member => holds x (List.mem_cons_of_mem y member)
        exact ⟨y, _, _, ⟨holds y List.mem_cons_self, rfl⟩,
          ⟨ys, _, [], ⟨Nat.succ.inj size, later, rfl⟩, ⟨rfl, rfl⟩, rfl⟩, by simp⟩
    · rintro ⟨y, _, _, ⟨holds, rfl⟩, ⟨xs, _, _, ⟨rfl, all, rfl⟩, ⟨rfl, rfl⟩, rfl⟩, rfl⟩
      refine ⟨rfl, fun x member => ?_, by simp⟩
      rcases List.mem_cons.mp member with rfl | later
      · exact holds
      · exact all x later

end Spells
end Decoder
