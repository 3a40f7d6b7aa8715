import SplitBrainFabric.Library.Decoder
import SplitBrainFabric.Library.Program

/-! What a decoder or a program can refuse with: a property of all its refusals, put together
from those of its parts. -/

open Words

namespace Decoder

variable {ε α β : Type} {P : ε → Prop}

/-- Whatever is refused, it is with such an error. -/
def Refuses (d : Decoder ε α) (P : ε → Prop) : Prop := ∀ c e, d.run c = .error e → P e

namespace Refuses

theorem pure (a : α) : Refuses (Pure.pure a : Decoder ε α) P := by
  intro c e refused
  cases refused

theorem throw {e : ε} (holds : P e) : Refuses (MonadExcept.throw e : Decoder ε α) P := by
  intro c e' refused
  cases refused
  exact holds

theorem bind {d : Decoder ε α} {f : α → Decoder ε β} (first : Refuses d P)
    (second : ∀ a, Refuses (f a) P) : Refuses (d >>= f) P := by
  intro c e refused
  rw [run_bind] at refused
  cases middle : d.run c with
  | error e' =>
    rw [middle] at refused
    cases refused
    exact first c _ middle
  | ok r =>
    rw [middle] at refused
    exact second r.1 r.2 e refused

theorem ite {c : Prop} [Decidable c] {d d' : Decoder ε α} (yes : Refuses d P)
    (no : Refuses d' P) : Refuses (if c then d else d') P := by
  split
  · exact yes
  · exact no

theorem refuseIf {c : Prop} [Decidable c] {e : ε} (holds : P e) :
    Refuses (Decoder.refuseIf c e) P := .ite (.throw holds) (.pure _)

theorem take {short : Nat → ε} (holds : ∀ n, P (short n)) (n : Nat) :
    Refuses (Decoder.take short n) P := by
  intro c e refused
  change (if c.rest.length < n then _ else _) = _ at refused
  split at refused
  · cases refused
    exact holds c.offset
  · cases refused

theorem remaining : Refuses (Decoder.remaining : Decoder ε Nat) P := by
  intro c e refused
  cases refused

theorem ofExcept {x : Except ε α} (holds : ∀ e, x = .error e → P e) :
    Refuses (Decoder.ofExcept x) P := by
  intro c e refused
  cases x with
  | error e' =>
    cases refused
    exact holds _ rfl
  | ok a => cases refused

theorem repeatM {item : Decoder ε α} (each : Refuses item P) (n : Nat) :
    Refuses (Decoder.repeatM item n) P := by
  induction n with
  | zero => exact .pure []
  | succ n ih => exact each.bind fun x => ih.bind fun xs => .pure (x :: xs)

/-- A whole byte string is refused by the decoder, or for what stands behind. -/
theorem whole {garbage : Nat → ε} {d : Decoder ε α} {bytes : Bytes} {e : ε}
    (refuses : Refuses d P) (holds : ∀ n, P (garbage n))
    (refused : Decoder.whole garbage d bytes = .error e) : P e := by
  unfold Decoder.whole at refused
  cases ran : d.run ⟨0, bytes⟩ with
  | error e' =>
    rw [ran] at refused
    cases refused
    exact refuses _ _ ran
  | ok r =>
    rw [ran] at refused
    simp only at refused
    split at refused
    · cases refused
    · cases refused
      exact holds _

end Refuses
end Decoder

namespace Prog

variable {ε ε' σ τ α β : Type} {P : ε → Prop}

/-- Whatever the state, a refusal is with such an error. -/
def Refuses (m : Prog ε σ α) (P : ε → Prop) : Prop :=
  ∀ s e s', m.exec s = (.error e, s') → P e

namespace Refuses

theorem pure (a : α) : Refuses (Pure.pure a : Prog ε σ α) P := by
  intro s e s' refused
  cases refused

theorem throw {e : ε} (holds : P e) : Refuses (MonadExcept.throw e : Prog ε σ α) P := by
  intro s e' s' refused
  cases refused
  exact holds

theorem modify (f : σ → σ) : Refuses (modify f : Prog ε σ PUnit) P := by
  intro s e s' refused
  cases refused

theorem set (t : σ) : Refuses (MonadStateOf.set t : Prog ε σ PUnit) P := by
  intro s e s' refused
  cases refused

theorem bind {m : Prog ε σ α} {f : α → Prog ε σ β} (first : Refuses m P)
    (second : ∀ a, Refuses (f a) P) : Refuses (m >>= f) P := by
  intro s e s' refused
  rw [exec_bind] at refused
  rcases ran : m.exec s with ⟨r, t⟩
  rw [ran] at refused
  cases r with
  | error e' =>
    cases refused
    exact first s _ _ ran
  | ok a => exact second a t e s' refused

theorem get {f : σ → Prog ε σ α} (rest : ∀ t, Refuses (f t) P) :
    Refuses (MonadState.get >>= f) P := fun s => rest s s

theorem ite {c : Prop} [Decidable c] {m m' : Prog ε σ α} (yes : c → Refuses m P)
    (no : ¬ c → Refuses m' P) : Refuses (if c then m else m') P := by
  split
  · exact yes ‹_›
  · exact no ‹_›

theorem refuseIf {c : Prop} [Decidable c] {e : ε} {f : PUnit → Prog ε σ α} (holds : c → P e)
    (rest : Refuses (f ⟨⟩) P) : Refuses (Prog.refuseIf c e >>= f) P := by
  intro s e' s' refused
  rw [exec_refuseIf] at refused
  split at refused
  · cases refused
    exact holds ‹_›
  · exact rest s e' s' refused

theorem ofExcept {x : Except ε α} (holds : ∀ e, x = .error e → P e) :
    Refuses (Prog.ofExcept x : Prog ε σ α) P := by
  intro s e s' refused
  cases refused
  exact holds e rfl

theorem mapError {m : Prog ε σ α} {f : ε → ε'} {Q : ε' → Prop}
    (refuses : Refuses m fun e => Q (f e)) : Refuses (Prog.mapError f m) Q := by
  intro s e s' refused
  rw [exec_mapError] at refused
  rcases ran : m.exec s with ⟨r, t⟩
  rw [ran] at refused
  cases r with
  | error e' =>
    cases refused
    exact refuses s e' t ran
  | ok a => cases refused

theorem zoom {view : σ → τ} {update : τ → σ → σ} {m : Prog ε τ α} (refuses : Refuses m P) :
    Refuses (Prog.zoom view update m) P := by
  intro s e s' refused
  rw [exec_zoom] at refused
  obtain ⟨failed, -⟩ := Prod.mk.inj refused
  exact refuses (view s) e _ (Prod.ext failed rfl)

theorem forM {f : α → Prog ε σ PUnit} (each : ∀ x, Refuses (f x) P) (l : List α) :
    Refuses (l.forM f) P := by
  induction l with
  | nil => exact .pure _
  | cons x rest ih => exact .bind (each x) fun _ => ih

theorem ensures {m : Prog ε σ α} {pre : σ → Prop} (refuses : Refuses m P) :
    Ensures pre m (fun _ _ => True) fun e _ => P e :=
  .intro (fun _ _ _ _ _ => trivial) fun s e s' _ refused => refuses s e s' refused

end Refuses
end Prog
