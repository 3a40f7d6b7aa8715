import Mathlib.Data.List.Basic
import Mathlib.Logic.Relation
import Mathlib.Tactic.Common

/-! Runs of a total step function over a list of inputs: what every step preserves a run
preserves, and a law about steps is a law about every position of a run. A step function
that may refuse an input is run one allowed input after the other. -/

namespace Runs

variable {σ α : Type} (step : σ → α → σ)

def run (s : σ) (inputs : List α) : σ := inputs.foldl step s

/-- Every input meets `P` in the state it finds. -/
def Each (P : σ → α → Prop) (s : σ) : List α → Prop
  | [] => True
  | a :: rest => P s a ∧ Each P (step s a) rest

variable {step} {P Q : σ → α → Prop} {s : σ}

instance decidableEach [∀ s a, Decidable (P s a)] :
    ∀ (s : σ) (inputs : List α), Decidable (Each step P s inputs)
  | _, [] => inferInstanceAs (Decidable True)
  | s, a :: rest =>
    have := decidableEach (step s a) rest
    inferInstanceAs (Decidable (_ ∧ Each step P (step s a) rest))

theorem run_append (s : σ) (before after : List α) :
    run step s (before ++ after) = run step (run step s before) after := List.foldl_append

theorem each_append {before after : List α} : Each step P s (before ++ after) ↔
    Each step P s before ∧ Each step P (run step s before) after := by
  induction before generalizing s with
  | nil => exact ⟨fun later => ⟨trivial, later⟩, fun both => both.2⟩
  | cons a rest ih => exact (and_congr_right' ih).trans and_assoc.symm

theorem run_invariant {I : σ → Prop} (keeps : ∀ s a, I s → I (step s a)) (start : I s)
    (inputs : List α) : I (run step s inputs) := by
  induction inputs generalizing s with
  | nil => exact start
  | cons a rest ih => exact ih (keeps s a start)

/-- A run whose inputs all meet a condition. -/
theorem each_invariant {I : σ → Prop} (keeps : ∀ s a, I s → P s a → I (step s a)) (start : I s)
    {inputs : List α} (each : Each step P s inputs) : I (run step s inputs) := by
  induction inputs generalizing s with
  | nil => exact start
  | cons a rest ih => exact ih (keeps s a start each.1) each.2

/-- What holds at the end of a run held at its start, or came about at one of its steps. -/
theorem run_origin {β : Type} {I : σ → Prop} {H : σ → β → Prop} {C : σ → α → β → Prop}
    (keeps : ∀ s a, I s → I (step s a))
    (each : ∀ s a b, I s → H (step s a) b → H s b ∨ C s a b) (start : I s) (inputs : List α) {b : β}
    (holds : H (run step s inputs) b) : H s b ∨
      ∃ before a after, inputs = before ++ a :: after ∧ C (run step s before) a b := by
  induction inputs generalizing s with
  | nil => exact .inl holds
  | cons a rest ih =>
    rcases ih (keeps s a start) holds with held | ⟨before, cause, after, rfl, came⟩
    · exact (each s a b start held).imp_right fun new => ⟨[], a, rest, rfl, new⟩
    · exact .inr ⟨a :: before, cause, after, rfl, came⟩

/-- A reflexive and transitive relation of every step to the state it finds. -/
theorem run_relation {R : σ → σ → Prop} (refl : ∀ s, R s s)
    (trans : ∀ s t u, R s t → R t u → R s u) (each : ∀ s a, R s (step s a)) (s : σ)
    (inputs : List α) : R s (run step s inputs) := by
  induction inputs generalizing s with
  | nil => exact refl s
  | cons a rest ih => exact trans s _ _ (each s a) (ih (step s a))

/-- Two laws that agree in every state the run can be in while the first one holds. -/
theorem each_congr {I : σ → Prop} (keeps : ∀ s a, I s → P s a → I (step s a))
    (agree : ∀ s a, I s → (P s a ↔ Q s a)) (start : I s) {inputs : List α} :
    Each step P s inputs ↔ Each step Q s inputs := by
  induction inputs generalizing s with
  | nil => exact Iff.rfl
  | cons a rest ih =>
    constructor
    · rintro ⟨here, later⟩
      exact ⟨(agree s a start).mp here, (ih (keeps s a start here)).mp later⟩
    · rintro ⟨here, later⟩
      have first := (agree s a start).mpr here
      exact ⟨first, (ih (keeps s a start first)).mpr later⟩

/-- What a run keeps exactly if each step of it keeps it holds at the end of a run exactly
if every step did. -/
theorem run_iff_each {I G : σ → Prop} (keeps : ∀ s a, I s → I (step s a))
    (exact' : ∀ s a, I s → (G (step s a) ↔ G s ∧ Q s a)) (start : I s) (inputs : List α) :
    G (run step s inputs) ↔ G s ∧ Each step Q s inputs := by
  induction inputs generalizing s with
  | nil => exact (and_iff_left trivial).symm
  | cons a rest ih =>
    have later : G (run step s (a :: rest)) ↔ G (step s a) ∧ Each step Q (step s a) rest :=
      ih (keeps s a start)
    rw [later, exact' s a start, Each, and_assoc]

section Partial

variable {step : σ → α → Option σ} {allowed : σ → α → Prop} {s t : σ}

/-- One input that the run allows. -/
def Turn (step : σ → α → Option σ) (allowed : σ → α → Prop) (s t : σ) : Prop :=
  ∃ a, allowed s a ∧ step s a = some t

/-- A run along given inputs, each checked before it is taken. -/
def guarded (step : σ → α → Option σ) (check : σ → α → Bool) (s : σ) (inputs : List α) : Option σ :=
  inputs.foldlM (fun s a => if check s a then step s a else none) s

theorem guarded_turns {check : σ → α → Bool} {inputs : List α}
    (sound : ∀ s a, check s a = true → allowed s a) (ran : guarded step check s inputs = some t) :
    Relation.ReflTransGen (Turn step allowed) s t := by
  induction inputs generalizing s with
  | nil =>
    cases ran
    exact .refl
  | cons a rest ih =>
    unfold guarded at ran
    rw [List.foldlM_cons] at ran
    obtain ⟨s₁, stepped, ran⟩ := Option.bind_eq_some_iff.mp ran
    split at stepped
    · rename_i checked
      exact (ih ran).head ⟨a, sound s a checked, stepped⟩
    · cases stepped

theorem turns_invariant {I : σ → Prop} (start : I s)
    (keeps : ∀ s a t, I s → allowed s a → step s a = some t → I t)
    (run : Relation.ReflTransGen (Turn step allowed) s t) : I t := by
  induction run with
  | refl => exact start
  | tail _ last ih =>
    obtain ⟨a, permitted, stepped⟩ := last
    exact keeps _ a _ ih permitted stepped

end Partial

end Runs
