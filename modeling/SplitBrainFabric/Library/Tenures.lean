import Mathlib.Data.Set.Lattice
import Mathlib.Data.Set.Pairwise.Basic
import Mathlib.Logic.Relation
import Mathlib.Order.CompletePartialOrder
import Mathlib.Tactic.Common

/-! Exclusive tenures of resources under tokens that only rise. A tenure may end at any
time and tokens may be spent on other things; what is written is written by a tenure while
it is held. -/

namespace Tenures

variable {τ ρ κ : Type}

/-- What a tenure covers, and the token it was given. -/
structure Terms (τ ρ κ : Type) where
  covers : τ → Set ρ
  token : τ → κ

/-- The tenures held, the tokens spent so far, and the tenure of each write, oldest first. -/
structure Lock (τ κ : Type) where
  held : Set τ
  spent : Set κ
  written : List τ

variable [Preorder κ] {terms : Terms τ ρ κ} {l l' : Lock τ κ} {t : τ}

inductive Step (terms : Terms τ ρ κ) : Lock τ κ → Lock τ κ → Prop
  | granted {l : Lock τ κ} {t : τ} (above : ∀ k ∈ l.spent, k < terms.token t)
    (free : ∀ o ∈ l.held, Disjoint (terms.covers o) (terms.covers t)) :
    Step terms l { l with held := insert t l.held, spent := insert (terms.token t) l.spent }
  | ended {l : Lock τ κ} {held : Set τ} (fewer : held ⊆ l.held) :
    Step terms l { l with held := held }
  | spent {l : Lock τ κ} {spent : Set κ} (more : l.spent ⊆ spent) :
    Step terms l { l with spent := spent }
  | wrote {l : Lock τ κ} {t : τ} (holds : t ∈ l.held) :
    Step terms l { l with written := l.written ++ [t] }

abbrev Steps (terms : Terms τ ρ κ) : Lock τ κ → Lock τ κ → Prop :=
  Relation.ReflTransGen (Step terms)

/-- One tenure, two that share nothing, or the first one's token is the lower one. -/
def Behind (terms : Terms τ ρ κ) (v w : τ) : Prop :=
  v = w ∨ Disjoint (terms.covers v) (terms.covers w) ∨ terms.token v < terms.token w

/-- Tenures held together are disjoint, and a write is behind every later write and behind
every tenure that is still held. -/
structure Lawful (terms : Terms τ ρ κ) (l : Lock τ κ) : Prop where
  exclusive : l.held.Pairwise fun t o => Disjoint (terms.covers t) (terms.covers o)
  heldSpent : ∀ t ∈ l.held, terms.token t ∈ l.spent
  writtenSpent : ∀ v ∈ l.written, terms.token v ∈ l.spent
  passed : ∀ v ∈ l.written, ∀ t ∈ l.held, Behind terms v t
  ordered : l.written.Pairwise (Behind terms)

theorem lawful_start (spent : Set κ) : Lawful terms { held := ∅, spent := spent, written := [] } where
  exclusive := by simp
  heldSpent := by simp
  writtenSpent := by simp
  passed := by simp
  ordered := List.Pairwise.nil

theorem Lawful.granted (lawful : Lawful terms l) (above : ∀ k ∈ l.spent, k < terms.token t)
    (free : ∀ o ∈ l.held, Disjoint (terms.covers o) (terms.covers t)) :
    Lawful terms { l with held := insert t l.held, spent := insert (terms.token t) l.spent } where
  exclusive := by
    refine lawful.exclusive.insert fun o member _ => ?_
    exact ⟨(free o member).symm, free o member⟩
  heldSpent := by
    rintro o (rfl | member)
    · exact Set.mem_insert _ _
    · exact Set.mem_insert_of_mem _ (lawful.heldSpent o member)
  writtenSpent v member := Set.mem_insert_of_mem _ (lawful.writtenSpent v member)
  passed := by
    rintro v member o (rfl | held)
    · exact .inr (.inr (above _ (lawful.writtenSpent v member)))
    · exact lawful.passed v member o held
  ordered := lawful.ordered

theorem Lawful.wrote (lawful : Lawful terms l) (holds : t ∈ l.held) :
    Lawful terms { l with written := l.written ++ [t] } where
  exclusive := lawful.exclusive
  heldSpent := lawful.heldSpent
  writtenSpent := by
    intro v member
    rcases List.mem_append.mp member with old | last
    · exact lawful.writtenSpent v old
    · rw [List.mem_singleton.mp last]
      exact lawful.heldSpent t holds
  passed := by
    intro v member o held
    rcases List.mem_append.mp member with old | last
    · exact lawful.passed v old o held
    · rw [List.mem_singleton.mp last]
      by_cases same : t = o
      · exact .inl same
      · exact .inr (.inl (lawful.exclusive holds held same))
  ordered := by
    refine List.pairwise_append.mpr ⟨lawful.ordered, List.pairwise_singleton _ _, ?_⟩
    intro v old w last
    rw [List.mem_singleton.mp last]
    exact lawful.passed v old t holds

theorem Lawful.step (lawful : Lawful terms l) (step : Step terms l l') : Lawful terms l' := by
  cases step with
  | granted above free => exact lawful.granted above free
  | ended fewer =>
    exact ⟨lawful.exclusive.mono fewer, fun t member => lawful.heldSpent t (fewer member),
      lawful.writtenSpent, fun v member t held => lawful.passed v member t (fewer held),
      lawful.ordered⟩
  | spent more =>
    exact ⟨lawful.exclusive, fun t member => more (lawful.heldSpent t member),
      fun v member => more (lawful.writtenSpent v member), lawful.passed, lawful.ordered⟩
  | wrote holds => exact lawful.wrote holds

theorem Lawful.steps (lawful : Lawful terms l) (steps : Steps terms l l') : Lawful terms l' := by
  induction steps with
  | refl => exact lawful
  | tail _ step ih => exact ih.step step

end Tenures
