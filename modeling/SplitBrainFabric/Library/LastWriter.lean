import Mathlib.Data.List.Induction
import Mathlib.Data.List.Pairwise
import Mathlib.Order.Lattice
import Mathlib.Tactic.Common

/-! A log of writes to keys, gated by the last writer of each key it touches. The
gate is local in time; the law it enforces speaks of every pair of writes. -/

namespace LastWriter

variable {W K T O : Type} [LinearOrder T] (touches : W → K → Bool) (token : W → T) (owner : W → O)

def latest (k : K) (log : List W) : Option W :=
  log.foldl (fun last w => if touches w k then some w else last) none

/-- `w` may follow `v`: its token is no lower, and at the same token it has the same owner. -/
def Follows (v w : W) : Prop := token v ≤ token w ∧ (token v = token w → owner v = owner w)

def Admits (log : List W) (w : W) : Prop :=
  ∀ k, touches w k = true → ∀ v, latest touches k log = some v → Follows token owner v w

def Lawful (log : List W) : Prop :=
  log.Pairwise fun v w => ∀ k, touches v k = true → touches w k = true → Follows token owner v w

variable {touches token owner}

theorem Follows.trans {u v w : W} (first : Follows token owner u v)
    (second : Follows token owner v w) : Follows token owner u w := by
  refine ⟨first.1.trans second.1, fun same => ?_⟩
  have middle : token u = token v := le_antisymm first.1 (same ▸ second.1)
  exact (first.2 middle).trans (second.2 (middle.symm.trans same))

@[simp] theorem latest_append (k : K) (log : List W) (w : W) :
    latest touches k (log ++ [w]) = if touches w k then some w else latest touches k log := by
  simp [latest]

theorem latest_mem {log : List W} {k : K} {v : W} (found : latest touches k log = some v) :
    v ∈ log ∧ touches v k = true := by
  induction log using List.reverseRecOn with
  | nil => cases found
  | append_singleton log w ih =>
    rw [latest_append] at found
    split at found
    · rename_i hit
      cases found
      exact ⟨by simp, hit⟩
    · obtain ⟨member, touched⟩ := ih found
      exact ⟨List.mem_append_left _ member, touched⟩

/-- Under the law the last writer of a key follows every writer of it. -/
theorem latest_follows {log : List W} (lawful : Lawful touches token owner log) {v : W} {k : K}
    (member : v ∈ log) (touched : touches v k = true) :
    ∃ u, latest touches k log = some u ∧ Follows token owner v u := by
  induction log using List.reverseRecOn with
  | nil => cases member
  | append_singleton log w ih =>
    rw [latest_append]
    obtain ⟨before, _, across⟩ := List.pairwise_append.mp lawful
    by_cases hit : touches w k = true
    · refine ⟨w, if_pos hit, ?_⟩
      rcases List.mem_append.mp member with inside | last
      · exact across v inside w List.mem_cons_self k touched hit
      · rw [List.mem_singleton.mp last]
        exact ⟨le_rfl, fun _ => rfl⟩
    · rw [if_neg hit]
      rcases List.mem_append.mp member with inside | last
      · exact ih before inside
      · rw [List.mem_singleton.mp last] at touched
        exact absurd touched hit

theorem lawful_append {log : List W} {w : W} (lawful : Lawful touches token owner log)
    (admitted : Admits touches token owner log w) : Lawful touches token owner (log ++ [w]) := by
  refine List.pairwise_append.mpr ⟨lawful, List.pairwise_singleton _ _, ?_⟩
  intro v member x last k touchedV touchedW
  obtain rfl := List.mem_singleton.mp last
  obtain ⟨u, found, follows⟩ := latest_follows lawful member touchedV
  exact follows.trans (admitted k touchedW u found)

/-- Two writes of one key at one token have one owner, in whichever order they came. -/
theorem owner_eq {log : List W} (lawful : Lawful touches token owner log) {v w : W} {k : K}
    (memberV : v ∈ log) (memberW : w ∈ log) (touchedV : touches v k = true)
    (touchedW : touches w k = true) (same : token v = token w) : owner v = owner w := by
  have symmetric : log.Pairwise fun v w => ∀ k, touches v k = true → touches w k = true →
      token v = token w → owner v = owner w :=
    lawful.imp fun follows k hv hw => (follows k hv hw).2
  have flip : Std.Symm fun v w => ∀ k, touches v k = true → touches w k = true →
      token v = token w → owner v = owner w :=
    ⟨fun _ _ h k hv hw equal => (h k hw hv equal.symm).symm⟩
  have all := symmetric.forall_of_forall (fun _ _ _ _ _ _ => rfl)
  exact all memberV memberW k touchedV touchedW same

end LastWriter
