import Mathlib.Data.List.Lex
import Mathlib.Data.Prod.Lex
import Mathlib.Tactic.Common
import SplitBrainFabric.Library.KeySort

/-! Branch and bound over the conflict free subsets of a list: as many elements as
possible, and among equally large subsets the one with the least keys in order. The
search takes an element before it leaves it out, gives up a branch that cannot reach the
size of the best subset so far, and may be stopped by a meter at any node. -/

namespace BranchBound

open scoped List

structure Puzzle (ι κ : Type) where
  legal : ι → Bool
  clash : ι → ι → Bool
  key : ι → κ

/-- What counts the nodes, and when they are used up. -/
structure Meter (σ : Type) where
  tick : σ → σ
  spent : σ → Bool

@[ext] structure Walk (σ ι : Type) where
  count : σ
  exhausted : Bool
  best : List ι

/-- One node: nothing happens once stopped, and `visit` only while the meter allows it. -/
def Walk.enter {σ ι : Type} (w : Walk σ ι) (m : Meter σ) (visit : Walk σ ι → Walk σ ι) :
    Walk σ ι :=
  if w.exhausted then w
  else if m.spent (m.tick w.count) then { w with count := m.tick w.count, exhausted := true }
  else visit { w with count := m.tick w.count }

theorem Walk.enter_of_running {σ ι : Type} {w : Walk σ ι} {m : Meter σ}
    {visit : Walk σ ι → Walk σ ι} (running : w.exhausted = false)
    (go : m.spent (m.tick w.count) = false) :
    w.enter m visit = visit { w with count := m.tick w.count } := by
  simp [Walk.enter, running, go]

namespace Puzzle

variable {ι κ σ : Type} (p : Puzzle ι κ)

def fits (chosen : List ι) (c : ι) : Bool := p.legal c && !chosen.any (p.clash c)

/-- All elements are legal, and none clashes with one before it. -/
structure Feasible (s : List ι) : Prop where
  legal : ∀ c ∈ s, p.legal c = true
  apart : s.Pairwise fun a b => p.clash b a = false

variable {p} {s t chosen rest : List ι} {c : ι}

theorem feasible_nil : p.Feasible [] := ⟨nofun, List.Pairwise.nil⟩

theorem Feasible.sublist (feasible : p.Feasible s) (inside : t <+ s) : p.Feasible t :=
  ⟨fun c member => feasible.legal c (inside.subset member), feasible.apart.sublist inside⟩

theorem fits_iff : p.fits chosen c = true ↔
    p.legal c = true ∧ ∀ t ∈ chosen, p.clash c t = false := by
  simp [fits]

theorem feasible_concat :
    p.Feasible (chosen ++ [c]) ↔ p.Feasible chosen ∧ p.fits chosen c = true := by
  rw [fits_iff]
  constructor
  · intro feasible
    have apart := List.pairwise_append.mp feasible.apart
    refine ⟨feasible.sublist (List.sublist_append_left _ _), ?_, fun t member => ?_⟩
    · exact feasible.legal c (List.mem_append_right _ List.mem_cons_self)
    · exact apart.2.2 t member c List.mem_cons_self
  · rintro ⟨feasible, legal, free⟩
    refine ⟨fun x member => ?_, List.pairwise_append.mpr ⟨feasible.apart, ?_, ?_⟩⟩
    · rcases List.mem_append.mp member with before | last
      · exact feasible.legal x before
      · rwa [List.mem_singleton.mp last]
    · exact List.pairwise_singleton _ _
    · intro t member x last
      rw [List.mem_singleton.mp last]
      exact free t member

/-- Feasibility says nothing about order when clashing is symmetric. -/
theorem Feasible.perm (symmetric : ∀ a b, p.clash a b = p.clash b a) (feasible : p.Feasible s)
    (perm : s.Perm t) : p.Feasible t := by
  refine ⟨fun c member => feasible.legal c (perm.mem_iff.mpr member), ?_⟩
  exact (perm.pairwise_iff fun clear => by rwa [symmetric]).mp feasible.apart

/-! ### The order on subsets -/

section Score

variable [LinearOrder κ] {a b : List ι}

/-- The less, the better: first by size, then by the keys in order. -/
def score (p : Puzzle ι κ) (s : List ι) : ℕᵒᵈ ×ₗ List κ :=
  toLex (OrderDual.toDual s.length, s.map p.key)

theorem score_lt_iff : p.score a < p.score b ↔
    b.length < a.length ∨ a.length = b.length ∧ a.map p.key < b.map p.key := by
  rw [score, score, Prod.Lex.toLex_lt_toLex]
  exact Iff.rfl

theorem score_le_iff : p.score a ≤ p.score b ↔
    b.length < a.length ∨ a.length = b.length ∧ a.map p.key ≤ b.map p.key := by
  rw [score, score, Prod.Lex.toLex_le_toLex]
  exact Iff.rfl

theorem length_le_of_score_le (better : p.score a ≤ p.score b) : b.length ≤ a.length := by
  rcases score_le_iff.mp better with larger | ⟨same, -⟩
  · exact larger.le
  · exact same.ge

omit [LinearOrder κ] in
theorem keys_eq_of_score_eq (same : p.score a = p.score b) : a.map p.key = b.map p.key :=
  congrArg (fun x => (ofLex x).2) same

/-- Within a list sorted by its keys, no two sublists score the same. -/
theorem eq_of_score_eq {order : List ι} (sorted : order.Pairwise (p.key · < p.key ·))
    (left : a <+ order) (right : b <+ order) (same : p.score a = p.score b) : a = b := by
  have distinct : (order.map p.key).Nodup :=
    List.pairwise_map.mpr (sorted.imp fun below => ne_of_lt below)
  have keys := keys_eq_of_score_eq same
  refine List.ext_getElem (by simpa using congrArg List.length keys) fun i here here' => ?_
  have equal : p.key a[i] = p.key b[i] := by
    simpa [here, here'] using congrArg (fun l => l[i]?) keys
  exact List.inj_on_of_nodup_map distinct (left.subset (List.getElem_mem here))
    (right.subset (List.getElem_mem here')) equal

def improve (p : Puzzle ι κ) (best s : List ι) : List ι :=
  if p.score s < p.score best then s else best

theorem improve_le_left (p : Puzzle ι κ) (best s : List ι) :
    p.score (p.improve best s) ≤ p.score best := by
  unfold improve
  split
  · rename_i better
    exact better.le
  · exact le_refl _

theorem improve_le_right (p : Puzzle ι κ) (best s : List ι) :
    p.score (p.improve best s) ≤ p.score s := by
  unfold improve
  split
  · exact le_refl _
  · rename_i worse
    exact not_lt.mp worse

theorem improve_mem (p : Puzzle ι κ) (best s : List ι) :
    p.improve best s = best ∨ p.improve best s = s := by
  unfold improve
  split
  · exact .inr rfl
  · exact .inl rfl

/-- The best of a list of candidates, whatever order they are tried in. -/
theorem foldl_improve (p : Puzzle ι κ) (l : List (List ι)) (best : List ι) :
    (l.foldl p.improve best = best ∨ l.foldl p.improve best ∈ l) ∧
      p.score (l.foldl p.improve best) ≤ p.score best ∧
      ∀ s ∈ l, p.score (l.foldl p.improve best) ≤ p.score s := by
  induction l generalizing best with
  | nil => exact ⟨.inl rfl, le_refl _, nofun⟩
  | cons s rest ih =>
    obtain ⟨found, better, least⟩ := ih (p.improve best s)
    refine ⟨?_, better.trans (p.improve_le_left best s), ?_⟩
    · rcases found with kept | later
      · rcases p.improve_mem best s with old | new
        · exact .inl (kept.trans old)
        · right
          rw [List.foldl_cons, kept, new]
          exact List.mem_cons_self
      · exact .inr (List.mem_cons_of_mem s later)
    · intro t member
      rcases List.mem_cons.mp member with rfl | later
      · exact better.trans (p.improve_le_right best t)
      · exact least t later

end Score

/-! ### The search -/

/-- The subsets that a search without bound and meter reaches: those that extend
`chosen` by elements that fit. -/
def leaves (p : Puzzle ι κ) : List ι → List ι → List (List ι)
  | [], chosen => [chosen]
  | c :: rest, chosen =>
    (if p.fits chosen c then leaves p rest (chosen ++ [c]) else []) ++ leaves p rest chosen

theorem mem_leaves (feasible : p.Feasible chosen) : s ∈ p.leaves rest chosen ↔
    ∃ t, t <+ rest ∧ s = chosen ++ t ∧ p.Feasible s := by
  induction rest generalizing chosen with
  | nil =>
    simp only [leaves, List.mem_singleton, List.sublist_nil, exists_eq_left, List.append_nil]
    exact ⟨fun same => ⟨same, same ▸ feasible⟩, And.left⟩
  | cons c rest ih =>
    rw [leaves, List.mem_append, ih feasible]
    constructor
    · rintro (taken | ⟨t, inside, same, whole⟩)
      · split at taken
        · rename_i fitting
          obtain ⟨t, inside, same, whole⟩ := (ih (feasible_concat.mpr ⟨feasible, fitting⟩)).mp taken
          exact ⟨c :: t, inside.cons_cons c, by simpa using same, whole⟩
        · cases taken
      · exact ⟨t, inside.cons c, same, whole⟩
    · rintro ⟨t, inside, same, whole⟩
      rcases List.sublist_cons_iff.mp inside with later | ⟨t', same', later⟩
      · exact .inr ⟨t, later, same, whole⟩
      · have split : s = chosen ++ [c] ++ t' := by simp [same, same']
        have upTo : p.Feasible (chosen ++ [c]) :=
          whole.sublist (split ▸ List.sublist_append_left _ _)
        rw [if_pos (feasible_concat.mp upTo).2]
        exact .inl ((ih upTo).mpr ⟨t', later, split, whole⟩)

theorem sublist_of_mem_leaves (member : s ∈ p.leaves rest chosen) : s <+ chosen ++ rest := by
  induction rest generalizing chosen with
  | nil => simp [List.mem_singleton.mp member]
  | cons c rest ih =>
    rcases List.mem_append.mp member with taken | left
    · split at taken
      · simpa using ih taken
      · cases taken
    · exact (ih left).trans (List.Sublist.append_left (List.sublist_cons_self c rest) chosen)

section Search

variable [LinearOrder κ] {m : Meter σ} {w w' w'' : Walk σ ι} {l l' : List (List ι)}

/-- The search through what is left of the list, below the subset chosen so far. -/
def search (p : Puzzle ι κ) (m : Meter σ) : List ι → List ι → Walk σ ι → Walk σ ι
  | [], chosen, w => w.enter m fun w => { w with best := p.improve w.best chosen }
  | c :: rest, chosen, w => w.enter m fun w =>
    search p m rest chosen <|
      if w.best.length ≤ chosen.length + (rest.length + 1) ∧ p.fits chosen c = true then
        search p m rest (chosen ++ [c]) w
      else w

/-- What a search owes the subsets it is responsible for: the best so far only improves,
and on those subsets; all of them are dealt with unless the meter stopped the search. -/
structure Covers (p : Puzzle ι κ) (l : List (List ι)) (w w' : Walk σ ι) : Prop where
  found : w'.best = w.best ∨ w'.best ∈ l
  better : p.score w'.best ≤ p.score w.best
  least : w'.exhausted = false → ∀ s ∈ l, p.score w'.best ≤ p.score s
  stays : w.exhausted = true → w' = w

theorem Covers.trans (first : p.Covers l w w') (second : p.Covers l' w' w'') :
    p.Covers (l ++ l') w w'' where
  found := by
    rcases second.found with kept | later
    · rw [kept]
      exact first.found.imp_right (List.mem_append_left _)
    · exact .inr (List.mem_append_right _ later)
  better := second.better.trans first.better
  least running s member := by
    rcases List.mem_append.mp member with before | after
    · cases stopped : w'.exhausted with
      | false => exact second.better.trans (first.least stopped s before)
      | true =>
        rw [second.stays stopped, stopped] at running
        cases running
    · exact second.least running s after
  stays stopped := by
    have same := first.stays stopped
    rw [second.stays (same ▸ stopped), same]

theorem Covers.of_none (w : Walk σ ι) : p.Covers [] w w :=
  ⟨.inl rfl, le_refl _, nofun, fun _ => rfl⟩

/-- A branch is given up when all of it is smaller than the best so far. -/
theorem Covers.of_bound (bound : ∀ s ∈ l, s.length < w.best.length) : p.Covers l w w :=
  ⟨.inl rfl, le_refl _, fun _ s member => (score_lt_iff.mpr (.inl (bound s member))).le,
    fun _ => rfl⟩

theorem Covers.enter {visit : Walk σ ι → Walk σ ι}
    (covers : ∀ w, w.exhausted = false → p.Covers l w (visit w)) :
    p.Covers l w (w.enter m visit) := by
  unfold Walk.enter
  split
  · rename_i stopped
    exact ⟨.inl rfl, le_refl _, fun running => absurd (stopped.symm.trans running) nofun,
      fun _ => rfl⟩
  · rename_i running
    split
    · exact ⟨.inl rfl, le_refl _, nofun, fun stopped => absurd stopped running⟩
    · obtain ⟨found, better, least, -⟩ :=
        covers { w with count := m.tick w.count } (Bool.eq_false_of_not_eq_true running)
      exact ⟨found, better, least, fun stopped => absurd stopped running⟩

theorem search_covers (p : Puzzle ι κ) (m : Meter σ) (rest chosen : List ι) (w : Walk σ ι) :
    p.Covers (p.leaves rest chosen) w (p.search m rest chosen w) := by
  induction rest generalizing chosen w with
  | nil =>
    refine Covers.enter fun w running => ⟨?_, p.improve_le_left w.best chosen, ?_, ?_⟩
    · exact (p.improve_mem w.best chosen).imp_right fun same => by simp [leaves, same]
    · intro _ s member
      rw [List.mem_singleton.mp member]
      exact p.improve_le_right w.best chosen
    · intro stopped
      rw [running] at stopped
      cases stopped
  | cons c rest ih =>
    refine Covers.enter fun w _ => Covers.trans ?_ (ih chosen _)
    by_cases fitting : p.fits chosen c = true
    · rw [if_pos fitting]
      -- without room the branch is given up: its subsets are all smaller than the best
      by_cases room : w.best.length ≤ chosen.length + (rest.length + 1)
      · rw [if_pos ⟨room, fitting⟩]
        exact ih (chosen ++ [c]) w
      · rw [if_neg fun both => room both.1]
        refine Covers.of_bound fun s member => ?_
        have bound := (sublist_of_mem_leaves member).length_le
        simp only [List.length_append, List.length_cons, List.length_nil] at bound
        omega
    · rw [if_neg fitting, if_neg fun both => fitting both.2]
      exact Covers.of_none w

/-- From nothing chosen, what is found is feasible, and the best there is unless the
meter stopped the search. -/
theorem search_optimal (p : Puzzle ι κ) (m : Meter σ) (order : List ι) (start : w.best = []) :
    (p.search m order [] w).best <+ order ∧ p.Feasible (p.search m order [] w).best ∧
      ((p.search m order [] w).exhausted = false → ∀ s, s <+ order → p.Feasible s →
        p.score (p.search m order [] w).best ≤ p.score s) := by
  have covers := p.search_covers m order [] w
  refine ⟨?_, ?_, fun running s inside feasible => ?_⟩
  · rcases covers.found with none | found
    · rw [none, start]
      exact List.nil_sublist _
    · obtain ⟨t, inside, same, -⟩ := (mem_leaves feasible_nil).mp found
      rw [same]
      exact inside
  · rcases covers.found with none | found
    · rw [none, start]
      exact feasible_nil
    · obtain ⟨-, -, -, feasible⟩ := (mem_leaves feasible_nil).mp found
      exact feasible
  · exact covers.least running s ((mem_leaves feasible_nil).mpr ⟨s, inside, rfl, feasible⟩)

/-- Nothing at all is found only when no element is legal. -/
theorem search_empty_iff {order : List ι} (start : w.best = [])
    (running : (p.search m order [] w).exhausted = false) :
    (p.search m order [] w).best = [] ↔ ∀ c ∈ order, p.legal c = false := by
  obtain ⟨inside, feasible, least⟩ := search_optimal p m order start
  constructor
  · intro none c member
    by_contra legal
    have alone : p.Feasible [c] := by
      refine ⟨fun x same => ?_, List.pairwise_singleton _ _⟩
      rw [List.mem_singleton.mp same]
      exact Bool.eq_true_of_not_eq_false legal
    have larger := length_le_of_score_le
      (least running [c] (List.singleton_sublist.mpr member) alone)
    rw [none] at larger
    exact absurd larger (by simp)
  · intro illegal
    refine List.eq_nil_iff_forall_not_mem.mpr fun c member => ?_
    have legal := feasible.legal c member
    rw [illegal c (inside.subset member)] at legal
    cases legal

/-- Only one feasible sublist is at least as good as all others. -/
theorem optimum_unique {order a b : List ι} (sorted : order.Pairwise (p.key · < p.key ·))
    (left : a <+ order) (right : b <+ order) (feasible : p.Feasible a) (feasible' : p.Feasible b)
    (least : ∀ s, s <+ order → p.Feasible s → p.score a ≤ p.score s)
    (least' : ∀ s, s <+ order → p.Feasible s → p.score b ≤ p.score s) : a = b :=
  eq_of_score_eq sorted left right
    (le_antisymm (least b right feasible') (least' a left feasible))

end Search

/-! ### The greedy subset -/

/-- Take whatever fits, in order. -/
def greedy (p : Puzzle ι κ) : List ι → List ι → List ι
  | [], chosen => chosen
  | c :: rest, chosen => greedy p rest (if p.fits chosen c then chosen ++ [c] else chosen)

theorem greedy_mem_leaves (p : Puzzle ι κ) (rest chosen : List ι) :
    p.greedy rest chosen ∈ p.leaves rest chosen := by
  induction rest generalizing chosen with
  | nil => exact List.mem_singleton.mpr rfl
  | cons c rest ih =>
    rw [greedy, leaves, List.mem_append]
    split
    · exact .inl (ih _)
    · exact .inr (ih _)

theorem greedy_feasible (p : Puzzle ι κ) (order : List ι) :
    p.greedy order [] <+ order ∧ p.Feasible (p.greedy order []) := by
  obtain ⟨t, inside, same, feasible⟩ :=
    (mem_leaves feasible_nil).mp (p.greedy_mem_leaves order [])
  exact ⟨same ▸ inside, feasible⟩

theorem subset_greedy (p : Puzzle ι κ) (rest chosen : List ι) : chosen ⊆ p.greedy rest chosen := by
  induction rest generalizing chosen with
  | nil => exact List.Subset.refl chosen
  | cons c rest ih =>
    rw [greedy]
    split
    · exact List.Subset.trans (List.subset_append_left _ _) (ih _)
    · exact ih chosen

/-- What the greedy subset leaves out clashes with it. -/
theorem greedy_maximal (member : c ∈ rest) (legal : p.legal c = true)
    (out : c ∉ p.greedy rest chosen) : ∃ t ∈ p.greedy rest chosen, p.clash c t = true := by
  induction rest generalizing chosen with
  | nil => cases member
  | cons x rest ih =>
    rw [greedy] at out ⊢
    rcases List.mem_cons.mp member with rfl | later
    · split at out
      · exact absurd (p.subset_greedy rest _ (by simp)) out
      · rename_i blocked
        rw [if_neg blocked]
        by_contra free
        refine blocked (fits_iff.mpr ⟨legal, fun t taken => ?_⟩)
        exact Bool.eq_false_of_not_eq_true fun clash =>
          free ⟨t, p.subset_greedy rest chosen taken, clash⟩
    · exact ih later out

/-- The first subset that the search completes is the greedy one; whatever happens later
only improves on it. -/
theorem greedy_le_search [LinearOrder κ] (p : Puzzle ι κ) {m : Meter σ} (rest chosen : List ι)
    (w : Walk σ ι) (running : w.exhausted = false) (small : w.best.length ≤ chosen.length)
    (enough : ∀ k ≤ rest.length, m.spent (m.tick^[k + 1] w.count) = false) :
    (p.greedy rest chosen).length ≤ (p.search m rest chosen w).best.length := by
  induction rest generalizing chosen w with
  | nil =>
    rw [search, Walk.enter_of_running running (enough 0 (le_refl _))]
    exact length_le_of_score_le (p.improve_le_right w.best chosen)
  | cons c rest ih =>
    rw [search, Walk.enter_of_running running (enough 0 (Nat.zero_le _)), greedy]
    have later : ∀ k ≤ rest.length, m.spent (m.tick^[k + 1] (m.tick w.count)) = false :=
      fun k below => enough (k + 1) (Nat.succ_le_succ below)
    have room : w.best.length ≤ chosen.length + (rest.length + 1) := by omega
    by_cases fitting : p.fits chosen c = true
    · rw [if_pos fitting, if_pos ⟨room, fitting⟩]
      -- the greedy subset is met below this branch, and the other branch only improves on it
      have taken := ih (chosen ++ [c]) { w with count := m.tick w.count } running
        (by rw [List.length_append]; exact small.trans (Nat.le_add_right _ _)) later
      exact taken.trans (length_le_of_score_le (p.search_covers m rest chosen _).better)
    · rw [if_neg fitting, if_neg fun both => fitting both.2]
      exact ih chosen { w with count := m.tick w.count } running small later

/-! ### Gathering a given subset -/

/-- All the elements, if each fits the ones before it. -/
def gather (p : Puzzle ι κ) : List ι → List ι → Option (List ι)
  | [], chosen => some chosen
  | c :: rest, chosen => if p.fits chosen c then gather p rest (chosen ++ [c]) else none

theorem gather_eq_some_iff (feasible : p.Feasible chosen) :
    p.gather rest chosen = some s ↔ s = chosen ++ rest ∧ p.Feasible s := by
  induction rest generalizing chosen with
  | nil =>
    rw [gather, Option.some_inj, List.append_nil]
    exact ⟨fun same => ⟨same.symm, same ▸ feasible⟩, fun both => both.1.symm⟩
  | cons c rest ih =>
    rw [gather]
    have regroup : chosen ++ c :: rest = chosen ++ [c] ++ rest := by simp
    by_cases fitting : p.fits chosen c = true
    · rw [if_pos fitting, ih (feasible_concat.mpr ⟨feasible, fitting⟩), regroup]
    · rw [if_neg fitting]
      refine ⟨nofun, fun ⟨same, whole⟩ => absurd ?_ fitting⟩
      rw [same, regroup] at whole
      exact (feasible_concat.mp (whole.sublist (List.sublist_append_left _ _))).2

end Puzzle

/-! ### The same puzzle under other names -/

section Renaming

variable {ι ι' κ σ : Type} {p : Puzzle ι κ} {q : Puzzle ι' κ} {f : ι → ι'} {order : List ι}

/-- What `q` says about the images of a list is what `p` says about its elements. -/
structure Agree (p : Puzzle ι κ) (q : Puzzle ι' κ) (f : ι → ι') (order : List ι) : Prop where
  legal : ∀ c ∈ order, q.legal (f c) = p.legal c
  key : ∀ c ∈ order, q.key (f c) = p.key c
  clash : order.Pairwise fun a b => q.clash (f b) (f a) = p.clash b a

def Walk.map (f : ι → ι') (w : Walk σ ι) : Walk σ ι' := ⟨w.count, w.exhausted, w.best.map f⟩

theorem Agree.fits {chosen : List ι} {c : ι} (agree : Agree p q f order)
    (inside : chosen ++ [c] <+ order) : q.fits (chosen.map f) (f c) = p.fits chosen c := by
  have apart := List.pairwise_append.mp (agree.clash.sublist inside)
  rw [Bool.eq_iff_iff, Puzzle.fits_iff, Puzzle.fits_iff, List.forall_mem_map,
    agree.legal c (inside.subset (by simp))]
  refine and_congr_right fun _ => forall₂_congr fun t taken => ?_
  rw [apart.2.2 t taken c List.mem_cons_self]

theorem Agree.score [LinearOrder κ] {s : List ι} (agree : Agree p q f order) (inside : s ⊆ order) :
    q.score (s.map f) = p.score s := by
  have keys : s.map (q.key ∘ f) = s.map p.key :=
    List.map_congr_left fun c member => agree.key c (inside member)
  rw [Puzzle.score, Puzzle.score, List.length_map, List.map_map, keys]

theorem Agree.improve [LinearOrder κ] {best s : List ι} (agree : Agree p q f order)
    (inside : best ⊆ order) (inside' : s ⊆ order) :
    q.improve (best.map f) (s.map f) = (p.improve best s).map f := by
  unfold Puzzle.improve
  rw [agree.score inside, agree.score inside']
  split <;> rfl

theorem Walk.enter_map {m : Meter σ} {w : Walk σ ι} {visit : Walk σ ι → Walk σ ι}
    {visit' : Walk σ ι' → Walk σ ι'}
    (step : visit' (Walk.map f { w with count := m.tick w.count }) =
      (visit { w with count := m.tick w.count }).map f) :
    (w.map f).enter m visit' = (w.enter m visit).map f := by
  unfold Walk.enter Walk.map at *
  split
  · rfl
  · split
    · rfl
    · exact step

theorem Agree.search [LinearOrder κ] (agree : Agree p q f order) (m : Meter σ)
    (rest chosen : List ι) (w : Walk σ ι) (inside : chosen ++ rest <+ order)
    (known : w.best ⊆ order) :
    q.search m (rest.map f) (chosen.map f) (w.map f) = (p.search m rest chosen w).map f := by
  induction rest generalizing chosen w with
  | nil =>
    refine Walk.enter_map ?_
    rw [List.append_nil] at inside
    exact congrArg (Walk.mk _ _) (agree.improve known inside.subset)
  | cons c rest ih =>
    refine Walk.enter_map ?_
    have upTo : chosen ++ [c] ++ rest <+ order := by simpa using inside
    have without : chosen ++ rest <+ order :=
      (List.Sublist.append_left (List.sublist_cons_self c rest) chosen).trans inside
    have fits := agree.fits ((List.sublist_append_left _ _).trans upTo)
    by_cases taken : w.best.length ≤ chosen.length + (rest.length + 1) ∧ p.fits chosen c = true
    · have taken' : (w.best.map f).length ≤ (chosen.map f).length + ((rest.map f).length + 1) ∧
          q.fits (chosen.map f) (f c) = true := by simpa [fits] using taken
      rw [if_pos taken]
      refine (congrArg (q.search m _ _) (if_pos taken')).trans ?_
      have step := ih (chosen ++ [c]) { w with count := m.tick w.count } upTo known
      rw [List.map_append] at step
      refine (congrArg (q.search m _ _) step).trans (ih chosen _ without ?_)
      rcases (p.search_covers m rest (chosen ++ [c]) _).found with kept | found
      · rw [kept]
        exact known
      · exact ((Puzzle.sublist_of_mem_leaves found).trans upTo).subset
    · have taken' : ¬ ((w.best.map f).length ≤ (chosen.map f).length + ((rest.map f).length + 1) ∧
          q.fits (chosen.map f) (f c) = true) := by simpa [fits] using taken
      rw [if_neg taken]
      refine (congrArg (q.search m _ _) (if_neg taken')).trans ?_
      exact ih chosen { w with count := m.tick w.count } without known

theorem Agree.greedy (agree : Agree p q f order) (rest chosen : List ι)
    (inside : chosen ++ rest <+ order) :
    q.greedy (rest.map f) (chosen.map f) = (p.greedy rest chosen).map f := by
  induction rest generalizing chosen with
  | nil => rfl
  | cons c rest ih =>
    have upTo : chosen ++ [c] ++ rest <+ order := by simpa using inside
    have without : chosen ++ rest <+ order :=
      (List.Sublist.append_left (List.sublist_cons_self c rest) chosen).trans inside
    rw [List.map_cons, Puzzle.greedy, Puzzle.greedy,
      agree.fits ((List.sublist_append_left _ _).trans upTo)]
    split
    · have step := ih (chosen ++ [c]) upTo
      rwa [List.map_append] at step
    · exact ih chosen without

end Renaming

end BranchBound
