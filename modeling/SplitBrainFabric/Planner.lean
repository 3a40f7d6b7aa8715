import SplitBrainFabric.Selection
import SplitBrainFabric.Decisions
import SplitBrainFabric.Library.BranchBound

/-! What the planner does, in terms of the candidates themselves. The search over
positions is a branch and bound over requests in order of preference, so that nothing
depends on the order in which the candidates arrive. -/

namespace SplitBrainFabric

open BranchBound
open scoped List

/-! ### The order of preference -/

/-- Higher epochs first, then higher tokens, then by domain and claim. -/
def preferenceKey (r : AuthorityRequest) : UInt64ᵒᵈ ×ₗ UInt64ᵒᵈ ×ₗ DomainId ×ₗ ClaimId :=
  toLex (OrderDual.toDual r.epoch, toLex (OrderDual.toDual r.presentedFenceToken,
    toLex (r.domain, r.claim)))

theorem preferenceLess_iff {a b : AuthorityRequest} :
    preferenceLess a b = true ↔ preferenceKey a < preferenceKey b := by
  unfold preferenceLess preferenceKey
  simp only [Prod.Lex.toLex_lt_toLex, OrderDual.toDual_lt_toDual, OrderDual.toDual_inj]
  split
  · rename_i epoch
    simp [epoch]
  · rename_i epoch
    rw [not_not.mp epoch]
    split
    · rename_i token
      simp [token]
    · rename_i token
      rw [not_not.mp token]
      split
      · rename_i domain
        simp [domain]
      · rename_i domain
        simp [not_not.mp domain]

theorem preferenceLess_eq_false_iff {a b : AuthorityRequest} :
    preferenceLess a b = false ↔ preferenceKey b ≤ preferenceKey a := by
  rw [← not_lt, ← preferenceLess_iff, Bool.not_eq_true]

theorem claim_of_preferenceKey {a b : AuthorityRequest} (same : preferenceKey a = preferenceKey b) :
    a.claim = b.claim :=
  congrArg (fun x => (ofLex (ofLex (ofLex x).2).2).2) same

/-- How many candidates are preferred to a request. -/
def preferenceRank (candidates : List AuthorityRequest) (r : AuthorityRequest) : Nat :=
  candidates.countP fun c => preferenceLess c r

def ranked (candidates : List AuthorityRequest) : List AuthorityRequest :=
  candidates.insertionSort fun a b => preferenceKey a ≤ preferenceKey b

section Order

variable {candidates arrival : List AuthorityRequest}

theorem distinct_keys (distinct : (candidates.map (·.claim)).Nodup) :
    (candidates.map preferenceKey).Nodup := by
  rw [List.Nodup, List.pairwise_map] at distinct ⊢
  exact distinct.imp fun apart same => apart (claim_of_preferenceKey same)

theorem ranked_perm (candidates : List AuthorityRequest) : (ranked candidates).Perm candidates :=
  List.perm_insertionSort _ candidates

theorem ranked_sorted (distinct : (candidates.map (·.claim)).Nodup) :
    (ranked candidates).Pairwise fun a b => preferenceKey a < preferenceKey b := by
  have nodup := ((ranked_perm candidates).map preferenceKey).nodup_iff.mpr (distinct_keys distinct)
  have weak : (ranked candidates).Pairwise fun a b => preferenceKey a ≤ preferenceKey b :=
    KeySort.pairwise_insertionSort candidates
  exact (weak.and (List.pairwise_map.mp nodup)).imp fun both => lt_of_le_of_ne both.1 both.2

theorem ranked_arrival (distinct : (candidates.map (·.claim)).Nodup)
    (perm : arrival.Perm candidates) : ranked arrival = ranked candidates :=
  KeySort.insertionSort_perm (distinct_keys distinct) perm

theorem preferenceRank_arrival (perm : arrival.Perm candidates) :
    preferenceRank arrival = preferenceRank candidates :=
  funext fun _ => perm.countP_eq _

end Order

/-! ### Positions -/

section Positions

variable {sorting : Sorting} {candidates : List AuthorityRequest} {view : ArbiterView}
  {nodeBudget : UInt64} {i j : Nat}

theorem map_candidateAt (candidates : List AuthorityRequest) :
    (List.range candidates.length).map (candidateAt candidates) = candidates := by
  refine List.ext_getElem (by simp) fun i _ here => ?_
  simp [candidateAt, here]

theorem candidateAt_eq (below : i < candidates.length) :
    candidateAt candidates i = candidates[i] := by
  simp [candidateAt, below]

theorem claimAt_inj (distinct : (candidates.map (·.claim)).Nodup) (below : i < candidates.length)
    (below' : j < candidates.length)
    (same : (candidateAt candidates i).claim = (candidateAt candidates j).claim) : i = j := by
  rw [candidateAt_eq below, candidateAt_eq below'] at same
  have here : i < (candidates.map (·.claim)).length := by simpa using below
  have here' : j < (candidates.map (·.claim)).length := by simpa using below'
  have mapped : (candidates.map (·.claim))[i] = (candidates.map (·.claim))[j] := by simpa using same
  exact (List.Nodup.getElem_inj_iff distinct).mp mapped

theorem preferenceOrder_perm (candidates : List AuthorityRequest) :
    (preferenceOrder candidates).Perm (List.range candidates.length) :=
  List.perm_insertionSort _ _

theorem preferenceOrder_below (member : i ∈ preferenceOrder candidates) : i < candidates.length :=
  List.mem_range.mp ((preferenceOrder_perm candidates).mem_iff.mp member)

theorem mem_preferenceOrder (below : i < candidates.length) : i ∈ preferenceOrder candidates :=
  (preferenceOrder_perm candidates).mem_iff.mpr (List.mem_range.mpr below)

theorem preferenceOrder_nodup (candidates : List AuthorityRequest) :
    (preferenceOrder candidates).Nodup :=
  (preferenceOrder_perm candidates).nodup_iff.mpr List.nodup_range

/-- The sorted positions hold the sorted candidates. -/
theorem preferenceOrder_map (distinct : (candidates.map (·.claim)).Nodup) :
    (preferenceOrder candidates).map (candidateAt candidates) = ranked candidates := by
  have perm : ((preferenceOrder candidates).map (candidateAt candidates)).Perm candidates := by
    have mapped := (preferenceOrder_perm candidates).map (candidateAt candidates)
    rwa [map_candidateAt] at mapped
  refine KeySort.eq_of_distinct ((perm.map preferenceKey).nodup_iff.mpr (distinct_keys distinct))
    (List.pairwise_map.mpr ?_) ((ranked_sorted distinct).imp le_of_lt)
    (perm.trans (ranked_perm candidates).symm)
  have total : Std.Total fun a b : Nat => preferenceLess (candidateAt candidates b)
      (candidateAt candidates a) = false :=
    ⟨fun a b => by
      rw [preferenceLess_eq_false_iff, preferenceLess_eq_false_iff]
      exact le_total _ _⟩
  have trans : IsTrans Nat fun a b => preferenceLess (candidateAt candidates b)
      (candidateAt candidates a) = false :=
    ⟨fun a b c => by
      simp only [preferenceLess_eq_false_iff]
      exact le_trans⟩
  exact (List.pairwise_insertionSort _ _).imp preferenceLess_eq_false_iff.mp

theorem preferenceOrder_sorted (distinct : (candidates.map (·.claim)).Nodup) :
    (preferenceOrder candidates).Pairwise fun i j =>
      preferenceKey (candidateAt candidates i) < preferenceKey (candidateAt candidates j) := by
  have sorted := ranked_sorted distinct
  rwa [← preferenceOrder_map distinct, List.pairwise_map] at sorted

theorem prepare_rank_idxOf (below : i < candidates.length) :
    (prepare sorting candidates view nodeBudget).rank i = (preferenceOrder candidates).idxOf i := by
  simp [SearchState.rank, prepare, below]

/-- A position's rank is the number of candidates preferred to the one it holds. -/
theorem prepare_rank (distinct : (candidates.map (·.claim)).Nodup) (below : i < candidates.length) :
    (prepare sorting candidates view nodeBudget).rank i =
      preferenceRank candidates (candidateAt candidates i) := by
  have position := KeySort.idxOf_eq_countP (preferenceOrder_sorted distinct)
    (mem_preferenceOrder below)
  rw [prepare_rank_idxOf below, position, preferenceRank, ← (ranked_perm candidates).countP_eq, ← preferenceOrder_map distinct,
    List.countP_map]
  refine List.countP_congr fun j _ => ?_
  rw [decide_eq_true_iff, Function.comp, preferenceLess_iff]

theorem decisionAt_eq (below : i < candidates.length) :
    (isolatedDecisions sorting candidates view).getD i {} =
      decideAuthority sorting (candidateAt candidates i) view.isolated := by
  simp [isolatedDecisions, candidateAt_eq below, below]

theorem prepare_isLegal (below : i < candidates.length) :
    (prepare sorting candidates view nodeBudget).isLegal i =
      (decideAuthority sorting (candidateAt candidates i) view.isolated).isAuthoritative := by
  simp [SearchState.isLegal, prepare, isolatedDecisions, candidateAt_eq below, below]

theorem exclusiveOverlap_comm (a b : AuthorityRequest) :
    exclusiveOverlap a b = exclusiveOverlap b a := by
  rw [exclusiveOverlap, exclusiveOverlap, Scope.overlaps_comm]
  exact if_congr or_comm rfl rfl

theorem prepare_conflicts (below : i < candidates.length) (below' : j < candidates.length)
    (apart : i ≠ j) : (prepare sorting candidates view nodeBudget).conflicts i j =
      exclusiveOverlap (candidateAt candidates i) (candidateAt candidates j) := by
  simp only [SearchState.conflicts, prepare, conflictTable]
  rcases lt_or_gt_of_ne apart with first | second
  · simp [below, below', first]
  · simp [below, below', second, second.not_gt, exclusiveOverlap_comm (candidateAt candidates j)]

end Positions

/-! ### The searches are branch and bound -/

def nodeMeter (budget : UInt64) : Meter UInt64 := ⟨(· + 1), fun nodes => decide (budget < nodes)⟩

namespace SearchState

variable (state : SearchState)

def puzzle : Puzzle Nat Nat := ⟨state.isLegal, state.conflicts, state.rank⟩

def meter : Meter UInt64 := nodeMeter state.budget

def walk : Walk UInt64 Nat := ⟨state.nodes, state.budgetExhausted, state.best⟩

def resume (w : Walk UInt64 Nat) : SearchState :=
  { state with nodes := w.count, budgetExhausted := w.exhausted, best := w.best }

end SearchState

section Refinement

variable {state : SearchState}

theorem earlierRanks_iff {rank : Nat → Nat} {a b : List Nat} (same : a.length = b.length) :
    earlierRanks rank a b = true ↔ a.map rank < b.map rank := by
  induction a generalizing b with
  | nil =>
    rw [List.length_nil, eq_comm, List.length_eq_zero_iff] at same
    simp [same, earlierRanks]
  | cons x rest ih =>
    cases b with
    | nil => cases same
    | cons y rest' =>
      rw [earlierRanks, List.map_cons, List.map_cons, List.cons_lt_cons_iff]
      split
      · rename_i differ
        simp [differ]
      · rename_i equal
        rw [ih (Nat.succ_inj.mp same)]
        simp [not_not.mp equal]

theorem betterSelection_iff (state : SearchState) (a b : List Nat) :
    betterSelection a b state.rank = true ↔ state.puzzle.score a < state.puzzle.score b := by
  rw [betterSelection, Puzzle.score_lt_iff]
  split
  · rename_i differ
    simp [differ]
  · rename_i same
    rw [earlierRanks_iff (not_not.mp same), not_not.mp same]
    simp [SearchState.puzzle]

theorem improve_eq (state : SearchState) (best s : List Nat) :
    state.puzzle.improve best s = if betterSelection s best state.rank = true then s else best :=
  if_congr (betterSelection_iff state s best).symm rfl rfl

theorem compatible_eq (state : SearchState) (chosen : List Nat) (candidate : Nat) :
    compatible state chosen candidate = state.puzzle.fits chosen candidate := by
  unfold compatible Puzzle.fits
  cases legal : state.isLegal candidate <;> simp [SearchState.puzzle, legal]

theorem enter_eq (visit : SearchState → SearchState) (visit' : Walk UInt64 Nat → Walk UInt64 Nat)
    (step : visit { state with nodes := state.nodes + 1 } =
      state.resume (visit' { state.walk with count := state.nodes + 1 })) :
    (if state.budgetExhausted then state
      else if state.budget < state.nodes + 1 then
        { state with nodes := state.nodes + 1, budgetExhausted := true }
      else visit { state with nodes := state.nodes + 1 }) =
      state.resume (state.walk.enter state.meter visit') := by
  unfold Walk.enter
  by_cases stopped : state.budgetExhausted = true
  · rw [if_pos stopped, if_pos (show state.walk.exhausted = true from stopped)]
    rfl
  · rw [if_neg stopped, if_neg (show ¬ state.walk.exhausted = true from stopped)]
    by_cases spent : state.budget < state.nodes + 1
    · have spent' : state.meter.spent (state.meter.tick state.walk.count) = true :=
        decide_eq_true spent
      rw [if_pos spent, if_pos spent']
      rfl
    · have within : ¬ state.meter.spent (state.meter.tick state.walk.count) = true :=
        fun h => spent (of_decide_eq_true h)
      rw [if_neg spent, if_neg within]
      exact step

/-- The planner's search is the branch and bound of its tables. -/
theorem search_eq (remaining chosen : List Nat) (state : SearchState) :
    search remaining chosen state =
      state.resume (state.puzzle.search state.meter remaining chosen state.walk) := by
  induction remaining generalizing chosen state with
  | nil =>
    rw [search, Puzzle.search]
    refine enter_eq (fun s =>
      if betterSelection chosen s.best s.rank then { s with best := chosen } else s) _ ?_
    rw [improve_eq]
    change (if betterSelection chosen state.best state.rank = true then _ else _) =
      state.resume ⟨_, _, if betterSelection chosen state.best state.rank = true then chosen
        else state.best⟩
    split <;> rfl
  | cons candidate rest ih =>
    rw [search, Puzzle.search]
    refine enter_eq (fun s => search rest chosen
      (if s.best.length ≤ chosen.length + (rest.length + 1) ∧ compatible s chosen candidate = true
        then search rest (chosen ++ [candidate]) s else s)) _ ?_
    have branch (w : Walk UInt64 Nat) :
        (if w.best.length ≤ chosen.length + (rest.length + 1) ∧
            compatible (state.resume w) chosen candidate = true
          then search rest (chosen ++ [candidate]) (state.resume w) else state.resume w) =
        state.resume (if w.best.length ≤ chosen.length + (rest.length + 1) ∧
            state.puzzle.fits chosen candidate = true
          then state.puzzle.search state.meter rest (chosen ++ [candidate]) w else w) := by
      rw [compatible_eq]
      change (if w.best.length ≤ _ ∧ state.puzzle.fits chosen candidate = true then _ else _) = _
      split
      · exact ih (chosen ++ [candidate]) (state.resume w)
      · rfl
    exact (congrArg (search rest chosen)
      (branch ⟨state.nodes + 1, state.budgetExhausted, state.best⟩)).trans
      (ih chosen (state.resume _))

theorem greedySelection_eq (remaining chosen : List Nat) :
    greedySelection state remaining chosen = state.puzzle.greedy remaining chosen := by
  induction remaining generalizing chosen with
  | nil => rfl
  | cons candidate rest ih =>
    rw [greedySelection, Puzzle.greedy, ← compatible_eq, compatible]
    split
    · exact ih chosen
    · rw [ih, ih]
      cases chosen.any fun taken => state.conflicts candidate taken <;> rfl

theorem selectMask_eq (remaining selection : List Nat) :
    selectMask state remaining selection = state.puzzle.gather remaining selection := by
  induction remaining generalizing selection with
  | nil => rfl
  | cons candidate rest ih =>
    rw [selectMask, Puzzle.gather, ← compatible_eq, compatible]
    split
    · rfl
    · rw [ih]
      cases selection.any fun taken => state.conflicts candidate taken <;> rfl

/-- The selection a mask stands for, in order of rank. -/
def maskSelection (state : SearchState) (n mask : Nat) : Option (List Nat) :=
  (state.puzzle.gather ((List.range n).filter mask.testBit) []).map fun selection =>
    selection.insertionSort fun a b => state.rank a ≤ state.rank b

/-- An enumeration that is not cut off keeps the best of the selections it meets. -/
theorem enumerate_best {n : Nat} {masks : List Nat} {e : Enumeration}
    (running : (enumerate state n masks e).exhausted = false) :
    (enumerate state n masks e).best =
      (masks.filterMap (maskSelection state n)).foldl state.puzzle.improve e.best := by
  induction masks generalizing e with
  | nil => rfl
  | cons mask rest ih =>
    rw [enumerate] at running ⊢
    split at running
    · cases running
    · rename_i within
      rw [if_neg within]
      rw [selectMask_eq] at running ⊢
      rw [List.filterMap_cons, maskSelection]
      cases gathered : state.puzzle.gather ((List.range n).filter mask.testBit) [] with
      | none =>
        simp only [gathered] at running
        exact ih running
      | some selection =>
        simp only [gathered] at running ⊢
        refine (ih running).trans ?_
        rw [Option.map_some, List.foldl_cons, improve_eq]
        congr 1
        split <;> rfl

end Refinement

section Prepared

variable {sorting : Sorting} {candidates : List AuthorityRequest} {view : ArbiterView}
  {nodeBudget : UInt64} {s : List Nat}

theorem prepare_conflicts_comm (a b : Nat) :
    (prepare sorting candidates view nodeBudget).conflicts a b =
      (prepare sorting candidates view nodeBudget).conflicts b a := by
  by_cases inside : a < candidates.length ∧ b < candidates.length
  · obtain ⟨below, below'⟩ := inside
    by_cases same : a = b
    · rw [same]
    · rw [prepare_conflicts below below' same, prepare_conflicts below' below (Ne.symm same),
        exclusiveOverlap_comm]
  · have clear : ∀ a b, ¬ (a < candidates.length ∧ b < candidates.length) →
        (prepare sorting candidates view nodeBudget).conflicts a b = false := by
      intro a b outside
      simp only [SearchState.conflicts, prepare, conflictTable]
      by_cases below : a < candidates.length
      · have above : ¬ b < candidates.length := fun below' => outside ⟨below, below'⟩
        simp [below, above]
      · simp [below]
    rw [clear a b inside, clear b a fun both => inside both.symm]

/-- Along the order of preference the ranks go up. -/
theorem prepare_sorted (sorting : Sorting) (candidates : List AuthorityRequest) (view : ArbiterView)
    (nodeBudget : UInt64) :
    (preferenceOrder candidates).Pairwise fun a b =>
      (prepare sorting candidates view nodeBudget).rank a <
        (prepare sorting candidates view nodeBudget).rank b := by
  refine List.pairwise_iff_getElem.mpr fun i j here here' less => ?_
  have nodup := preferenceOrder_nodup candidates
  rw [prepare_rank_idxOf (preferenceOrder_below (List.getElem_mem here)),
    prepare_rank_idxOf (preferenceOrder_below (List.getElem_mem here')),
    List.Nodup.idxOf_getElem nodup, List.Nodup.idxOf_getElem nodup]
  exact less

/-- The masks stand for exactly the feasible sublists of the order of preference. -/
theorem mem_maskSelections :
    s ∈ (List.range (2 ^ candidates.length)).filterMap
        (maskSelection (prepare sorting candidates view nodeBudget) candidates.length) ↔
      s <+ preferenceOrder candidates ∧
        (prepare sorting candidates view nodeBudget).puzzle.Feasible s := by
  generalize prepared : prepare sorting candidates view nodeBudget = state
  have sorted : (preferenceOrder candidates).Pairwise (state.rank · < state.rank ·) :=
    prepared ▸ prepare_sorted sorting candidates view nodeBudget
  have comm : ∀ a b, state.puzzle.clash a b = state.puzzle.clash b a :=
    prepared ▸ prepare_conflicts_comm
  have distinct : ((preferenceOrder candidates).map state.rank).Nodup :=
    List.pairwise_map.mpr (sorted.imp ne_of_lt)
  simp only [List.mem_filterMap, maskSelection, Option.map_eq_some_iff, List.mem_range,
    Puzzle.gather_eq_some_iff Puzzle.feasible_nil, List.nil_append]
  constructor
  · rintro ⟨mask, -, t, ⟨rfl, feasible⟩, rfl⟩
    have perm := List.perm_insertionSort (state.rank · ≤ state.rank ·)
      ((List.range candidates.length).filter mask.testBit)
    refine ⟨KeySort.sublist_of_subperm distinct (sorted.imp le_of_lt)
      (KeySort.pairwise_insertionSort _) ?_, feasible.perm comm perm.symm⟩
    exact (perm.subperm.trans (List.filter_sublist.subperm)).trans
      (preferenceOrder_perm candidates).symm.subperm
  · rintro ⟨inside, feasible⟩
    -- the mask with the bits of the selected positions
    let mask := Nat.ofBits fun i : Fin candidates.length => decide (i.val ∈ s)
    have bits : (List.range candidates.length).filter mask.testBit =
        (List.range candidates.length).filter fun i => decide (i ∈ s) := by
      refine List.filter_congr fun i member => ?_
      exact Nat.testBit_ofBits_lt _ i (List.mem_range.mp member)
    have perm : ((List.range candidates.length).filter mask.testBit).Perm s := by
      rw [bits]
      refine (List.perm_ext_iff_of_nodup (List.nodup_range.filter _)
        (inside.nodup (preferenceOrder_nodup candidates))).mpr fun i => ?_
      rw [List.mem_filter, List.mem_range, decide_eq_true_iff]
      exact ⟨And.right, fun member => ⟨preferenceOrder_below (inside.subset member), member⟩⟩
    refine ⟨mask, Nat.ofBits_lt_two_pow _, _, ⟨rfl, feasible.perm comm perm.symm⟩, ?_⟩
    have sortedPerm := (List.perm_insertionSort (state.rank · ≤ state.rank ·) _).trans perm
    exact KeySort.eq_of_distinct
      ((sortedPerm.map state.rank).nodup_iff.mpr ((inside.map _).nodup distinct))
      (KeySort.pairwise_insertionSort _) ((sorted.sublist inside).imp le_of_lt) sortedPerm

end Prepared

/-! ### The search over the candidates themselves -/

def requestPuzzle (sorting : Sorting) (candidates : List AuthorityRequest) (view : ArbiterView) :
    Puzzle AuthorityRequest Nat where
  legal r := (decideAuthority sorting r view.isolated).isAuthoritative
  clash := exclusiveOverlap
  key := preferenceRank candidates

/-- Branch and bound over the candidates in order of preference. -/
def planned (sorting : Sorting) (candidates : List AuthorityRequest) (view : ArbiterView)
    (nodeBudget : UInt64) : Walk UInt64 AuthorityRequest :=
  (requestPuzzle sorting candidates view).search (nodeMeter nodeBudget) (ranked candidates) []
    ⟨0, false, []⟩

def searched (sorting : Sorting) (candidates : List AuthorityRequest) (view : ArbiterView)
    (nodeBudget : UInt64) : SearchState :=
  search (preferenceOrder candidates) [] (prepare sorting candidates view nodeBudget)

section Requests

variable {sorting : Sorting} {candidates arrival : List AuthorityRequest} {view : ArbiterView}
  {nodeBudget : UInt64}

theorem requestPuzzle_agree (distinct : (candidates.map (·.claim)).Nodup) :
    Agree (prepare sorting candidates view nodeBudget).puzzle
      (requestPuzzle sorting candidates view) (candidateAt candidates)
      (preferenceOrder candidates) where
  legal _ member := (prepare_isLegal (preferenceOrder_below member)).symm
  key _ member := (prepare_rank distinct (preferenceOrder_below member)).symm
  clash := (preferenceOrder_nodup candidates).imp_of_mem fun left right apart =>
    (prepare_conflicts (preferenceOrder_below right) (preferenceOrder_below left)
      (Ne.symm apart)).symm

/-- The search over positions is the search over the requests they hold. -/
theorem planned_eq (distinct : (candidates.map (·.claim)).Nodup) :
    planned sorting candidates view nodeBudget =
      (searched sorting candidates view nodeBudget).walk.map (candidateAt candidates) := by
  rw [planned, ← preferenceOrder_map distinct, searched, search_eq]
  exact (requestPuzzle_agree distinct).search (nodeMeter nodeBudget) (preferenceOrder candidates) []
    ⟨0, false, []⟩ (List.Sublist.refl _) (List.nil_subset _)

theorem planned_arrival (distinct : (candidates.map (·.claim)).Nodup)
    (perm : arrival.Perm candidates) :
    planned sorting arrival view nodeBudget = planned sorting candidates view nodeBudget := by
  unfold planned requestPuzzle
  rw [ranked_arrival distinct perm, preferenceRank_arrival perm]

theorem ranked_rank_sorted (distinct : (candidates.map (·.claim)).Nodup) :
    (ranked candidates).Pairwise fun a b =>
      preferenceRank candidates a < preferenceRank candidates b := by
  rw [← preferenceOrder_map distinct, List.pairwise_map]
  refine (prepare_sorted {} candidates {} 0).imp_of_mem fun left right below => ?_
  rwa [prepare_rank distinct (preferenceOrder_below left),
    prepare_rank distinct (preferenceOrder_below right)] at below

end Requests

end SplitBrainFabric
