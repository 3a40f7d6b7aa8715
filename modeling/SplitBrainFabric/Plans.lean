import Mathlib.Data.List.Pairwise
import SplitBrainFabric.Planner

/-! Plans: sound, the best there is unless the search was cut off, never worse than the
greedy selection, and the same for every order of the candidates. -/

namespace SplitBrainFabric

open BranchBound
open scoped List

/-- The candidates of a plan, one by one within their rights and exclusive of each other. -/
structure FeasibleSet (sorting : Sorting) (view : ArbiterView) (chosen : List AuthorityRequest) :
    Prop where
  legal : ∀ r ∈ chosen, (decideAuthority sorting r view.isolated).isAuthoritative = true
  apart : chosen.Pairwise fun a b => exclusiveOverlap a b = false

section Feasible

variable {sorting : Sorting} {candidates chosen other : List AuthorityRequest} {view : ArbiterView}

theorem feasibleSet_iff :
    FeasibleSet sorting view chosen ↔ (requestPuzzle sorting candidates view).Feasible chosen := by
  constructor
  · rintro ⟨legal, apart⟩
    refine ⟨legal, apart.imp fun {a b} clear => ?_⟩
    exact (exclusiveOverlap_comm b a).trans clear
  · rintro ⟨legal, apart⟩
    refine ⟨legal, apart.imp fun {a b} clear => ?_⟩
    exact (exclusiveOverlap_comm a b).trans clear

theorem FeasibleSet.perm (feasible : FeasibleSet sorting view chosen) (perm : chosen.Perm other) :
    FeasibleSet sorting view other := by
  refine ⟨fun r member => feasible.legal r (perm.mem_iff.mpr member), ?_⟩
  refine (perm.pairwise_iff fun {a b} clear => ?_).mp feasible.apart
  exact (exclusiveOverlap_comm b a).trans clear

end Feasible

/-! ### Validation -/

section Validation

variable {sorting : Sorting} {candidates chosen : List AuthorityRequest} {view : ArbiterView}
  {r : AuthorityRequest}

theorem granted_claim {view : ArbiterView}
    (granted : (decideAuthority sorting r view).isAuthoritative = true) :
    (decideAuthority sorting r view).claim = r.claim := by
  obtain ⟨policy, fences, lineage, mustFence, -, same⟩ := decideAuthority_granted granted
  rw [same]
  rfl

theorem find_claim (distinct : (candidates.map (·.claim)).Nodup) (member : r ∈ candidates) :
    candidates.find? (fun c => c.claim = r.claim) = some r := by
  induction candidates with
  | nil => cases member
  | cons c rest ih =>
    obtain ⟨fresh, distinct⟩ := List.nodup_cons.mp distinct
    rcases List.mem_cons.mp member with rfl | later
    · exact List.find?_cons_of_pos (by simp)
    · have apart : c.claim ≠ r.claim :=
        fun same => fresh (List.mem_map.mpr ⟨r, later, same.symm⟩)
      rw [List.find?_cons_of_neg (by simpa using apart)]
      exact ih distinct later

theorem recheckDecisions_chosen (distinct : (candidates.map (·.claim)).Nodup)
    (inside : chosen ⊆ candidates)
    (legal : ∀ r ∈ chosen, (decideAuthority sorting r view.isolated).isAuthoritative = true) :
    recheckDecisions sorting candidates view.isolated
      (chosen.map fun r => decideAuthority sorting r view.isolated) = .ok chosen := by
  induction chosen with
  | nil => rfl
  | cons r rest ih =>
    have granted := legal r List.mem_cons_self
    have later := ih (fun x member => inside (List.mem_cons_of_mem r member))
      fun x member => legal x (List.mem_cons_of_mem r member)
    rw [List.map_cons, recheckDecisions, granted_claim granted,
      find_claim distinct (inside List.mem_cons_self), later]
    simp [granted]

theorem overlapFrom_apart (apart : chosen.Pairwise fun a b => exclusiveOverlap a b = false)
    (i : Nat) : overlapFrom i chosen = none := by
  induction chosen generalizing i with
  | nil => rfl
  | cons r rest ih =>
    obtain ⟨head, tail⟩ := List.pairwise_cons.mp apart
    have clear : rest.findIdx? (exclusiveOverlap r) = none := List.findIdx?_eq_none_iff.mpr head
    rw [overlapFrom, clear]
    exact ih tail (i + 1)

/-- A plan made of the decisions of a feasible set passes its own validation. -/
theorem validatePlan_feasible {plan : AuthorityPlan} (distinct : (candidates.map (·.claim)).Nodup)
    (inside : chosen ⊆ candidates) (feasible : FeasibleSet sorting view chosen)
    (authorized : plan.authorized = chosen.map fun r => decideAuthority sorting r view.isolated) :
    validatePlan sorting plan candidates view = .ok := by
  rw [validatePlan, authorized, recheckDecisions_chosen distinct inside feasible.legal]
  simp only [overlapFrom_apart feasible.apart]

end Validation

/-! ### The plan of a set of candidates -/

/-- The plan that authorizes the chosen candidates, given all claims. -/
def planOf (sorting : Sorting) (view : ArbiterView) (claims : List ClaimId)
    (chosen : List AuthorityRequest) (nodes : UInt64) (complete : Bool) : AuthorityPlan :=
  let authorized := chosen.map fun r => decideAuthority sorting r view.isolated
  let refused := claims.filter fun claim => !(chosen.map (·.claim)).contains claim
  let mustFence := (authorized.flatMap (·.mustFence)).foldl
    (fun fenced claim => if fenced.contains claim then fenced else fenced ++ [claim]) []
  let outcome := selectionOutcome complete chosen.isEmpty
  { outcome := outcome
    status := { planStatus outcome nodes with aux := nodes }
    authorized := authorized
    refused := refused.insertionSort (· ≤ ·)
    mustFence := mustFence.insertionSort (· ≤ ·)
    nodesExplored := nodes
    optimalityProven := complete
    validated := true }

/-- The plan a search ends with. -/
def planFrom (sorting : Sorting) (view : ArbiterView) (claims : List ClaimId)
    (w : Walk UInt64 AuthorityRequest) : AuthorityPlan :=
  planOf sorting view claims w.best w.count (!w.exhausted)

section PlanOf

variable {sorting : Sorting} {candidates chosen : List AuthorityRequest}
  {claims claims' : List ClaimId} {view : ArbiterView} {best : List Nat} {nodes : UInt64}
  {complete : Bool}

theorem planOf_arrival (distinct : claims.Nodup) (perm : claims'.Perm claims) :
    planOf sorting view claims' chosen nodes complete =
      planOf sorting view claims chosen nodes complete := by
  let unselected : ClaimId → Bool := fun claim => !(chosen.map fun r => r.claim).contains claim
  have sorted : (claims'.filter unselected).insertionSort (· ≤ ·) =
      (claims.filter unselected).insertionSort (· ≤ ·) :=
    KeySort.insertionSort_perm (by rw [List.map_id']; exact distinct.filter _) (perm.filter _)
  rw [planOf, planOf, sorted]

/-- A plan made of positions is the plan of the requests they hold. -/
theorem completePlan_eq (view : ArbiterView) (nodes : UInt64) (complete : Bool)
    (distinct : (candidates.map (·.claim)).Nodup) (below : ∀ i ∈ best, i < candidates.length) :
    { completePlan sorting candidates view best nodes complete with validated := true } =
      planOf sorting view (candidates.map (·.claim)) (best.map (candidateAt candidates)) nodes
        complete := by
  have authorized :
      best.map (fun index => (isolatedDecisions sorting candidates view).getD index {}) =
      (best.map (candidateAt candidates)).map fun r => decideAuthority sorting r view.isolated := by
    rw [List.map_map]
    exact List.map_congr_left fun i member => decisionAt_eq (below i member)
  have refused : ((List.range candidates.length).filter fun i => !best.contains i).map
      (fun i => (candidateAt candidates i).claim) = (candidates.map (·.claim)).filter fun claim =>
        !((best.map (candidateAt candidates)).map (·.claim)).contains claim := by
    have claims : candidates.map (·.claim) =
        (List.range candidates.length).map fun i => (candidateAt candidates i).claim := by
      conv_lhs => rw [← map_candidateAt candidates]
      rw [List.map_map]
      rfl
    rw [claims, List.filter_map, List.map_map]
    refine congrArg _ (List.filter_congr fun i member => congrArg not ?_)
    rw [Bool.eq_iff_iff, List.contains_iff_mem, List.contains_iff_mem, List.mem_map]
    constructor
    · intro here
      exact ⟨i, here, rfl⟩
    · rintro ⟨j, here, same⟩
      exact claimAt_inj distinct (below j here) (List.mem_range.mp member) same ▸ here
  rw [completePlan, buildPlan, planOf, authorized, refused, List.isEmpty_map]

end PlanOf

section Select

variable {sorting : Sorting} {candidates arrival : List AuthorityRequest} {view : ArbiterView}
  {nodeBudget : UInt64}

theorem planned_feasible (candidates : List AuthorityRequest) (view : ArbiterView)
    (nodeBudget : UInt64) :
    (planned sorting candidates view nodeBudget).best <+ ranked candidates ∧
      FeasibleSet sorting view (planned sorting candidates view nodeBudget).best := by
  obtain ⟨inside, feasible, -⟩ := (requestPuzzle sorting candidates view).search_optimal
    (nodeMeter nodeBudget) (ranked candidates) (w := ⟨0, false, []⟩) rfl
  exact ⟨inside, feasibleSet_iff.mpr feasible⟩

theorem planned_subset (candidates : List AuthorityRequest) (view : ArbiterView)
    (nodeBudget : UInt64) : (planned sorting candidates view nodeBudget).best ⊆ candidates :=
  fun _ member => (ranked_perm candidates).mem_iff.mp
    ((planned_feasible candidates view nodeBudget).1.subset member)

theorem searched_below {i : Nat} (member : i ∈ (searched sorting candidates view nodeBudget).best) :
    i < candidates.length := by
  rw [searched, search_eq] at member
  have optimal := (prepare sorting candidates view nodeBudget).puzzle.search_optimal
    (prepare sorting candidates view nodeBudget).meter (preferenceOrder candidates)
    (w := (prepare sorting candidates view nodeBudget).walk) rfl
  exact preferenceOrder_below (optimal.1.subset member)

/-- The validation that every plan passes through succeeds. -/
theorem selectAuthoritySet_completes (sorting : Sorting) (view : ArbiterView) (nodeBudget : UInt64)
    (some : candidates ≠ [])
    (few : candidates.length ≤ Limits.maxCompetingClaims)
    (distinct : (candidates.map (·.claim)).Nodup) :
    selectAuthoritySet sorting candidates view nodeBudget =
      { completePlan sorting candidates view
          (searched sorting candidates view (effectiveBudget nodeBudget)).best
          (searched sorting candidates view (effectiveBudget nodeBudget)).nodes
          (!(searched sorting candidates view (effectiveBudget nodeBudget)).budgetExhausted) with
        validated := true } := by
  have same : planned sorting candidates view (effectiveBudget nodeBudget) = _ :=
    planned_eq distinct
  have occupied : candidates.isEmpty = false := by simpa using some
  generalize found : searched sorting candidates view (effectiveBudget nodeBudget) = state at same
  have searching : search (prepare sorting candidates view (effectiveBudget nodeBudget)).order []
      (prepare sorting candidates view (effectiveBudget nodeBudget)) = state := found
  have below : ∀ i ∈ state.best, i < candidates.length :=
    found ▸ fun i member => searched_below member
  have valid : validatePlan sorting (completePlan sorting candidates view state.best state.nodes
      (!state.budgetExhausted)) candidates view = .ok := by
    refine validatePlan_feasible distinct (planned_subset _ _ _)
      (planned_feasible _ _ (effectiveBudget nodeBudget)).2 ?_
    rw [same]
    exact congrArg (·.authorized)
      (completePlan_eq view state.nodes (!state.budgetExhausted) distinct below)
  unfold selectAuthoritySet
  rw [occupied, if_neg nofun, if_neg (not_lt.mpr few)]
  dsimp only
  rw [searching, valid]
  exact if_neg nofun

theorem selectAuthoritySet_proven (sorting : Sorting) (view : ArbiterView) (nodeBudget : UInt64)
    (some : candidates ≠ []) (few : candidates.length ≤ Limits.maxCompetingClaims)
    (distinct : (candidates.map (·.claim)).Nodup) :
    (selectAuthoritySet sorting candidates view nodeBudget).optimalityProven =
      !(searched sorting candidates view (effectiveBudget nodeBudget)).budgetExhausted := by
  rw [selectAuthoritySet_completes sorting view nodeBudget some few distinct]
  rfl

theorem selectAuthoritySet_eq (some : candidates ≠ [])
    (few : candidates.length ≤ Limits.maxCompetingClaims)
    (distinct : (candidates.map (·.claim)).Nodup) :
    selectAuthoritySet sorting candidates view nodeBudget =
      planFrom sorting view (candidates.map (·.claim))
        (planned sorting candidates view (effectiveBudget nodeBudget)) := by
  rw [selectAuthoritySet_completes sorting view nodeBudget some few distinct, planned_eq distinct]
  exact completePlan_eq view _ _ distinct fun i => searched_below

end Select

/-! ### Correctness -/

/-- No feasible set is larger, and none of the same size comes before it when the ranks
are compared in ascending order. -/
def OptimalSet (sorting : Sorting) (view : ArbiterView)
    (candidates chosen : List AuthorityRequest) : Prop :=
  ∀ other, other <+~ candidates → FeasibleSet sorting view other →
    other.length ≤ chosen.length ∧ (other.length = chosen.length →
      chosen.map (preferenceRank candidates) ≤
        (other.map (preferenceRank candidates)).insertionSort (· ≤ ·))

/-- The plan authorizes the chosen candidates, in order of preference, and refuses the rest. -/
structure AuthorityPlan.Authorizes (sorting : Sorting) (plan : AuthorityPlan) (view : ArbiterView)
    (candidates chosen : List AuthorityRequest) : Prop where
  within : chosen <+~ candidates
  feasible : FeasibleSet sorting view chosen
  ascending : (chosen.map (preferenceRank candidates)).Pairwise (· < ·)
  authorized : plan.authorized = chosen.map fun r => decideAuthority sorting r view.isolated
  partition : (plan.authorized.map (·.claim) ++ plan.refused) ~ candidates.map (·.claim)

section Correctness

variable {sorting : Sorting} {candidates arrival chosen : List AuthorityRequest}
  {view : ArbiterView} {nodeBudget : UInt64}

theorem decided_claims (feasible : FeasibleSet sorting view chosen) :
    (chosen.map fun r => decideAuthority sorting r view.isolated).map (·.claim) =
      chosen.map (·.claim) := by
  rw [List.map_map]
  exact List.map_congr_left fun r member => granted_claim (feasible.legal r member)

theorem claims_partition (distinct : (candidates.map (·.claim)).Nodup)
    (within : chosen <+~ candidates) :
    (chosen.map (·.claim) ++ (candidates.map (·.claim)).filter fun claim =>
      !(chosen.map (·.claim)).contains claim) ~ candidates.map (·.claim) := by
  obtain ⟨s, perm, sub⟩ := within
  have nodup : (chosen.map (·.claim)).Nodup :=
    (perm.map _).nodup_iff.mp ((sub.map _).nodup distinct)
  have inside : chosen.map (·.claim) ⊆ candidates.map (·.claim) :=
    List.map_subset _ (List.Subset.trans perm.symm.subset sub.subset)
  have picked : ((candidates.map (·.claim)).filter fun claim =>
      (chosen.map (·.claim)).contains claim) ~ chosen.map (·.claim) := by
    refine (List.perm_ext_iff_of_nodup (distinct.filter _) nodup).mpr fun claim => ?_
    rw [List.mem_filter, List.contains_iff_mem]
    exact ⟨And.right, fun member => ⟨inside member, member⟩⟩
  exact (picked.symm.append_right _).trans (List.filter_append_perm _ _)

theorem planFrom_authorizes (distinct : (candidates.map (·.claim)).Nodup) :
    (planFrom sorting view (candidates.map (·.claim))
      (planned sorting candidates view nodeBudget)).Authorizes sorting view candidates
        (planned sorting candidates view nodeBudget).best := by
  obtain ⟨inside, feasible⟩ := planned_feasible candidates view nodeBudget
  have within := inside.subperm.trans (ranked_perm candidates).subperm
  refine ⟨within, feasible, ?_, rfl, ?_⟩
  · exact List.pairwise_map.mpr ((ranked_rank_sorted distinct).sublist inside)
  · refine List.Perm.trans ?_ (claims_partition distinct within)
    change (List.map _ _).map _ ++ _ ~ _
    rw [decided_claims feasible]
    exact List.Perm.append_left _ (List.perm_insertionSort _ _)

theorem planned_optimal (distinct : (candidates.map (·.claim)).Nodup)
    (running : (planned sorting candidates view nodeBudget).exhausted = false) :
    OptimalSet sorting view candidates (planned sorting candidates view nodeBudget).best := by
  intro other within feasible
  have sorted := ranked_rank_sorted distinct
  have perm := List.perm_insertionSort
    (fun a b => preferenceRank candidates a ≤ preferenceRank candidates b) other
  have inside := KeySort.sublist_of_subperm (List.pairwise_map.mpr (sorted.imp ne_of_lt))
    (sorted.imp le_of_lt) (KeySort.pairwise_insertionSort other)
    ((perm.subperm.trans within).trans (ranked_perm candidates).symm.subperm)
  obtain ⟨-, -, least⟩ := (requestPuzzle sorting candidates view).search_optimal
    (nodeMeter nodeBudget) (ranked candidates) (w := ⟨0, false, []⟩) rfl
  have best := least running _ inside (feasibleSet_iff.mp (feasible.perm perm.symm))
  rcases Puzzle.score_le_iff.mp best with larger | ⟨same, first⟩
  · rw [perm.length_eq] at larger
    exact ⟨larger.le, fun equal => absurd equal larger.ne⟩
  · rw [perm.length_eq] at same
    refine ⟨same.ge, fun _ => ?_⟩
    have keys : (other.insertionSort fun a b =>
        preferenceRank candidates a ≤ preferenceRank candidates b).map (preferenceRank candidates) =
        (other.map (preferenceRank candidates)).insertionSort (· ≤ ·) :=
      List.map_insertionSort _ _ _ _ fun _ _ _ _ => Iff.rfl
    exact first.trans (le_of_eq keys)

theorem planned_empty_iff
    (running : (planned sorting candidates view nodeBudget).exhausted = false) :
    (planned sorting candidates view nodeBudget).best = [] ↔
      ∀ r ∈ candidates, (decideAuthority sorting r view.isolated).isAuthoritative = false := by
  refine (Puzzle.search_empty_iff rfl running).trans (forall_congr' fun r => ?_)
  rw [(ranked_perm candidates).mem_iff]
  rfl

theorem selectionOutcome_infeasible_iff {complete empty : Bool} :
    selectionOutcome complete empty = .provenInfeasible ↔ complete = true ∧ empty = true := by
  cases complete <;> cases empty <;> simp [selectionOutcome]

theorem selectionOutcome_valid (complete empty : Bool) :
    selectionOutcome complete empty ≠ .invalid := by
  cases complete <;> cases empty <;> exact nofun

theorem planStatus_reason (outcome : SelectionOutcome) (nodes : UInt64) :
    (planStatus outcome nodes).reason ≠ .internalInvariantViolation := by
  cases outcome <;> exact nofun

theorem searched_nil (sorting : Sorting) (view : ArbiterView) (nodeBudget : UInt64) :
    (searched sorting [] view (effectiveBudget nodeBudget)).budgetExhausted = false := by
  have within : ¬ effectiveBudget nodeBudget < 0 + 1 := by
    unfold effectiveBudget
    split
    · decide
    · rename_i given
      intro below
      exact given (UInt64.lt_one_iff.mp below)
  have go : (nodeMeter (effectiveBudget nodeBudget)).spent (0 + 1) = false := decide_eq_false within
  rw [searched, search_eq]
  change (Puzzle.search _ (nodeMeter (effectiveBudget nodeBudget)) [] []
    ⟨0, false, []⟩).exhausted = _
  rw [Puzzle.search, Walk.enter_of_running rfl go]

theorem selectAuthoritySet_nil (sorting : Sorting) (view : ArbiterView) (nodeBudget : UInt64) :
    selectAuthoritySet sorting [] view nodeBudget =
      { outcome := .provenInfeasible, optimalityProven := true
        status := .make .ok .provenInfeasible 0, validated := true } := rfl

theorem AuthorityPlan.authorizes_nil {plan : AuthorityPlan} (authorized : plan.authorized = [])
    (refused : plan.refused = []) : plan.Authorizes sorting view [] [] := by
  have feasible : FeasibleSet sorting view [] :=
    ⟨fun r member => absurd member List.not_mem_nil, List.Pairwise.nil⟩
  refine ⟨List.Subperm.refl [], feasible, List.Pairwise.nil, authorized, ?_⟩
  rw [authorized, refused]
  exact List.Perm.refl []

theorem selectAuthoritySet_arrival (few : candidates.length ≤ Limits.maxCompetingClaims)
    (distinct : (candidates.map (·.claim)).Nodup) (perm : arrival ~ candidates) :
    selectAuthoritySet sorting arrival view nodeBudget =
      selectAuthoritySet sorting candidates view nodeBudget := by
  by_cases some : candidates = []
  · subst some
    rw [List.perm_nil.mp perm]
  · have some' : arrival ≠ [] := fun none => some (List.nil_perm.mp (none ▸ perm))
    have claims := perm.map (·.claim)
    rw [selectAuthoritySet_eq some few distinct, selectAuthoritySet_eq some' (perm.length_eq ▸ few)
      (claims.nodup_iff.mpr distinct), planned_arrival distinct perm]
    exact planOf_arrival distinct claims

end Correctness

/-! ### The three solvers -/

section Solvers

variable {sorting : Sorting} {candidates : List AuthorityRequest} {view : ArbiterView}
  {nodeBudget : UInt64}

/-- The end of the loop over the masks. -/
def enumerated (sorting : Sorting) (candidates : List AuthorityRequest) (view : ArbiterView)
    (nodeBudget : UInt64) : Enumeration :=
  enumerate (prepare sorting candidates view nodeBudget) candidates.length
    (List.range (2 ^ candidates.length)) {}

theorem enumerated_optimal
    (running : (enumerated sorting candidates view nodeBudget).exhausted = false) :
    (enumerated sorting candidates view nodeBudget).best <+ preferenceOrder candidates ∧
      (prepare sorting candidates view nodeBudget).puzzle.Feasible
        (enumerated sorting candidates view nodeBudget).best ∧
      ∀ s, s <+ preferenceOrder candidates →
        (prepare sorting candidates view nodeBudget).puzzle.Feasible s →
        (prepare sorting candidates view nodeBudget).puzzle.score
            (enumerated sorting candidates view nodeBudget).best ≤
          (prepare sorting candidates view nodeBudget).puzzle.score s := by
  have same : (enumerated sorting candidates view nodeBudget).best = _ := enumerate_best running
  generalize (enumerated sorting candidates view nodeBudget).best = best at same ⊢
  obtain ⟨found, -, least⟩ := (prepare sorting candidates view nodeBudget).puzzle.foldl_improve
    ((List.range (2 ^ candidates.length)).filterMap
      (maskSelection (prepare sorting candidates view nodeBudget) candidates.length)) []
  rw [← same] at found least
  have known : best <+ preferenceOrder candidates ∧
      (prepare sorting candidates view nodeBudget).puzzle.Feasible best := by
    rcases found with none | listed
    · exact none ▸ ⟨List.nil_sublist _, Puzzle.feasible_nil⟩
    · exact mem_maskSelections.mp listed
  refine ⟨known.1, known.2, fun s inside feasible => ?_⟩
  exact least s (mem_maskSelections.mpr ⟨inside, feasible⟩)

/-- Depth first with pruning, or through all masks: the optimum is the same. -/
theorem searched_enumerated {nodeBudget' : UInt64}
    (running : (searched sorting candidates view nodeBudget).budgetExhausted = false)
    (running' : (enumerated sorting candidates view nodeBudget').exhausted = false) :
    (searched sorting candidates view nodeBudget).best =
      (enumerated sorting candidates view nodeBudget').best := by
  rw [searched, search_eq] at running ⊢
  obtain ⟨inside, feasible, least⟩ :=
    (prepare sorting candidates view nodeBudget).puzzle.search_optimal
      (prepare sorting candidates view nodeBudget).meter (preferenceOrder candidates)
      (w := (prepare sorting candidates view nodeBudget).walk) rfl
  obtain ⟨inside', feasible', least'⟩ := enumerated_optimal running'
  exact Puzzle.optimum_unique (prepare_sorted sorting candidates view nodeBudget) inside inside'
    feasible feasible' (least running) least'

theorem reference_completes (sorting : Sorting) (view : ArbiterView) (nodeBudget : UInt64)
    (few : candidates.length ≤ 24) :
    ∃ validated, selectAuthoritySetReference sorting candidates view nodeBudget =
      { completePlan sorting candidates view
          (enumerated sorting candidates view (effectiveBudget nodeBudget)).best
          (enumerated sorting candidates view (effectiveBudget nodeBudget)).nodes
          (!(enumerated sorting candidates view (effectiveBudget nodeBudget)).exhausted) with
        validated := validated } :=
  ⟨_, if_neg (not_lt.mpr few)⟩

theorem reference_proven (sorting : Sorting) (view : ArbiterView) (nodeBudget : UInt64)
    (few : candidates.length ≤ 24) :
    (selectAuthoritySetReference sorting candidates view nodeBudget).optimalityProven =
      !(enumerated sorting candidates view (effectiveBudget nodeBudget)).exhausted := by
  obtain ⟨validated, same⟩ := reference_completes sorting view nodeBudget few
  rw [same]
  rfl

theorem nodeMeter_within {n k : Nat} {budget : UInt64} (enough : n + 1 ≤ budget.toNat)
    (below : k ≤ n) :
    (nodeMeter budget).spent ((nodeMeter budget).tick^[k + 1] 0) = false := by
  have counted (k : Nat) : (nodeMeter budget).tick^[k] 0 = UInt64.ofNat k := by
    induction k with
    | zero => rfl
    | succ k ih =>
      rw [Function.iterate_succ_apply', ih]
      exact (UInt64.ofNat_add k 1).symm
  rw [counted]
  refine decide_eq_false fun above => ?_
  rw [UInt64.lt_iff_toNat_lt, UInt64.toNat_ofNat'] at above
  have small := Nat.mod_le (k + 1) (2 ^ 64)
  omega

theorem greedy_eq (distinct : (candidates.map (·.claim)).Nodup) :
    selectAuthoritySetGreedy sorting candidates view =
      (((requestPuzzle sorting candidates view).greedy (ranked candidates) []).map (·.claim),
        ((requestPuzzle sorting candidates view).greedy (ranked candidates) []).map
          fun r => decideAuthority sorting r view.isolated) := by
  have agree : (requestPuzzle sorting candidates view).greedy (ranked candidates) [] =
      (greedySelection (prepare sorting candidates view Limits.maxSearchNodes)
        (preferenceOrder candidates) []).map (candidateAt candidates) := by
    rw [← preferenceOrder_map distinct, greedySelection_eq]
    exact (requestPuzzle_agree distinct).greedy (preferenceOrder candidates) []
      (List.Sublist.refl _)
  rw [agree, List.map_map, List.map_map]
  refine Prod.ext rfl (List.map_congr_left fun i member => decisionAt_eq ?_)
  rw [greedySelection_eq] at member
  exact preferenceOrder_below ((Puzzle.greedy_feasible _ _).1.subset member)

/-- The greedy selection is feasible, and nothing can be added to it. -/
theorem greedy_maximal (sorting : Sorting) (candidates : List AuthorityRequest)
    (view : ArbiterView) :
    let chosen := (requestPuzzle sorting candidates view).greedy (ranked candidates) []
    chosen <+~ candidates ∧ FeasibleSet sorting view chosen ∧
      ∀ other, other <+~ candidates → FeasibleSet sorting view other → chosen ⊆ other →
        other ⊆ chosen := by
  intro chosen
  obtain ⟨inside, feasible⟩ :=
    (requestPuzzle sorting candidates view).greedy_feasible (ranked candidates)
  refine ⟨inside.subperm.trans (ranked_perm candidates).subperm, feasibleSet_iff.mpr feasible, ?_⟩
  intro other within feasible' contains r member
  by_contra out
  obtain ⟨t, taken, overlap⟩ := Puzzle.greedy_maximal
    ((ranked_perm candidates).mem_iff.mpr (within.subset member)) (feasible'.legal r member) out
  have apart : r ≠ t := fun same => out (same ▸ taken)
  have symmetric : Std.Symm fun a b => exclusiveOverlap a b = false :=
    ⟨fun a b clear => (exclusiveOverlap_comm b a).trans clear⟩
  have clear := List.Pairwise.forall feasible'.apart member (contains taken) apart
  rw [show exclusiveOverlap r t = true from overlap] at clear
  cases clear

end Solvers

/-- Soundness, optimality and independence of the order of arrival, for every budget. -/
theorem selection_correct (sorting : Sorting) (candidates : List AuthorityRequest)
    (view : ArbiterView) (nodeBudget : UInt64) (few : candidates.length ≤ Limits.maxCompetingClaims)
    (distinct : (candidates.map (·.claim)).Nodup) :
    let plan := selectAuthoritySet sorting candidates view nodeBudget
    let cutOff := (searched sorting candidates view (effectiveBudget nodeBudget)).budgetExhausted
    (∃ chosen, plan.Authorizes sorting view candidates chosen ∧
      (plan.optimalityProven = true → OptimalSet sorting view candidates chosen)) ∧
    plan.validated = true ∧ plan.outcome ≠ .invalid ∧
    plan.status.reason ≠ .internalInvariantViolation ∧
    (plan.optimalityProven = true ↔ cutOff = false) ∧
    (plan.outcome = .provenInfeasible ↔ cutOff = false ∧
      ∀ r ∈ candidates, (decideAuthority sorting r view.isolated).isAuthoritative = false) ∧
    ∀ arrival, arrival ~ candidates →
      selectAuthoritySet sorting arrival view nodeBudget = plan := by
  intro plan cutOff
  have arrivals : ∀ arrival, arrival ~ candidates →
      selectAuthoritySet sorting arrival view nodeBudget = plan :=
    fun arrival perm => selectAuthoritySet_arrival few distinct perm
  by_cases some : candidates = []
  · subst some
    have running : cutOff = false := searched_nil sorting view nodeBudget
    have same : plan = _ := selectAuthoritySet_nil sorting view nodeBudget
    rw [same]
    refine ⟨⟨[], AuthorityPlan.authorizes_nil rfl rfl, fun _ other within _ => ?_⟩, rfl,
      by decide, by decide, ⟨fun _ => running, fun _ => rfl⟩,
      ⟨fun _ => ⟨running, fun r member => absurd member List.not_mem_nil⟩, fun _ => rfl⟩,
      fun arrival perm => (arrivals arrival perm).trans same⟩
    rw [List.subperm_nil.mp within]
    exact ⟨le_refl _, fun _ => le_refl _⟩
  · have same : plan = planFrom sorting view (candidates.map (·.claim))
        (planned sorting candidates view (effectiveBudget nodeBudget)) :=
      selectAuthoritySet_eq some few distinct
    have cut : cutOff =
        (planned sorting candidates view (effectiveBudget nodeBudget)).exhausted := by
      rw [planned_eq distinct]
      rfl
    rw [same, cut]
    refine ⟨⟨_, planFrom_authorizes distinct, fun proven => ?_⟩, rfl, selectionOutcome_valid _ _,
      planStatus_reason _ _, ?_, ?_, fun arrival perm => (arrivals arrival perm).trans same⟩
    · exact planned_optimal distinct (by simpa [planFrom, planOf] using proven)
    · simp [planFrom, planOf]
    · refine selectionOutcome_infeasible_iff.trans ?_
      rw [Bool.not_eq_true']
      refine and_congr_right fun running => ?_
      rw [List.isEmpty_iff]
      exact planned_empty_iff running

/-- Two candidates whose scopes overlap, the preferred one last. -/
def soloPair : List AuthorityRequest := [soloRequest 98 120 1, soloRequest 97 120 2]

theorem soloPair_some : soloPair ≠ [] := List.cons_ne_nil _ _

theorem soloPair_claims : (soloPair.map (·.claim)).Nodup := by decide +kernel

theorem selection_correct_pair : ∃ chosen,
    (selectAuthoritySet {} soloPair (soloView []) 0).Authorizes {} (soloView []) soloPair chosen ∧
      OptimalSet {} (soloView []) soloPair chosen := by
  obtain ⟨⟨chosen, authorizes, optimal⟩, -, -, -, proven, -⟩ :=
    selection_correct {} soloPair (soloView []) 0 (by decide) soloPair_claims
  exact ⟨chosen, authorizes, optimal (proven.mpr (by decide +kernel))⟩

/-- The planner and the enumerator, each within its own budget. -/
theorem reference_agrees (sorting : Sorting) (candidates : List AuthorityRequest)
    (view : ArbiterView) (nodeBudget nodeBudget' : UInt64) (some : candidates ≠ [])
    (few : candidates.length ≤ 24)
    (distinct : (candidates.map (·.claim)).Nodup)
    (proven : (selectAuthoritySet sorting candidates view nodeBudget).optimalityProven = true)
    (proven' :
      (selectAuthoritySetReference sorting candidates view nodeBudget').optimalityProven = true) :
    let plan := selectAuthoritySet sorting candidates view nodeBudget
    let reference := selectAuthoritySetReference sorting candidates view nodeBudget'
    plan.outcome = reference.outcome ∧ plan.authorized = reference.authorized ∧
      plan.refused = reference.refused ∧ plan.mustFence = reference.mustFence := by
  have short : candidates.length ≤ Limits.maxCompetingClaims := few.trans (by decide)
  have plan := selectAuthoritySet_completes sorting view nodeBudget some short distinct
  obtain ⟨validated, reference⟩ := reference_completes sorting view nodeBudget' few
  rw [selectAuthoritySet_proven sorting view nodeBudget some short distinct,
    Bool.not_eq_true'] at proven
  rw [reference_proven sorting view nodeBudget' few, Bool.not_eq_true'] at proven'
  rw [plan, reference, searched_enumerated proven proven', proven, proven']
  exact ⟨rfl, rfl, rfl, rfl⟩

theorem reference_agrees_pair :
    (selectAuthoritySet {} soloPair (soloView []) 0).authorized =
      (selectAuthoritySetReference {} soloPair (soloView []) 0).authorized := by
  have proven :=
    selectAuthoritySet_proven {} (soloView []) 0 soloPair_some (by decide) soloPair_claims
  have proven' := reference_proven {} (soloView []) 0 (show soloPair.length ≤ 24 by decide)
  exact (reference_agrees {} soloPair (soloView []) 0 0 soloPair_some (by decide) soloPair_claims
    (proven.trans (by decide +kernel)) (proven'.trans (by decide +kernel))).2.1

/-- With a node for every candidate and one more, the first leaf is the greedy selection. -/
theorem truncated_not_worse (sorting : Sorting) (candidates : List AuthorityRequest)
    (view : ArbiterView) (nodeBudget : UInt64) (some : candidates ≠ [])
    (few : candidates.length ≤ Limits.maxCompetingClaims)
    (distinct : (candidates.map (·.claim)).Nodup)
    (enough : candidates.length + 1 ≤ nodeBudget.toNat) :
    let greedy := selectAuthoritySetGreedy sorting candidates view
    greedy.1.length ≤ (selectAuthoritySet sorting candidates view nodeBudget).authorized.length ∧
    ∃ chosen, chosen <+~ candidates ∧ FeasibleSet sorting view chosen ∧
      greedy.1 = chosen.map (·.claim) ∧
      greedy.2 = chosen.map (fun r => decideAuthority sorting r view.isolated) ∧
      ∀ other, other <+~ candidates → FeasibleSet sorting view other → chosen ⊆ other →
        other ⊆ chosen := by
  obtain ⟨within, feasible, maximal⟩ := greedy_maximal sorting candidates view
  rw [greedy_eq distinct, selectAuthoritySet_eq some few distinct]
  refine ⟨?_, _, within, feasible, rfl, rfl, maximal⟩
  have asked : effectiveBudget nodeBudget = nodeBudget := by
    refine if_neg fun none => ?_
    rw [none] at enough
    exact absurd enough (Nat.not_succ_le_zero _)
  have least := (requestPuzzle sorting candidates view).greedy_le_search (ranked candidates) []
    (m := nodeMeter nodeBudget) ⟨0, false, []⟩ rfl (le_refl _) fun k below =>
      nodeMeter_within enough (below.trans (ranked_perm candidates).length_eq.le)
  rw [asked, List.length_map]
  exact least.trans (List.length_map _).ge

theorem truncated_not_worse_pair :
    (selectAuthoritySetGreedy {} soloPair (soloView [])).1.length ≤
      (selectAuthoritySet {} soloPair (soloView []) 3).authorized.length :=
  (truncated_not_worse {} soloPair (soloView []) 3 soloPair_some (by decide) soloPair_claims
    (by decide)).1

end SplitBrainFabric
