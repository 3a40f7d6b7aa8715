import SplitBrainFabric.Payloads

/-! Authority plans: the branch and bound planner, the exhaustive reference enumerator and
the greedy heuristic, with the validator that every plan passes through. Candidates are
named by their position in the list they arrive in. -/

namespace SplitBrainFabric

namespace Limits

def maxSearchNodes : UInt64 := 200000

end Limits

def ArbiterView.isolated (view : ArbiterView) : ArbiterView := { view with competing := [] }

def preferenceLess (a b : AuthorityRequest) : Bool :=
  if a.epoch ≠ b.epoch then decide (b.epoch < a.epoch)
  else if a.presentedFenceToken ≠ b.presentedFenceToken then
    decide (b.presentedFenceToken < a.presentedFenceToken)
  else if a.domain ≠ b.domain then decide (a.domain < b.domain)
  else decide (a.claim < b.claim)

def exclusiveOverlap (a b : AuthorityRequest) : Bool :=
  if a.mode ≠ .exclusiveMutation ∨ b.mode ≠ .exclusiveMutation then false
  else a.scope.overlaps b.scope

structure SearchState where
  legal : List Bool := []
  conflict : List (List Bool) := []
  order : List Nat := []
  rankOf : List Nat := []
  budget : UInt64 := 0
  nodes : UInt64 := 0
  budgetExhausted : Bool := false
  best : List Nat := []

namespace SearchState

def isLegal (state : SearchState) (candidate : Nat) : Bool := state.legal.getD candidate false

def conflicts (state : SearchState) (a b : Nat) : Bool := (state.conflict.getD a []).getD b false

def rank (state : SearchState) (candidate : Nat) : Nat := state.rankOf.getD candidate 0

end SearchState

/-- The first position at which the ranks differ decides. -/
def earlierRanks (rank : Nat → Nat) : List Nat → List Nat → Bool
  | candidate :: rest, incumbent :: rest' =>
    if rank candidate ≠ rank incumbent then decide (rank candidate < rank incumbent)
    else earlierRanks rank rest rest'
  | _, _ => false

def betterSelection (candidate incumbent : List Nat) (rank : Nat → Nat) : Bool :=
  if candidate.length ≠ incumbent.length then decide (incumbent.length < candidate.length)
  else earlierRanks rank candidate incumbent

def compatible (state : SearchState) (chosen : List Nat) (candidate : Nat) : Bool :=
  if state.isLegal candidate = false then false
  else !chosen.any fun taken => state.conflicts candidate taken

/-- The position is given by what remains of `order` from it on. -/
def search (remaining chosen : List Nat) (state : SearchState) : SearchState :=
  if state.budgetExhausted then state
  else
    let state := { state with nodes := state.nodes + 1 }
    if state.budget < state.nodes then { state with budgetExhausted := true }
    else
      match remaining with
      | [] =>
        if betterSelection chosen state.best state.rank then { state with best := chosen }
        else state
      | candidate :: rest =>
        -- an equally large subset is still explored, for the sake of the tie-break
        let state :=
          if state.best.length ≤ chosen.length + (rest.length + 1) ∧
              compatible state chosen candidate = true then
            search rest (chosen ++ [candidate]) state
          else state
        search rest chosen state

inductive SelectionOutcome where
  | provenOptimal | provenInfeasible | searchLimitReached | indeterminate | invalid
  deriving DecidableEq

structure AuthorityPlan where
  outcome : SelectionOutcome := .indeterminate
  status : Status := .ok
  authorized : List AuthorityDecision := []
  refused : List ClaimId := []
  mustFence : List ClaimId := []
  nodesExplored : UInt64 := 0
  optimalityProven : Bool := false
  validated : Bool := false
  deriving DecidableEq

def planStatus (outcome : SelectionOutcome) (nodes : UInt64) : Status :=
  match outcome with
  | .provenOptimal => .ok
  | .provenInfeasible => .make .ok .provenInfeasible 0
  | .searchLimitReached => .make .searchLimitReached .searchLimitReached nodes
  | .indeterminate => .make .indeterminate .noCertificate nodes
  | .invalid => .make .invalid .planInvalid nodes

def candidateAt (candidates : List AuthorityRequest) (index : Nat) : AuthorityRequest :=
  candidates.getD index {}

def buildPlan (candidates : List AuthorityRequest) (decisions : List AuthorityDecision)
    (ranks : List Nat) (outcome : SelectionOutcome) (nodes : UInt64) (proven : Bool) :
    AuthorityPlan :=
  let authorized := ranks.map fun index => decisions.getD index {}
  let unselected := (List.range candidates.length).filter fun i => !ranks.contains i
  let refused := unselected.map fun i => (candidateAt candidates i).claim
  let mustFence := (authorized.flatMap (·.mustFence)).foldl
    (fun fenced claim => if fenced.contains claim then fenced else fenced ++ [claim]) []
  { outcome := outcome
    status := planStatus outcome nodes
    authorized := authorized
    refused := refused.insertionSort (· ≤ ·)
    mustFence := mustFence.insertionSort (· ≤ ·)
    nodesExplored := nodes
    optimalityProven := proven }

def isolatedDecisions (sorting : Sorting) (candidates : List AuthorityRequest)
    (view : ArbiterView) : List AuthorityDecision :=
  candidates.map fun candidate => decideAuthority sorting candidate view.isolated

/-- The upper triangle of the table is computed and mirrored; the diagonal stays clear. -/
def conflictTable (candidates : List AuthorityRequest) : List (List Bool) :=
  (List.range candidates.length).map fun i => (List.range candidates.length).map fun j =>
    if i < j then exclusiveOverlap (candidateAt candidates i) (candidateAt candidates j)
    else if j < i then exclusiveOverlap (candidateAt candidates j) (candidateAt candidates i)
    else false

/-- The stable sort of the positions: one goes behind another only if that is preferred. -/
def preferenceOrder (candidates : List AuthorityRequest) : List Nat :=
  (List.range candidates.length).insertionSort fun a b =>
    preferenceLess (candidateAt candidates b) (candidateAt candidates a) = false

def prepare (sorting : Sorting) (candidates : List AuthorityRequest) (view : ArbiterView)
    (nodeBudget : UInt64) : SearchState where
  budget := nodeBudget
  order := preferenceOrder candidates
  rankOf := (List.range candidates.length).map fun i => (preferenceOrder candidates).idxOf i
  legal := (isolatedDecisions sorting candidates view).map (·.isAuthoritative)
  conflict := conflictTable candidates

/-- Every decision of the plan belongs to a candidate, is granted again, and alike. -/
def recheckDecisions (sorting : Sorting) (candidates : List AuthorityRequest)
    (isolated : ArbiterView) : List AuthorityDecision → Except Status (List AuthorityRequest)
  | [] => .ok []
  | decision :: rest =>
    match candidates.find? fun candidate => candidate.claim = decision.claim with
    | none => .error (.make .invalid .planInvalid)
    | some candidate =>
      let recheck := decideAuthority sorting candidate isolated
      if recheck.isAuthoritative = false then
        .error (.make .invalid .planInvalid recheck.status.aux)
      else if recheck.digest ≠ decision.digest then
        .error (.make .corrupt .internalInvariantViolation)
      else
        match recheckDecisions sorting candidates isolated rest with
        | .error failed => .error failed
        | .ok selected => .ok (candidate :: selected)

/-- The later position of the first overlapping pair, counting the head as `i`. -/
def overlapFrom (i : Nat) : List AuthorityRequest → Option Nat
  | [] => none
  | request :: rest =>
    match rest.findIdx? (exclusiveOverlap request) with
    | some k => some (i + 1 + k)
    | none => overlapFrom (i + 1) rest

def validatePlan (sorting : Sorting) (plan : AuthorityPlan) (candidates : List AuthorityRequest)
    (view : ArbiterView) : Status :=
  match recheckDecisions sorting candidates view.isolated plan.authorized with
  | .error failed => failed
  | .ok selected =>
    match overlapFrom 0 selected with
    | some j => .make .conflict .overlappingExclusiveClaim (UInt64.ofNat j)
    | none => .ok

def selectionOutcome (complete empty : Bool) : SelectionOutcome :=
  if complete then if empty then .provenInfeasible else .provenOptimal
  else if empty then .indeterminate else .searchLimitReached

/-- What both solvers make of the best selection they found. -/
def completePlan (sorting : Sorting) (candidates : List AuthorityRequest) (view : ArbiterView)
    (best : List Nat) (nodes : UInt64) (complete : Bool) : AuthorityPlan :=
  let plan := buildPlan candidates (isolatedDecisions sorting candidates view) best
    (selectionOutcome complete best.isEmpty) nodes complete
  { plan with status := { plan.status with aux := nodes } }

/-- Asking for no budget asks for the largest one. -/
def effectiveBudget (nodeBudget : UInt64) : UInt64 :=
  if nodeBudget = 0 then Limits.maxSearchNodes else nodeBudget

def selectAuthoritySet (sorting : Sorting) (candidates : List AuthorityRequest) (view : ArbiterView)
    (nodeBudget : UInt64) : AuthorityPlan :=
  if candidates.isEmpty then
    { outcome := .provenInfeasible, optimalityProven := true
      status := .make .ok .provenInfeasible 0, validated := true }
  else if Limits.maxCompetingClaims < candidates.length then
    { outcome := .invalid
      status := .make .exhausted .boundedTableFull (UInt64.ofNat candidates.length) }
  else
    let prepared := prepare sorting candidates view (effectiveBudget nodeBudget)
    let state := search prepared.order [] prepared
    let plan := completePlan sorting candidates view state.best state.nodes (!state.budgetExhausted)
    let plan := { plan with validated := (validatePlan sorting plan candidates view).isOk }
    if plan.validated = false then
      { plan with
        authorized := []
        outcome := .invalid
        optimalityProven := false
        status := .make .corrupt .internalInvariantViolation state.nodes }
    else plan

/-- What the loop over the bit masks carries. -/
structure Enumeration where
  best : List Nat := []
  nodes : UInt64 := 0
  exhausted : Bool := false

/-- The candidates of a mask, unless one is illegal or conflicts with an earlier one. -/
def selectMask (state : SearchState) : List Nat → List Nat → Option (List Nat)
  | [], selection => some selection
  | i :: rest, selection =>
    if state.isLegal i = false then none
    else if selection.any fun chosen => state.conflicts i chosen then none
    else selectMask state rest (selection ++ [i])

def enumerate (state : SearchState) (n : Nat) : List Nat → Enumeration → Enumeration
  | [], e => e
  | mask :: rest, e =>
    let e := { e with nodes := e.nodes + 1 }
    if state.budget < e.nodes then { e with exhausted := true }
    else
      match selectMask state ((List.range n).filter mask.testBit) [] with
      | none => enumerate state n rest e
      | some selection =>
        let selection := selection.insertionSort fun a b => state.rank a ≤ state.rank b
        enumerate state n rest
          (if betterSelection selection e.best state.rank then { e with best := selection } else e)

def selectAuthoritySetReference (sorting : Sorting) (candidates : List AuthorityRequest)
    (view : ArbiterView) (nodeBudget : UInt64) : AuthorityPlan :=
  let n := candidates.length
  if 24 < n then
    { outcome := .invalid, status := .make .exhausted .boundedTableFull (UInt64.ofNat n) }
  else
    let state := prepare sorting candidates view (effectiveBudget nodeBudget)
    let e := enumerate state n (List.range (2 ^ n)) {}
    let plan := completePlan sorting candidates view e.best e.nodes (!e.exhausted)
    { plan with validated := (validatePlan sorting plan candidates view).isOk }

def greedySelection (state : SearchState) : List Nat → List Nat → List Nat
  | [], chosen => chosen
  | candidate :: rest, chosen =>
    if state.isLegal candidate = false then greedySelection state rest chosen
    else if chosen.any fun taken => state.conflicts candidate taken then
      greedySelection state rest chosen
    else greedySelection state rest (chosen ++ [candidate])

/-- The claims selected, and their decisions. -/
def selectAuthoritySetGreedy (sorting : Sorting) (candidates : List AuthorityRequest)
    (view : ArbiterView) : List ClaimId × List AuthorityDecision :=
  let state := prepare sorting candidates view Limits.maxSearchNodes
  let chosen := greedySelection state state.order []
  (chosen.map fun index => (candidateAt candidates index).claim,
    chosen.map fun index => (isolatedDecisions sorting candidates view).getD index {})

end SplitBrainFabric
