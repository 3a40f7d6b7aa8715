import SplitBrainFabric.Audit
import SplitBrainFabric.Grounds

/-! The audit of the registry itself: the tables, the grants one after another, every pair
of open grants, and the marks under each of them. -/

namespace SplitBrainFabric
open Words

structure HighestEpoch where
  domain : DomainId
  epoch : Epoch

/-- What the pass over the grants carries along. -/
structure GrantAudit where
  report : AuditReport
  byId : List GrantId := []
  highest : SortedTable HighestEpoch.domain := SortedTable.empty

namespace RegistryAudit

/-- The finding of a table that does not validate. -/
def checkTable (valid : Except Status Unit) (subject : Bytes) (report : AuditReport) : AuditReport :=
  let report :=
    match valid with
    | .ok _ => report
    | .error st => report.addFinding .corrupt st.reason subject (.status st)
  { report with checksRun := report.checksRun + 1 }

/-- `fence-table` -/
def fenceTable : Bytes := [102, 101, 110, 99, 101, 45, 116, 97, 98, 108, 101]

/-- `lineage` -/
def lineageTable : Bytes := [108, 105, 110, 101, 97, 103, 101]

def topEpoch (highest : SortedTable HighestEpoch.domain) (domain : DomainId) : Epoch :=
  ((highest.find domain).map (·.epoch)).getD 0

def checkId (byId : List GrantId) (g : EpochGrant) (report : AuditReport) : AuditReport :=
  if g.id ∈ byId then
    report.addFinding .corrupt .duplicateEntry (hexU64 g.id) (.text "duplicate grant id")
  else report

def checkEpoch (top : Epoch) (g : EpochGrant) (report : AuditReport) : AuditReport :=
  if g.epoch < top then
    { report with epochRegressions := report.epochRegressions + 1 }.addFinding .stale
      .epochRegression g.domain.value (.text "grant epoch went backwards for this domain")
  else report

def checkOwner (fences : FenceTable) (g : EpochGrant) (report : AuditReport) : AuditReport :=
  if g.isOpen then
    let report := { report with openGrants := report.openGrants + 1 }
    if fences.incarnationFenced g.incarnation then
      { report with uninterruptibleGrants := report.uninterruptibleGrants + 1 }.addFinding .fenced
        .incarnationFenced g.domain.value
        (.text "an open grant belongs to an incarnation that is already fenced")
    else report
  else report

def auditGrant (fences : FenceTable) (a : GrantAudit) (g : EpochGrant) : GrantAudit :=
  let report := { a.report with checksRun := a.report.checksRun + 1 }
  let top := topEpoch a.highest g.domain
  { report := checkOwner fences g (checkEpoch top g (checkId a.byId g report))
    byId := g.id :: a.byId
    highest := a.highest.put ⟨g.domain, max top g.epoch⟩ }

def checkPair (g : EpochGrant) (report : AuditReport) (o : EpochGrant) : AuditReport :=
  let report := { report with checksRun := report.checksRun + 1 }
  if g.extents.overlaps o.extents = false then report
  else if g.incarnation = o.incarnation then report
  else
    { report with duplicateExclusiveGrants := report.duplicateExclusiveGrants + 1 }.addFinding
      .conflict .overlappingExclusiveClaim g.domain.value
      (.text "two open grants claim overlapping extents for different incarnations")

/-- Every pair of open grants, each with those behind it. -/
def checkPairs : List EpochGrant → AuditReport → AuditReport
  | [], report => report
  | g :: rest, report => checkPairs rest (rest.foldl (checkPair g) report)

def checkMark (fences : FenceTable) (g : EpochGrant) (report : AuditReport) (e : ExtentId) :
    AuditReport :=
  if g.fenceToken < fences.highWater e then
    report.addFinding .fenced .tokenFloorRejected e.value
      (.text "an open grant sits below the durable fence high-water mark")
  else report

def checkMarks (fences : FenceTable) (report : AuditReport) (g : EpochGrant) : AuditReport :=
  g.extents.extents.foldl (checkMark fences g) { report with checksRun := report.checksRun + 1 }

end RegistryAudit

open RegistryAudit

def auditRegistryState (state : RegistryState) : AuditReport :=
  let open' := state.lineage.grants.filter (·.isOpen)
  let report := checkTable state.fences.validate fenceTable {}
  let report := checkTable state.lineage.validate lineageTable report
  let start : GrantAudit := { report := { report with grants := state.lineage.grants.length } }
  let report := (state.lineage.grants.foldl (auditGrant state.fences) start).report
  let report := checkPairs open' report
  let report := open'.foldl (checkMarks state.fences) report
  { report with
    mutuallyExclusiveEffectHistory := report.duplicateExclusiveGrants = 0 ∧
      report.epochRegressions = 0 ∧ report.uninterruptibleGrants = 0
    status :=
      if ¬ report.findings.isEmpty ∧ report.status.isOk then
        .make report.outcome .internalInvariantViolation (UInt64.ofNat report.findingsTotal)
      else report.status }

namespace RegistryAudit

/-- What the audit asks of a registry. -/
structure Passes (fences : FenceTable) (lineage : LineageTable) : Prop where
  fenceTable : fences.validate = .ok ()
  lineageTable : lineage.validate = .ok ()
  distinct : (lineage.grants.map (·.id)).Nodup
  epochs : lineage.grants.Pairwise fun g o => g.domain = o.domain → g.epoch ≤ o.epoch
  owners : ∀ g ∈ lineage.grants, g.isOpen = true → fences.incarnationFenced g.incarnation = false
  apart : (lineage.grants.filter (·.isOpen)).Pairwise fun g o =>
    g.extents.overlaps o.extents = true → g.incarnation = o.incarnation
  marks : ∀ g ∈ lineage.grants, g.isOpen = true → ∀ e ∈ g.extents.extents,
    fences.highWater e ≤ g.fenceToken

/-- A check that adds a finding unless the condition holds. -/
structure Checks (holds : Prop) (report report' : AuditReport) : Prop where
  total : report'.findingsTotal = 0 ↔ report.findingsTotal = 0 ∧ holds
  listed : report.Listed → report'.Listed

namespace Checks

variable {p q : Prop} {first second third : AuditReport}

theorem trans (left : Checks p first second) (right : Checks q second third) :
    Checks (p ∧ q) first third where
  total := by rw [right.total, left.total, and_assoc]
  listed := right.listed ∘ left.listed

theorem of_iff (same : p ↔ q) (checks : Checks p first second) : Checks q first second :=
  ⟨by rw [checks.total, same], checks.listed⟩

/-- Counting something else. -/
theorem counted (total : second.findingsTotal = first.findingsTotal)
    (findings : second.findings = first.findings) : Checks True first second :=
  ⟨by rw [total, and_true], fun listed => by
    unfold AuditReport.Listed at listed ⊢
    rw [findings, total, listed]⟩

theorem passed (holds : p) (total : second.findingsTotal = first.findingsTotal)
    (findings : second.findings = first.findings) : Checks p first second :=
  (counted total findings).of_iff (iff_of_true trivial holds)

/-- A finding, after counting something else. -/
theorem failed (fails : ¬ p) {outcome : Outcome} {reason : Reason} {subject : Bytes}
    {detail : AuditDetail} (total : second.findingsTotal = first.findingsTotal)
    (findings : second.findings = first.findings) :
    Checks p first (second.addFinding outcome reason subject detail) where
  total := by simp [fails]
  listed listed := by
    have before := (counted total findings).listed listed
    exact before.addFinding outcome reason subject detail

theorem none (report : AuditReport) : Checks True report report := counted rfl rfl

/-- One element after another. -/
theorem foldl {α : Type} {step : AuditReport → α → AuditReport} {holds : α → Prop}
    (each : ∀ report a, Checks (holds a) report (step report a)) (l : List α)
    (report : AuditReport) : Checks (∀ a ∈ l, holds a) report (l.foldl step report) := by
  induction l generalizing report with
  | nil => exact (none report).of_iff (by simp)
  | cons a rest ih => exact ((each report a).trans (ih _)).of_iff (by simp)

end Checks

variable {fences : FenceTable} {g o : EpochGrant} {report : AuditReport}

theorem checkTable_checks (valid : Except Status Unit) (subject : Bytes) :
    Checks (valid = .ok ()) report (checkTable valid subject report) := by
  unfold checkTable
  cases valid with
  | ok u => exact .passed rfl rfl rfl
  | error st =>
    have bad : ¬ (Except.error st : Except Status Unit) = .ok () := fun same => by cases same
    have found : Checks (Except.error st = .ok ()) report
        (report.addFinding .corrupt st.reason subject (.status st)) := .failed bad rfl rfl
    refine Checks.of_iff ⟨And.left, fun same => ⟨same, trivial⟩⟩ (found.trans ?_)
    exact .counted rfl rfl

theorem checkId_checks (byId : List GrantId) :
    Checks (g.id ∉ byId) report (checkId byId g report) := by
  unfold checkId
  split
  · rename_i known
    exact .failed (not_not.mpr known) rfl rfl
  · rename_i fresh
    exact .passed fresh rfl rfl

theorem checkEpoch_checks (top : Epoch) :
    Checks (top ≤ g.epoch) report (checkEpoch top g report) := by
  unfold checkEpoch
  split
  · rename_i behind
    exact .failed (not_le.mpr behind) rfl rfl
  · rename_i ahead
    exact .passed (not_lt.mp ahead) rfl rfl

theorem checkOwner_checks : Checks (g.isOpen = true → fences.incarnationFenced g.incarnation = false)
    report (checkOwner fences g report) := by
  unfold checkOwner
  by_cases active : g.isOpen = true
  · by_cases fenced : fences.incarnationFenced g.incarnation = true
    · simp only [if_pos active, if_pos fenced]
      exact .failed (fun free => by rw [free active] at fenced; cases fenced) rfl rfl
    · simp only [if_pos active, if_neg fenced]
      exact .passed (fun _ => by simpa using fenced) rfl rfl
  · simp only [if_neg active]
    exact .passed (fun isOpen => absurd isOpen active) rfl rfl

theorem checkPair_checks : Checks (g.extents.overlaps o.extents = true →
    g.incarnation = o.incarnation) report (checkPair g report o) := by
  unfold checkPair
  by_cases apart : g.extents.overlaps o.extents = false
  · simp only [if_pos apart]
    exact .passed (fun touching => by rw [apart] at touching; cases touching) rfl rfl
  · by_cases same : g.incarnation = o.incarnation
    · simp only [if_neg apart, if_pos same]
      exact .passed (fun _ => same) rfl rfl
    · simp only [if_neg apart, if_neg same]
      exact .failed (fun one => same (one (by simpa using apart))) rfl rfl

theorem checkPairs_checks (l : List EpochGrant) :
    Checks (l.Pairwise fun g o => g.extents.overlaps o.extents = true →
      g.incarnation = o.incarnation) report (checkPairs l report) := by
  induction l generalizing report with
  | nil => exact (Checks.none report).of_iff (by simp)
  | cons g rest ih =>
    have first := Checks.foldl (fun report o => @checkPair_checks g o report) rest report
    exact (first.trans ih).of_iff List.pairwise_cons.symm

theorem checkMarks_checks : Checks (∀ e ∈ g.extents.extents, fences.highWater e ≤ g.fenceToken)
    report (checkMarks fences report g) := by
  have each : ∀ report e, Checks (fences.highWater e ≤ g.fenceToken) report
      (checkMark fences g report e) := by
    intro report e
    unfold checkMark
    split
    · rename_i above
      exact .failed (not_le.mpr above) rfl rfl
    · rename_i below
      exact .passed (not_lt.mp below) rfl rfl
  have counted : Checks True report { report with checksRun := report.checksRun + 1 } :=
    .counted rfl rfl
  exact (counted.trans (Checks.foldl each g.extents.extents _)).of_iff (by simp)

section Grants

/-- The pass over the grants, from a report on. -/
def auditGrants (fences : FenceTable) (start : AuditReport) (grants : List EpochGrant) : GrantAudit :=
  grants.foldl (auditGrant fences) { report := start }

theorem auditGrants_append (start : AuditReport) (grants : List EpochGrant) :
    auditGrants fences start (grants ++ [g]) =
      auditGrant fences (auditGrants fences start grants) g := by
  simp [auditGrants]

theorem auditGrants_byId (start : AuditReport) (grants : List EpochGrant) (id : GrantId) :
    id ∈ (auditGrants fences start grants).byId ↔ id ∈ grants.map (·.id) := by
  induction grants using List.reverseRecOn with
  | nil => rfl
  | append_singleton grants g ih => simp [auditGrants_append, auditGrant, ih, or_comm]

/-- The epoch kept for a domain is the highest one seen there. -/
theorem auditGrants_top (start : AuditReport) (grants : List EpochGrant) (d : DomainId)
    (epoch : Epoch) : topEpoch (auditGrants fences start grants).highest d ≤ epoch ↔
      ∀ g ∈ grants, g.domain = d → g.epoch ≤ epoch := by
  induction grants using List.reverseRecOn with
  | nil =>
    have none : topEpoch (auditGrants fences start []).highest d = 0 := rfl
    simp [none, UInt64.zero_le]
  | append_singleton grants g ih =>
    have put : topEpoch (auditGrants fences start (grants ++ [g])).highest d =
        if g.domain = d then
          max (topEpoch (auditGrants fences start grants).highest d) g.epoch
        else topEpoch (auditGrants fences start grants).highest d := by
      rw [auditGrants_append, auditGrant, topEpoch, SortedTable.find_put]
      by_cases here : g.domain = d
      · subst here
        simp
      · simp only [if_neg here]
        rfl
    rw [put]
    by_cases here : g.domain = d
    · simp [here, ih, or_imp, forall_and]
    · simp [here, ih, or_imp, forall_and]

theorem auditGrants_checks (start : AuditReport) (grants : List EpochGrant) :
    Checks ((grants.map (·.id)).Nodup ∧
      (grants.Pairwise fun g o => g.domain = o.domain → g.epoch ≤ o.epoch) ∧
      ∀ g ∈ grants, g.isOpen = true → fences.incarnationFenced g.incarnation = false)
      start (auditGrants fences start grants).report := by
  induction grants using List.reverseRecOn with
  | nil => exact (Checks.none start).of_iff (by simp)
  | append_singleton grants g ih =>
    rw [auditGrants_append]
    have counted : Checks True (auditGrants fences start grants).report
        { (auditGrants fences start grants).report with
          checksRun := (auditGrants fences start grants).report.checksRun + 1 } :=
      .counted rfl rfl
    have one := ((counted.trans (checkId_checks (g := g)
      (auditGrants fences start grants).byId)).trans (checkEpoch_checks (g := g)
      (topEpoch (auditGrants fences start grants).highest g.domain))).trans
      (@checkOwner_checks fences g _)
    refine (ih.trans one).of_iff ?_
    rw [auditGrants_byId, auditGrants_top]
    simp only [List.map_append, List.map_cons, List.map_nil, List.nodup_append, List.pairwise_append,
      List.mem_append, List.mem_singleton, List.nodup_singleton, List.pairwise_singleton,
      true_and, forall_eq, or_imp, forall_and]
    constructor
    · rintro ⟨⟨distinct, epochs, owners⟩, ⟨fresh, ahead⟩, owner⟩
      exact ⟨⟨distinct, fun a inside same => fresh (same ▸ inside)⟩,
        ⟨epochs, fun a inside same => ahead a inside same⟩, owners, owner⟩
    · rintro ⟨⟨distinct, fresh⟩, ⟨epochs, ahead⟩, owners, owner⟩
      exact ⟨⟨distinct, epochs, owners⟩, ⟨fun inside => fresh _ inside rfl,
        fun a inside same => ahead a inside same⟩, owner⟩

end Grants

/-- The report in full, but for the two fields set at its end. -/
theorem auditRegistryState_checks (state : RegistryState) :
    Checks (Passes state.fences state.lineage) {} (auditRegistryState state) := by
  have tables := (@checkTable_checks {} state.fences.validate RegistryAudit.fenceTable).trans
    (checkTable_checks state.lineage.validate RegistryAudit.lineageTable)
  have counted : ∀ report : AuditReport, Checks True report
      { report with grants := state.lineage.grants.length } := fun _ => .counted rfl rfl
  have grants := (tables.trans (counted _)).trans
    (@auditGrants_checks state.fences _ state.lineage.grants)
  have pairs := grants.trans (checkPairs_checks (state.lineage.grants.filter (·.isOpen)))
  have marks := pairs.trans (Checks.foldl (fun report g => @checkMarks_checks state.fences g report)
    (state.lineage.grants.filter (·.isOpen)) _)
  have ended : ∀ report : AuditReport, (auditRegistryState state).findingsTotal =
      report.findingsTotal → (auditRegistryState state).findings = report.findings →
      Checks True report (auditRegistryState state) := fun _ total findings => .counted total findings
  refine (marks.trans (ended _ rfl rfl)).of_iff ?_
  simp only [and_true, List.mem_filter, and_imp]
  constructor
  · rintro ⟨⟨⟨⟨fenceTable, lineageTable⟩, distinct, epochs, owners⟩, apart⟩, marks⟩
    exact ⟨fenceTable, lineageTable, distinct, epochs, owners, apart, marks⟩
  · rintro ⟨fenceTable, lineageTable, distinct, epochs, owners, apart, marks⟩
    exact ⟨⟨⟨⟨fenceTable, lineageTable⟩, distinct, epochs, owners⟩, apart⟩, marks⟩

/-- The audit finds nothing exactly in a registry that passes. -/
theorem passes_iff (state : RegistryState) :
    (auditRegistryState state).findingsTotal = 0 ↔ Passes state.fences state.lineage := by
  rw [(auditRegistryState_checks state).total]
  exact ⟨And.right, fun passes => ⟨rfl, passes⟩⟩

theorem passes_iff_empty (state : RegistryState) :
    (auditRegistryState state).findings = [] ↔ Passes state.fences state.lineage := by
  rw [← passes_iff]
  exact ((auditRegistryState_checks state).listed rfl).empty_iff

end RegistryAudit
end SplitBrainFabric
