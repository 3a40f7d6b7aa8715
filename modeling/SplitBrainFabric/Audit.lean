import Mathlib.Algebra.GroupWithZero.Nat
import SplitBrainFabric.EffectBoundary
import SplitBrainFabric.Operations

/-! The audit of the effect log. It compares a record only with the last writer of each
of its extents; what it accepts is lawful for every pair of records. -/

namespace SplitBrainFabric
open Words

def maxAuditFindings : Nat := 256

/-- The text of a finding: fixed, or the rendering of a status. -/
inductive AuditDetail where
  | text (detail : String)
  | status (st : Status)
  deriving DecidableEq

structure AuditFinding where
  outcome : Outcome
  reason : Reason
  subject : Bytes
  detail : AuditDetail
  deriving DecidableEq

/-- The counters are plain numbers: no vector of records is long enough to wrap them. -/
structure AuditReport where
  status : Status := .ok
  outcome : Outcome := .ok
  checksRun : Nat := 0
  findingsTotal : Nat := 0
  findings : List AuditFinding := []
  findingsDropped : Nat := 0
  mutations : Nat := 0
  ownershipTransitions : Nat := 0
  distinctOwners : Nat := 0
  tokenRegressions : Nat := 0
  foreignOwnerAppends : Nat := 0
  fenceEscapes : Nat := 0
  sequenceGaps : Nat := 0
  mutuallyExclusiveEffectHistory : Bool := false
  headDigest : Digest256 := Digest256.zero
  grants : Nat := 0
  openGrants : Nat := 0
  epochRegressions : Nat := 0
  duplicateExclusiveGrants : Nat := 0
  uninterruptibleGrants : Nat := 0
  deriving DecidableEq

namespace AuditReport

/-- One finding more, which also sets the outcome of the report. -/
def addFinding (outcome : Outcome) (reason : Reason) (subject : Bytes) (detail : AuditDetail)
    (report : AuditReport) : AuditReport :=
  if maxAuditFindings ≤ report.findings.length then
    { report with
      outcome := outcome
      findingsTotal := report.findingsTotal + 1
      findingsDropped := report.findingsDropped + 1 }
  else
    { report with
      outcome := outcome
      findingsTotal := report.findingsTotal + 1
      findings := report.findings ++ [⟨outcome, reason, subject, detail⟩] }

end AuditReport

/-- The succession order: epoch, then token, then grant. -/
def successionPrecedes (earlier later : MutationRecord) : Bool :=
  if earlier.epoch ≠ later.epoch then earlier.epoch < later.epoch
  else if earlier.fenceToken ≠ later.fenceToken then earlier.fenceToken < later.fenceToken
  else earlier.grant < later.grant

structure LastWrite where
  extent : ExtentId
  record : MutationRecord

abbrev LastWrites := SortedTable LastWrite.extent

/-- What the auditor carries from one record to the next. -/
structure FabricAudit where
  report : AuditReport := {}
  chain : Bytes := []
  owner : LastWrites := SortedTable.empty
  owners : List Bytes := []
  expectedSequence : Sequence := 1
  previous : Option MutationRecord := none

namespace FabricAudit

def checkSequence (r : MutationRecord) (expected : Sequence) (report : AuditReport) : AuditReport :=
  if r.storeSequence ≠ expected then
    { report with sequenceGaps := report.sequenceGaps + 1 }.addFinding .corrupt
      .sequenceRegression (hexU64 r.storeSequence) (.text "fabric log sequence is not contiguous")
  else report

def checkDigest (r : MutationRecord) (report : AuditReport) : AuditReport :=
  if r.computeRecordDigest ≠ r.recordDigest then
    report.addFinding .corrupt .integrityMismatch (hexU64 r.storeSequence)
      (.text "mutation record digest does not match its contents")
  else report

/-- A record against the last writer of one of its extents. -/
def checkPrior (r : MutationRecord) (extent : ExtentId) (prior : MutationRecord)
    (report : AuditReport) : AuditReport :=
  let report :=
    if r.fenceToken < prior.fenceToken then
      { report with tokenRegressions := report.tokenRegressions + 1 }.addFinding .fenced
        .tokenFloorRejected extent.value
        (.text "a mutation was appended under a token below the durable high-water mark")
    else if prior.fenceToken = r.fenceToken ∧ prior.incarnation ≠ r.incarnation then
      { report with foreignOwnerAppends := report.foreignOwnerAppends + 1 }.addFinding .conflict
        .storeOwnerMismatch extent.value
        (.text "two incarnations appended under the same fence token")
    else if prior.incarnation ≠ r.incarnation ∧ successionPrecedes r prior = true then
      { report with fenceEscapes := report.fenceEscapes + 1 }.addFinding .fenced
        .epochRegression extent.value (.text "authority succession went backwards for this extent")
    else report
  if prior.incarnation ≠ r.incarnation ∧ prior.fenceToken ≠ r.fenceToken then
    { report with ownershipTransitions := report.ownershipTransitions + 1 }
  else report

def checkExtent (r : MutationRecord) (owner : LastWrites) (report : AuditReport)
    (extent : ExtentId) : AuditReport :=
  match owner.find extent with
  | none => report
  | some prior => checkPrior r extent prior.record report

/-- A record against the one right before it. -/
def checkSuccession (r : MutationRecord) (previous : Option MutationRecord)
    (report : AuditReport) : AuditReport :=
  match previous with
  | none => report
  | some previous =>
    if previous.incarnation ≠ r.incarnation ∧
        (r.scope.extents.any previous.scope.containsExtent && successionPrecedes r previous) = true
    then
      { report with fenceEscapes := report.fenceEscapes + 1 }.addFinding .fenced .epochRegression
        (hexU64 r.storeSequence) (.text "a fenced authority resumed after its successor committed")
    else report

def ownerKey (r : MutationRecord) : Bytes :=
  r.domain.value ++ [47] ++ hexU64 r.incarnation ++ [47] ++ hexU64 r.fenceToken

def countOwner (r : MutationRecord) (owners : List Bytes) (report : AuditReport) : AuditReport :=
  if ownerKey r ∈ owners then report
  else { report with distinctOwners := report.distinctOwners + 1 }

def auditRecord (s : FabricAudit) (r : MutationRecord) : FabricAudit :=
  let report := { s.report with checksRun := s.report.checksRun + 1 }
  let report := checkDigest r (checkSequence r s.expectedSequence report)
  let report := countOwner r s.owners report
  let report := r.scope.extents.foldl (checkExtent r s.owner) report
  let report := checkSuccession r s.previous report
  { report := { report with mutations := report.mutations + 1 }
    chain := s.chain ++ Writer.digest r.recordDigest
    owner := r.scope.extents.foldl (fun owner e => owner.put ⟨e, r⟩) s.owner
    owners := if ownerKey r ∈ s.owners then s.owners else ownerKey r :: s.owners
    expectedSequence := r.storeSequence + 1
    previous := some r }

end FabricAudit

def auditFabricHistory (records : List MutationRecord) : AuditReport :=
  let s := records.foldl FabricAudit.auditRecord {}
  let exclusive := s.report.tokenRegressions = 0 ∧ s.report.foreignOwnerAppends = 0 ∧
    s.report.fenceEscapes = 0 ∧ s.report.sequenceGaps = 0
  { s.report with
    headDigest := Digest256.of s.chain
    mutuallyExclusiveEffectHistory := exclusive
    status :=
      if ¬ exclusive ∧ s.report.status.isOk then
        .make s.report.outcome .internalInvariantViolation (UInt64.ofNat s.report.findingsTotal)
      else s.report.status }

namespace AuditReport

/-- What `mutually_exclusive_effect_history` asks to be zero. -/
def violations (report : AuditReport) : Nat :=
  report.tokenRegressions + report.foreignOwnerAppends + report.fenceEscapes + report.sequenceGaps

@[simp] theorem addFinding_violations (outcome : Outcome) (reason : Reason) (subject : Bytes)
    (detail : AuditDetail) (report : AuditReport) :
    (report.addFinding outcome reason subject detail).violations = report.violations := by
  unfold addFinding
  split <;> rfl

@[simp] theorem addFinding_total (outcome : Outcome) (reason : Reason) (subject : Bytes)
    (detail : AuditDetail) (report : AuditReport) :
    (report.addFinding outcome reason subject detail).findingsTotal = report.findingsTotal + 1 := by
  unfold addFinding
  split <;> rfl

/-- Findings are dropped only once the list is full. -/
def Listed (report : AuditReport) : Prop :=
  report.findings.length = min report.findingsTotal maxAuditFindings

theorem Listed.addFinding {report : AuditReport} (listed : report.Listed) (outcome : Outcome)
    (reason : Reason) (subject : Bytes) (detail : AuditDetail) :
    (report.addFinding outcome reason subject detail).Listed := by
  unfold Listed at listed ⊢
  by_cases full : maxAuditFindings ≤ report.findings.length
  · simp only [AuditReport.addFinding, if_pos full]
    omega
  · simp only [AuditReport.addFinding, if_neg full, List.length_append, List.length_singleton]
    omega

theorem Listed.empty_iff {report : AuditReport} (listed : report.Listed) :
    report.findings = [] ↔ report.findingsTotal = 0 := by
  have positive : 0 < maxAuditFindings := by decide
  rw [← List.length_eq_zero_iff, listed]
  omega

end AuditReport

namespace FabricAudit

variable {r prior : MutationRecord} {report : AuditReport}

def sequenceAlarms (r : MutationRecord) (expected : Sequence) : Nat :=
  if r.storeSequence ≠ expected then 1 else 0

def digestAlarms (r : MutationRecord) : Nat := if r.computeRecordDigest ≠ r.recordDigest then 1 else 0

def priorAlarms (r prior : MutationRecord) : Nat :=
  if r.fenceToken < prior.fenceToken then 1
  else if prior.fenceToken = r.fenceToken ∧ prior.incarnation ≠ r.incarnation then 1
  else if prior.incarnation ≠ r.incarnation ∧ successionPrecedes r prior = true then 1
  else 0

def extentAlarms (r : MutationRecord) (owner : LastWrites) (e : ExtentId) : Nat :=
  match owner.find e with
  | none => 0
  | some prior => priorAlarms r prior.record

def successionAlarms (r : MutationRecord) : Option MutationRecord → Nat
  | none => 0
  | some previous =>
    if previous.incarnation ≠ r.incarnation ∧
        (r.scope.extents.any previous.scope.containsExtent && successionPrecedes r previous) = true
    then 1 else 0

/-- The findings a record brings, the one about its digest aside. -/
def alarms (s : FabricAudit) (r : MutationRecord) : Nat :=
  sequenceAlarms r s.expectedSequence + (r.scope.extents.map (extentAlarms r s.owner)).sum +
    successionAlarms r s.previous

/-- A check that finds `n` violations, each of them reported. -/
structure Finds (n m : Nat) (report report' : AuditReport) : Prop where
  violations : report'.violations = report.violations + n
  total : report'.findingsTotal = report.findingsTotal + n + m
  listed : report.Listed → report'.Listed
  status : report'.status = report.status

namespace Finds

variable {n m n' m' : Nat} {first second third : AuditReport}

theorem none (report : AuditReport) : Finds 0 0 report report := ⟨rfl, rfl, id, rfl⟩

theorem trans (left : Finds n m first second) (right : Finds n' m' second third) :
    Finds (n + n') (m + m') first third where
  violations := by rw [right.violations, left.violations, Nat.add_assoc]
  total := by
    rw [right.total, left.total]
    omega
  listed := right.listed ∘ left.listed
  status := right.status.trans left.status

/-- Counting something else. -/
theorem counted (violations : second.violations = first.violations)
    (total : second.findingsTotal = first.findingsTotal) (findings : second.findings = first.findings)
    (status : second.status = first.status) : Finds 0 0 first second :=
  ⟨violations, total, fun listed => by
    unfold AuditReport.Listed at listed ⊢
    rw [findings, total, listed], status⟩

end Finds

theorem addFinding_finds {n m : Nat} (one : n + m = 1) {report report' : AuditReport}
    (outcome : Outcome) (reason : Reason) (subject : Bytes) (detail : AuditDetail)
    (violations : report'.violations = report.violations + n)
    (total : report'.findingsTotal = report.findingsTotal)
    (findings : report'.findings = report.findings) (status : report'.status = report.status) :
    Finds n m report (report'.addFinding outcome reason subject detail) where
  violations := by rw [AuditReport.addFinding_violations, violations]
  total := by
    rw [AuditReport.addFinding_total, total]
    omega
  listed listed := by
    have before : report'.Listed := by
      unfold AuditReport.Listed at listed ⊢
      rw [findings, total, listed]
    exact before.addFinding outcome reason subject detail
  status := by
    unfold AuditReport.addFinding
    split <;> exact status

theorem checkSequence_finds (expected : Sequence) :
    Finds (sequenceAlarms r expected) 0 report (checkSequence r expected report) := by
  unfold checkSequence sequenceAlarms
  split
  · exact addFinding_finds rfl _ _ _ _ (by simp [AuditReport.violations, Nat.add_assoc]) rfl rfl rfl
  · exact .none report

theorem checkDigest_finds : Finds 0 (digestAlarms r) report (checkDigest r report) := by
  unfold checkDigest digestAlarms
  split
  · exact addFinding_finds rfl _ _ _ _ rfl rfl rfl rfl
  · exact .none report

theorem checkPrior_finds (e : ExtentId) :
    Finds (priorAlarms r prior) 0 report (checkPrior r e prior report) := by
  have transition : ∀ n first second, Finds n 0 first second → Finds n 0 first
      (if prior.incarnation ≠ r.incarnation ∧ prior.fenceToken ≠ r.fenceToken then
        { second with ownershipTransitions := second.ownershipTransitions + 1 } else second) := by
    intro n first second found
    split
    · have counted : Finds 0 0 second
          { second with ownershipTransitions := second.ownershipTransitions + 1 } :=
        .counted rfl rfl rfl rfl
      exact found.trans counted
    · exact found
  refine transition _ _ _ ?_
  unfold priorAlarms
  split
  · refine addFinding_finds rfl _ _ _ _ ?_ rfl rfl rfl
    simp only [AuditReport.violations]
    omega
  · split
    · refine addFinding_finds rfl _ _ _ _ ?_ rfl rfl rfl
      simp only [AuditReport.violations]
      omega
    · split
      · refine addFinding_finds rfl _ _ _ _ ?_ rfl rfl rfl
        simp only [AuditReport.violations]
        omega
      · exact .none report

theorem checkExtents_finds (owner : LastWrites) (l : List ExtentId) :
    Finds (l.map (extentAlarms r owner)).sum 0 report (l.foldl (checkExtent r owner) report) := by
  induction l generalizing report with
  | nil => exact .none report
  | cons e rest ih =>
    rw [List.map_cons, List.sum_cons, List.foldl_cons]
    refine Finds.trans ?_ ih
    unfold extentAlarms checkExtent
    cases owner.find e with
    | none => exact .none report
    | some prior => exact checkPrior_finds e

theorem checkSuccession_finds (previous : Option MutationRecord) :
    Finds (successionAlarms r previous) 0 report (checkSuccession r previous report) := by
  cases previous with
  | none => exact .none report
  | some previous =>
    by_cases back : previous.incarnation ≠ r.incarnation ∧
        (r.scope.extents.any previous.scope.containsExtent && successionPrecedes r previous) = true
    · rw [checkSuccession, successionAlarms, if_pos back, if_pos back]
      refine addFinding_finds rfl _ _ _ _ ?_ rfl rfl rfl
      simp only [AuditReport.violations]
      omega
    · rw [checkSuccession, successionAlarms, if_neg back, if_neg back]
      exact .none report

theorem countOwner_finds (owners : List Bytes) : Finds 0 0 report (countOwner r owners report) := by
  unfold countOwner
  split
  · exact .none report
  · exact .counted rfl rfl rfl rfl

/-- What one record adds to the report. -/
theorem auditRecord_finds (s : FabricAudit) (r : MutationRecord) :
    Finds (alarms s r) (digestAlarms r) s.report (auditRecord s r).report := by
  have begun : Finds 0 0 s.report { s.report with checksRun := s.report.checksRun + 1 } :=
    .counted rfl rfl rfl rfl
  have all := ((((begun.trans (checkSequence_finds (r := r) s.expectedSequence)).trans
    (checkDigest_finds (r := r))).trans (countOwner_finds (r := r) s.owners)).trans
    (checkExtents_finds (r := r) s.owner r.scope.extents)).trans
    (checkSuccession_finds (r := r) s.previous)
  simp only [Nat.zero_add, Nat.add_zero] at all
  exact ⟨all.violations, all.total, all.listed, all.status⟩

theorem find_written (r : MutationRecord) (l : List ExtentId) (owner : LastWrites) (e : ExtentId) :
    (l.foldl (fun owner x => owner.put ⟨x, r⟩) owner).find e =
      if e ∈ l then some ⟨e, r⟩ else owner.find e := by
  induction l generalizing owner with
  | nil => rfl
  | cons x rest ih =>
    rw [List.foldl_cons, ih, SortedTable.find_put]
    by_cases later : e ∈ rest
    · simp [later]
    · by_cases here : x = e
      · simp [later, here]
      · simp [later, here, Ne.symm here]

def audited (done : List MutationRecord) : FabricAudit := done.foldl auditRecord {}

@[simp] theorem audited_append (done : List MutationRecord) (r : MutationRecord) :
    audited (done ++ [r]) = auditRecord (audited done) r := by simp [audited]

theorem audited_owner (done : List MutationRecord) (e : ExtentId) :
    (audited done).owner.find e =
      (LastWriter.latest touches e done).map fun r => ⟨e, r⟩ := by
  induction done using List.reverseRecOn with
  | nil => rfl
  | append_singleton done r ih =>
    rw [audited_append, LastWriter.latest_append]
    refine (find_written r r.scope.extents (audited done).owner e).trans ?_
    by_cases hit : e ∈ r.scope.extents
    · simp [hit, touches, Scope.containsExtent]
    · simp [hit, touches, Scope.containsExtent, ih]

theorem audited_previous (done : List MutationRecord) :
    (audited done).previous = done.getLast? := by
  induction done using List.reverseRecOn with
  | nil => rfl
  | append_singleton done r ih => simp [auditRecord]

def nextSequence (done : List MutationRecord) : Sequence :=
  match done.getLast? with
  | none => 1
  | some r => r.storeSequence + 1

theorem audited_expected (done : List MutationRecord) :
    (audited done).expectedSequence = nextSequence done := by
  induction done using List.reverseRecOn with
  | nil => rfl
  | append_singleton done r ih => simp [auditRecord, nextSequence]

/-- A record takes over from another: no lower token, another incarnation only with a
higher one, and never backwards in the succession order. -/
structure Succeeds (prior r : MutationRecord) : Prop where
  token : prior.fenceToken ≤ r.fenceToken
  owner : prior.fenceToken = r.fenceToken → prior.incarnation = r.incarnation
  order : prior.incarnation ≠ r.incarnation → successionPrecedes r prior = false

/-- What the auditor demands of a record after those before it. -/
structure Accepts (done : List MutationRecord) (r : MutationRecord) : Prop where
  sequence : r.storeSequence = nextSequence done
  prior : ∀ e ∈ r.scope.extents, ∀ v, LastWriter.latest touches e done = some v →
    Succeeds v r

theorem priorAlarms_eq_zero : priorAlarms r prior = 0 ↔ Succeeds prior r := by
  unfold priorAlarms
  constructor
  · intro quiet
    split at quiet
    · cases quiet
    · rename_i above
      split at quiet
      · cases quiet
      · rename_i same
        split at quiet
        · cases quiet
        · rename_i ordered
          refine ⟨not_lt.mp above, fun equal => ?_, fun differ => ?_⟩
          · by_contra differ
            exact same ⟨equal, differ⟩
          · by_contra back
            exact ordered ⟨differ, by simpa using back⟩
  · intro succeeds
    rw [if_neg (not_lt.mpr succeeds.token),
      if_neg fun foreign => foreign.2 (succeeds.owner foreign.1),
      if_neg fun back => by simp [succeeds.order back.1] at back]

theorem alarms_eq_zero (done : List MutationRecord) :
    alarms (audited done) r = 0 ↔ Accepts done r := by
  unfold alarms
  rw [audited_expected, audited_previous]
  have extents : (r.scope.extents.map (extentAlarms r (audited done).owner)).sum = 0 ↔
      ∀ e ∈ r.scope.extents, ∀ v, LastWriter.latest touches e done = some v →
        Succeeds v r := by
    rw [List.sum_eq_zero_iff_forall_eq_nat, List.forall_mem_map]
    refine forall₂_congr fun e _ => ?_
    unfold extentAlarms
    rw [audited_owner]
    cases LastWriter.latest touches e done with
    | none => simp
    | some v => simp [priorAlarms_eq_zero]
  have sequence : sequenceAlarms r (nextSequence done) = 0 ↔
      r.storeSequence = nextSequence done := by
    unfold sequenceAlarms
    by_cases same : r.storeSequence = nextSequence done
    · simp [same]
    · simp [same]
  constructor
  · intro quiet
    exact ⟨sequence.mp (by omega), extents.mp (by omega)⟩
  · intro accepts
    have first := sequence.mpr accepts.sequence
    have second := extents.mpr accepts.prior
    have last : successionAlarms r done.getLast? = 0 := by
      cases found : done.getLast? with
      | none => rfl
      | some v =>
        obtain ⟨before, rfl⟩ := List.getLast?_eq_some_iff.mp found
        rw [successionAlarms, if_neg]
        rintro ⟨differ, back⟩
        obtain ⟨shared, precedes⟩ := Bool.and_eq_true_iff.mp back
        obtain ⟨e, inside, touched⟩ := List.any_eq_true.mp shared
        have latest : LastWriter.latest touches e (before ++ [v]) = some v := by
          rw [LastWriter.latest_append, touches, touched]
          rfl
        rw [(accepts.prior e inside v latest).order differ] at precedes
        cases precedes
    omega

theorem audited_finds (done : List MutationRecord) : (audited done).report.Listed ∧
    (audited done).report.status = .ok := by
  induction done using List.reverseRecOn with
  | nil => exact ⟨rfl, rfl⟩
  | append_singleton done r ih =>
    have finds := auditRecord_finds (audited done) r
    rw [audited_append]
    exact ⟨finds.listed ih.1, finds.status.trans ih.2⟩

/-- No violation means that every record was accepted behind those before it. -/
theorem quiet_append (done : List MutationRecord) (r : MutationRecord) :
    (audited (done ++ [r])).report.violations = 0 ↔
      (audited done).report.violations = 0 ∧ Accepts done r := by
  rw [audited_append, (auditRecord_finds (audited done) r).violations, ← alarms_eq_zero]
  omega

theorem silent_append (done : List MutationRecord) (r : MutationRecord) :
    (audited (done ++ [r])).report.findingsTotal = 0 ↔
      (audited done).report.findingsTotal = 0 ∧ Accepts done r ∧
        r.recordDigest = r.computeRecordDigest := by
  have digest : digestAlarms r = 0 ↔ r.recordDigest = r.computeRecordDigest := by
    unfold digestAlarms
    by_cases same : r.computeRecordDigest = r.recordDigest
    · simp [same]
    · simp [same, Ne.symm same]
  rw [audited_append, (auditRecord_finds (audited done) r).total, ← alarms_eq_zero, ← digest]
  omega

end FabricAudit

open FabricAudit

theorem exclusive_iff (records : List MutationRecord) :
    (auditFabricHistory records).mutuallyExclusiveEffectHistory = true ↔
      (audited records).report.violations = 0 := by
  simp only [auditFabricHistory, audited, AuditReport.violations, decide_eq_true_eq]
  omega

theorem findings_iff (records : List MutationRecord) :
    (auditFabricHistory records).findings = [] ↔ (audited records).report.findingsTotal = 0 :=
  (audited_finds records).1.empty_iff

theorem nextSequence_numbered (done : List MutationRecord)
    (numbered : done.map (·.storeSequence) = (List.range' 1 done.length).map UInt64.ofNat) :
    nextSequence done = UInt64.ofNat (done.length + 1) := by
  induction done using List.reverseRecOn with
  | nil => rfl
  | append_singleton done r ih =>
    have last : r.storeSequence = UInt64.ofNat (1 + done.length) := by
      rw [List.length_append, List.length_singleton, List.range'_concat, List.map_append,
        List.map_append] at numbered
      have tails := List.append_inj_right' numbered rfl
      simpa using tails
    simp only [nextSequence, List.getLast?_append, List.getLast?_singleton, Option.some_or, last,
      List.length_append, List.length_singleton]
    rw [Nat.add_comm 1, UInt64.ofNat_add (done.length + 1) 1]
    rfl

theorem quiet_lawful {records : List MutationRecord}
    (quiet : (audited records).report.violations = 0) :
    records.map (·.storeSequence) = (List.range' 1 records.length).map UInt64.ofNat ∧
      LawfulEffects records := by
  induction records using List.reverseRecOn with
  | nil => exact ⟨rfl, List.Pairwise.nil⟩
  | append_singleton done r ih =>
    obtain ⟨before, accepts⟩ := (quiet_append done r).mp quiet
    obtain ⟨numbered, lawful⟩ := ih before
    constructor
    · rw [List.length_append, List.length_singleton, List.range'_concat, List.map_append,
        List.map_append, numbered, List.map_singleton, List.map_singleton, accepts.sequence,
        nextSequence_numbered done numbered, Nat.one_mul, Nat.add_comm 1]
    · refine LastWriter.lawful_append lawful fun e hit v last => ?_
      have inside : e ∈ r.scope.extents := by simpa [touches, Scope.containsExtent] using hit
      have succeeds := accepts.prior e inside v last
      exact ⟨succeeds.token, succeeds.owner⟩

theorem silent_digests {records : List MutationRecord}
    (silent : (audited records).report.findingsTotal = 0) :
    ∀ r ∈ records, r.recordDigest = r.computeRecordDigest := by
  induction records using List.reverseRecOn with
  | nil => simp
  | append_singleton done r ih =>
    obtain ⟨before, -, digest⟩ := (silent_append done r).mp silent
    intro x member
    rcases List.mem_append.mp member with inside | last
    · exact ih before x inside
    · rw [List.mem_singleton.mp last]
      exact digest

/-- What the audit calls a mutually exclusive history is numbered without gaps, and for
every two records that share an extent the token never falls, and at one token there is
one incarnation. With no findings every digest matches. -/
theorem audit_sound (records : List MutationRecord)
    (exclusive : (auditFabricHistory records).mutuallyExclusiveEffectHistory = true) :
    records.map (·.storeSequence) = (List.range' 1 records.length).map UInt64.ofNat ∧
      (records.Pairwise fun r r' => ∀ e, e ∈ r.scope.extents → e ∈ r'.scope.extents →
        r.fenceToken ≤ r'.fenceToken ∧
          (r.fenceToken = r'.fenceToken → r.incarnation = r'.incarnation)) ∧
      ((auditFabricHistory records).findings = [] →
        ∀ r ∈ records, r.recordDigest = r.computeRecordDigest) := by
  obtain ⟨numbered, lawful⟩ := quiet_lawful ((exclusive_iff records).mp exclusive)
  refine ⟨numbered, lawful.imp ?_, fun none => silent_digests ((findings_iff records).mp none)⟩
  intro r r' law e inFirst inSecond
  exact law e (by simpa [touches, Scope.containsExtent] using inFirst)
    (by simpa [touches, Scope.containsExtent] using inSecond)

def sampleWrite (n : Sequence) (i : IncarnationId) (t : FenceToken) : MutationRecord where
  storeSequence := n
  incarnation := i
  fenceToken := t
  epoch := n
  scope := Scope.single (Id.make [120]) Boundary.sampleExtent_named

/-- Two incarnations that hand one extent over. -/
theorem audit_sound_handover : [sampleWrite 1 1 1, sampleWrite 2 2 5].Pairwise fun r r' =>
    ∀ e, e ∈ r.scope.extents → e ∈ r'.scope.extents → r.fenceToken ≤ r'.fenceToken ∧
      (r.fenceToken = r'.fenceToken → r.incarnation = r'.incarnation) :=
  (audit_sound _ (by decide +kernel)).2.1

end SplitBrainFabric
