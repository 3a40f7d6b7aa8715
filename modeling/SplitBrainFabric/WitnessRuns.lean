import SplitBrainFabric.Library.LastWriter
import SplitBrainFabric.Library.Runs
import SplitBrainFabric.WitnessServer

/-! One witness over whole runs of `attest`. The laws relate everything it has ever stated;
its table keeps of that only the last statement of each subject. -/

namespace SplitBrainFabric
open Words Runs

theorem keyFor_inj {d d' : DomainId} {s s' : Digest256} :
    keyFor d s = keyFor d' s' ↔ d = d' ∧ s = s' := by
  constructor
  · intro same
    obtain ⟨domain, scope⟩ := Prod.mk.inj (toLex.injective same)
    exact ⟨Id.ext domain, Digest256.hex_injective scope⟩
  · rintro ⟨rfl, rfl⟩
    rfl

namespace WitnessAttestation

def subject (a : WitnessAttestation) : SubjectKey := keyFor a.subjectDomain a.subjectScope

def holder (a : WitnessAttestation) : IncarnationId × FenceToken := (a.incarnation, a.fenceToken)

/-- `a` is about the subject. -/
def concerns (a : WitnessAttestation) (k : SubjectKey) : Bool := a.subject = k

end WitnessAttestation

def AttestRequest.subject (r : AttestRequest) : SubjectKey :=
  keyFor r.subjectDomain r.subjectScope.digest

def AttestedSubject.holder (p : AttestedSubject) : IncarnationId × FenceToken :=
  (p.incarnation, p.fenceToken)

namespace WitnessService

/-- A witness with nothing in its memory. -/
def fresh (config : WitnessConfig) (clock : Step) : WitnessService :=
  { config := config, clock := clock }

section Attest

variable {s s' : WitnessService} {request : AttestRequest}

theorem attested_find (k : SubjectKey) : (attested request s).subjects.find k =
    if request.subject = k then some (remember request s.numbering) else s.subjects.find k := by
  have put := SortedTable.find_put s.subjects (remember request s.numbering) k
  by_cases here : request.subject = k
  · rw [if_pos here]
    exact put.trans (if_pos here)
  · rw [if_neg here]
    exact put.trans (if_neg here)

theorem attest_accepted {a : WitnessAttestation} (ran : (attest request).exec s = (.ok a, s')) :
    s.Admits request ∧ a = stating request s ∧ s' = attested request s := by
  have admits := (attest_granted ran).1
  rw [attest_exec admits] at ran
  cases ran
  exact ⟨admits, rfl, rfl⟩

/-- A refusal may move the clock and book itself; what is remembered stays. -/
structure Refusal (s s' : WitnessService) : Prop where
  subjects : s'.subjects = s.subjects
  sequence : s'.lastSequence = s.lastSequence
  config : s'.config = s.config

theorem objection_refusal {st : Status} (objects : objection request s = some (s', st)) :
    Refusal s s' := by
  unfold objection contradiction at objects
  split at objects
  · split_ifs at objects <;> · cases objects; exact ⟨rfl, rfl, rfl⟩
  · split_ifs at objects
    cases objects
    exact ⟨rfl, rfl, rfl⟩

theorem attest_refused {st : Status} (ran : (attest request).exec s = (.error st, s')) :
    Refusal s s' := by
  simp only [attest, Prog.exec_refuseIf, Prog.exec_get_bind, Prog.exec_modify_bind] at ran
  split at ran
  · cases ran; exact ⟨rfl, rfl, rfl⟩
  split at ran
  · cases ran; exact ⟨rfl, rfl, rfl⟩
  split at ran
  · cases ran; exact ⟨rfl, rfl, rfl⟩
  split at ran
  · cases ran; exact ⟨rfl, rfl, rfl⟩
  split at ran
  · cases ran; exact ⟨rfl, rfl, rfl⟩
  split at ran
  · rename_i objects
    cases ran
    have kept := objection_refusal objects
    exact ⟨kept.subjects, kept.sequence, kept.config⟩
  · rw [Prog.exec_refuseIf] at ran
    split at ran
    · cases ran; exact ⟨rfl, rfl, rfl⟩
    · cases ran

end Attest

end WitnessService

/-- A witness with everything it has stated, oldest first. -/
structure WitnessLog where
  service : WitnessService
  stated : List WitnessAttestation := []

namespace WitnessLog

def receive (l : WitnessLog) (request : AttestRequest) : WitnessLog :=
  match (WitnessService.attest request).exec l.service with
  | (.ok a, s) => ⟨s, l.stated ++ [a]⟩
  | (.error _, s) => { l with service := s }

/-- How often the subject has been spoken about. -/
def count (stated : List WitnessAttestation) (k : SubjectKey) : Nat :=
  stated.countP (·.concerns k)

abbrev Lawful (stated : List WitnessAttestation) : Prop :=
  LastWriter.Lawful WitnessAttestation.concerns WitnessAttestation.epoch
    WitnessAttestation.holder stated

/-- Statements are numbered through, and those about one subject by themselves. -/
def Numbered (stated : List WitnessAttestation) : Prop :=
  ∀ before a after, stated = before ++ a :: after →
    a.witnessSequence.toNat = before.length + 1 ∧
      a.witnessGeneration.toNat = count before a.subject + 1

/-- The row of a subject holds the last statement about it, and how many there were. -/
structure Minutes (stated : List WitnessAttestation) (k : SubjectKey)
    (row : Option AttestedSubject) : Prop where
  last : row.map (fun p => (p.epoch, p.holder)) =
    (LastWriter.latest WitnessAttestation.concerns k stated).map fun a => (a.epoch, a.holder)
  generation : ∀ p, row = some p → p.generation.toNat = count stated k

structure Kept (l : WitnessLog) : Prop where
  lawful : Lawful l.stated
  numbered : Numbered l.stated
  minutes : ∀ k, Minutes l.stated k (l.service.subjects.find k)
  sequence : l.service.lastSequence.toNat = l.stated.length
  bounded : l.service.subjects.size ≤ l.service.config.maxSubjects.toNat

variable {l : WitnessLog} {request : AttestRequest}

theorem kept_fresh (config : WitnessConfig) (clock : Step) :
    Kept ⟨.fresh config clock, []⟩ where
  lawful := .nil
  numbered := fun before _ _ split => absurd split (by simp)
  minutes := fun _ => ⟨rfl, fun _ found => by cases found⟩
  sequence := rfl
  bounded := Nat.zero_le _

theorem concerns_iff {a : WitnessAttestation} {k : SubjectKey} :
    a.concerns k = true ↔ a.subject = k := decide_eq_true_iff

theorem count_concat (stated : List WitnessAttestation) (a : WitnessAttestation)
    (k : SubjectKey) :
    count (stated ++ [a]) k = count stated k + if a.subject = k then 1 else 0 := by
  simp [count, List.countP_append, List.countP_cons, concerns_iff]

theorem numbered_concat {stated : List WitnessAttestation} {a : WitnessAttestation}
    (numbered : Numbered stated) (sequence : a.witnessSequence.toNat = stated.length + 1)
    (generation : a.witnessGeneration.toNat = count stated a.subject + 1) :
    Numbered (stated ++ [a]) := by
  intro before b after split
  rcases List.eq_nil_or_concat after with rfl | ⟨rest, last, rfl⟩
  · obtain ⟨rfl, same⟩ := List.append_inj' split rfl
    obtain rfl := List.head_eq_of_cons_eq same
    exact ⟨sequence, generation⟩
  · rw [List.concat_eq_append, ← List.cons_append, ← List.append_assoc] at split
    exact numbered before b rest (List.append_inj' split rfl).1

theorem Numbered.rising {stated : List WitnessAttestation} (numbered : Numbered stated) :
    stated.Pairwise fun a b => a.witnessSequence < b.witnessSequence := by
  have position : ∀ i (inside : i < stated.length),
      (stated.get ⟨i, inside⟩).witnessSequence.toNat = i + 1 := by
    intro i inside
    have split : stated = stated.take i ++ stated.get ⟨i, inside⟩ :: stated.drop (i + 1) := by simp
    have here := (numbered _ _ _ split).1
    rwa [List.length_take, min_eq_left (le_of_lt inside)] at here
  refine List.pairwise_iff_getElem.mpr fun i j hi hj less => ?_
  have first := position i hi
  have second := position j hj
  simp only [List.get_eq_getElem] at first second
  rw [UInt64.lt_iff_toNat_lt, first, second]
  exact Nat.succ_lt_succ less

theorem count_le (stated : List WitnessAttestation) (k : SubjectKey) :
    count stated k ≤ stated.length := List.countP_le_length

/-- The number of a subject's next statement, counted by its row. -/
theorem Kept.next_generation (kept : l.Kept) (request : AttestRequest)
    (room : l.service.lastSequence ≠ maxWord) :
    (WitnessService.stating request l.service).witnessGeneration.toNat =
      count l.stated request.subject + 1 := by
  have minutes := kept.minutes request.subject
  have generation : (WitnessService.stating request l.service).witnessGeneration =
      ((l.service.subjects.find request.subject).map (·.generation + 1)).getD 1 := rfl
  rw [generation]
  cases found : l.service.subjects.find request.subject with
  | none =>
    have silent := minutes.last
    rw [found, Option.map_none, eq_comm, Option.map_eq_none_iff] at silent
    have unheard : count l.stated request.subject = 0 := by
      rw [count, List.countP_eq_zero]
      intro a member concerned
      obtain ⟨u, latest, -⟩ := LastWriter.latest_follows kept.lawful member concerned
      rw [silent] at latest
      cases latest
    rw [unheard]
    rfl
  | some p =>
    have counted := minutes.generation p found
    have below := count_le l.stated request.subject
    have small : p.generation ≠ maxWord := by
      intro full
      have bound := l.service.lastSequence.toNat_lt
      have top : l.service.lastSequence.toNat = 2 ^ 64 - 1 := by
        have value : maxWord.toNat = 2 ^ 64 - 1 := rfl
        rw [full, value] at counted
        have sequence := kept.sequence
        omega
      exact room (UInt64.toNat_inj.mp top)
    rw [Option.map_some, Option.getD_some, toNat_succ small, counted]

theorem Kept.accepted (kept : l.Kept) (admits : l.service.Admits request) :
    Kept ⟨WitnessService.attested request l.service,
      l.stated ++ [WitnessService.stating request l.service]⟩ := by
  have generation := kept.next_generation request admits.sequence
  have sequence : (WitnessService.stating request l.service).witnessSequence.toNat =
      l.stated.length + 1 := (toNat_succ admits.sequence).trans (congrArg (· + 1) kept.sequence)
  have subject : (WitnessService.stating request l.service).subject = request.subject := rfl
  have minutes := kept.minutes request.subject
  have memory := admits.memory
  refine ⟨?_, numbered_concat kept.numbered sequence generation, fun k => ⟨?_, ?_⟩, ?_, ?_⟩
  · refine LastWriter.lawful_append kept.lawful fun k concerned v latest => ?_
    obtain rfl : request.subject = k := concerns_iff.mp concerned
    have last := minutes.last
    rw [latest] at last
    obtain ⟨p, found, same⟩ := Option.map_eq_some_iff.mp last
    obtain ⟨epoch, holder⟩ := Prod.mk.inj same
    unfold AttestRequest.subject at found
    simp only [WitnessService.Accommodates, found] at memory
    refine ⟨epoch ▸ memory.1, fun equal => ?_⟩
    obtain ⟨incarnation, token⟩ := memory.2 (epoch.trans equal).symm
    rw [← holder]
    exact Prod.ext incarnation token.symm
  · rw [WitnessService.attested_find, LastWriter.latest_append]
    by_cases here : request.subject = k
    · have concerned : (WitnessService.stating request l.service).concerns k = true :=
        concerns_iff.mpr here
      rw [if_pos here, if_pos concerned]
      rfl
    · have elsewhere : (WitnessService.stating request l.service).concerns k ≠ true :=
        fun concerned => here (concerns_iff.mp concerned)
      rw [if_neg here, if_neg elsewhere]
      exact (kept.minutes k).last
  · intro p found
    rw [WitnessService.attested_find] at found
    rw [count_concat, subject]
    by_cases here : request.subject = k
    · rw [if_pos here] at found
      cases found
      rw [if_pos here, ← here]
      exact generation
    · rw [if_neg here] at found
      rw [if_neg here]
      exact (kept.minutes k).generation p found
  · rw [List.length_append]
    exact sequence
  · have grown := SortedTable.size_put l.service.subjects
      (WitnessService.remember request l.service.numbering)
    show (l.service.subjects.put (WitnessService.remember request l.service.numbering)).size ≤
      l.service.config.maxSubjects.toNat
    rw [grown]
    split
    · exact kept.bounded
    · rename_i absent
      have missing : l.service.subjects.find
          (keyFor request.subjectDomain request.subjectScope.digest) = none :=
        Option.not_isSome_iff_eq_none.mp absent
      simp only [WitnessService.Accommodates, missing] at memory
      exact memory

theorem receive_admitted (admits : l.service.Admits request) : l.receive request =
    ⟨WitnessService.attested request l.service,
      l.stated ++ [WitnessService.stating request l.service]⟩ := by
  rw [receive, WitnessService.attest_exec admits]

theorem receive_refused (refuses : ¬ l.service.Admits request) :
    WitnessService.Refusal l.service (l.receive request).service ∧
      (l.receive request).stated = l.stated := by
  rcases ran : (WitnessService.attest request).exec l.service with ⟨r, s⟩
  rw [receive, ran]
  cases r with
  | ok a => exact absurd (WitnessService.attest_accepted ran).1 refuses
  | error st => exact ⟨WitnessService.attest_refused ran, rfl⟩

theorem Kept.receive (kept : l.Kept) (request : AttestRequest) : (l.receive request).Kept := by
  by_cases admits : l.service.Admits request
  · rw [receive_admitted admits]
    exact kept.accepted admits
  · obtain ⟨refusal, stated⟩ := receive_refused admits
    refine ⟨?_, ?_, fun k => ?_, ?_, ?_⟩
    · rw [stated]
      exact kept.lawful
    · rw [stated]
      exact kept.numbered
    · rw [stated, refusal.subjects]
      exact kept.minutes k
    · rw [stated, refusal.sequence]
      exact kept.sequence
    · rw [refusal.subjects, refusal.config]
      exact kept.bounded

theorem receive_config (l : WitnessLog) (request : AttestRequest) :
    (l.receive request).service.config = l.service.config := by
  by_cases admits : l.service.Admits request
  · rw [receive_admitted admits]
    rfl
  · exact (receive_refused admits).1.config

theorem kept_run (config : WitnessConfig) (clock : Step) (requests : List AttestRequest) :
    (run receive ⟨.fresh config clock, []⟩ requests).Kept := by
  have keeps : ∀ l r, Kept l → Kept (receive l r) := fun _ r kept => kept.receive r
  exact run_invariant keeps (kept_fresh config clock) requests

/-- Whatever requests come in whatever order: the epochs of a subject never fall, one epoch
has one holder, the statements are numbered without a gap, the table stays in its bound, and
a refused request leaves it as it is. -/
theorem witness_law (config : WitnessConfig) (clock : Step) (requests : List AttestRequest) :
    (run receive ⟨.fresh config clock, []⟩ requests).stated.Pairwise (fun a b =>
      a.subjectDomain = b.subjectDomain → a.subjectScope = b.subjectScope → a.epoch ≤ b.epoch ∧
        (a.epoch = b.epoch → a.incarnation = b.incarnation ∧ a.fenceToken = b.fenceToken)) ∧
    (run receive ⟨.fresh config clock, []⟩ requests).stated.Pairwise (fun a b =>
      a.witnessSequence < b.witnessSequence) ∧
    (∀ before a after,
      (run receive ⟨.fresh config clock, []⟩ requests).stated = before ++ a :: after →
      a.witnessGeneration.toNat = (before.filter fun b =>
        b.subjectDomain = a.subjectDomain ∧ b.subjectScope = a.subjectScope).length + 1) ∧
    (run receive ⟨.fresh config clock, []⟩ requests).service.subjects.size ≤
      config.maxSubjects.toNat ∧
    ∀ request st s', (WitnessService.attest request).exec
        (run receive ⟨.fresh config clock, []⟩ requests).service = (.error st, s') →
      s'.subjects = (run receive ⟨.fresh config clock, []⟩ requests).service.subjects ∧
      s'.lastSequence = (run receive ⟨.fresh config clock, []⟩ requests).service.lastSequence := by
  have kept := kept_run config clock requests
  have configured : (run receive ⟨.fresh config clock, []⟩ requests).service.config = config := by
    have keeps : ∀ (l : WitnessLog) (r : AttestRequest), l.service.config = config →
        (l.receive r).service.config = config := fun l r same => (receive_config l r).trans same
    exact run_invariant keeps rfl requests
  have bounded := kept.bounded
  rw [configured] at bounded
  refine ⟨?_, kept.numbered.rising, ?_, bounded, fun request st s' ran => ?_⟩
  · refine kept.lawful.imp fun {a b} follows domain scope => ?_
    have same : a.subject = b.subject := keyFor_inj.mpr ⟨domain, scope⟩
    obtain ⟨epoch, holder⟩ := follows b.subject (concerns_iff.mpr same) (concerns_iff.mpr rfl)
    exact ⟨epoch, fun equal => Prod.mk.inj (holder equal)⟩
  · intro before a after split
    rw [(kept.numbered before a after split).2, count, List.countP_eq_length_filter]
    congr 3
    funext b
    refine decide_eq_decide.mpr ?_
    exact keyFor_inj
  · have refusal := WitnessService.attest_refused ran
    exact ⟨refusal.subjects, refusal.sequence⟩

end WitnessLog
end SplitBrainFabric
