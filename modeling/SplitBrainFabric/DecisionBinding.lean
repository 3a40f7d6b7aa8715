import SplitBrainFabric.Decisions
import SplitBrainFabric.Selection
import SplitBrainFabric.Messages

/-! What the digest of a decision binds: the verdict, the status, the vector, the decision
sequence and the revocable flag. The other fields travel beside it unbound. -/

namespace SplitBrainFabric
open Words Decoder

/-- The two inputs are no collision of the hash. -/
def Distinguished (a b : Bytes) : Prop := Digest256.of a = Digest256.of b → a = b

/-- An encoding with another digest for the one at its end. -/
def withDigest (image : Bytes) (digest : Digest256) : Bytes :=
  image.take (image.length - 32) ++ Writer.digest digest

namespace AuthorityDecision

/-- What the digest is computed over. -/
def hashed (d : AuthorityDecision) : Bytes :=
  List.flatten [Writer.u16 d.verdict.code, Writer.outcome d.status.outcome,
    Writer.reason d.status.reason, Writer.u64 d.status.aux, d.vector.encode,
    Writer.u64 d.decisionSequence, Writer.boolean d.revocable]

/-- The fields under the digest are equal. -/
@[mk_iff] structure SameBound (d d' : AuthorityDecision) : Prop where
  verdict : d.verdict = d'.verdict
  status : d.status = d'.status
  vector : d.vector = d'.vector
  decisionSequence : d.decisionSequence = d'.decisionSequence
  revocable : d.revocable = d'.revocable

variable {d d' d₂ : AuthorityDecision} {codes codes' : List Reason} {scope scope' : Bytes}

theorem hashed_iff : d.hashed = d'.hashed ↔ d.SameBound d' := by
  constructor
  · intro same
    simp only [hashed, List.flatten_cons, List.flatten_nil] at same
    obtain ⟨verdict, same⟩ :=
      AuthorityVerdict.exact_read.splits ⟨trivial, rfl⟩ ⟨trivial, rfl⟩ same
    obtain ⟨outcome, same⟩ := exact_outcome.splits ⟨trivial, rfl⟩ ⟨trivial, rfl⟩ same
    obtain ⟨reason, same⟩ := exact_reason.splits ⟨trivial, rfl⟩ ⟨trivial, rfl⟩ same
    obtain ⟨aux, same⟩ := exact_u64.splits ⟨trivial, rfl⟩ ⟨trivial, rfl⟩ same
    obtain ⟨vector, same⟩ :=
      AuthorityVector.exact_decode.splits ⟨trivial, rfl⟩ ⟨trivial, rfl⟩ same
    obtain ⟨sequence, same⟩ := exact_u64.splits ⟨trivial, rfl⟩ ⟨trivial, rfl⟩ same
    obtain ⟨revocable, -⟩ := exact_boolean.splits ⟨trivial, rfl⟩ ⟨trivial, rfl⟩ same
    refine ⟨verdict, ?_, vector, sequence, revocable⟩
    cases status : d.status
    cases status' : d'.status
    simp_all
  · rintro ⟨verdict, status, vector, sequence, revocable⟩
    simp only [hashed, verdict, status, vector, sequence, revocable]

theorem digest_iff (free : Distinguished d.hashed d'.hashed) :
    d.digest = d'.digest ↔ d.SameBound d' := by
  rw [← hashed_iff]
  exact ⟨free, congrArg Digest256.of⟩

/-- The image of a decision up to its digest. -/
def bodyWith (codes : List Reason) (scope : Bytes) (d : AuthorityDecision) : Bytes :=
  List.flatten [Writer.u16 d.verdict.code, Writer.blob d.status.encode,
    Writer.sequence Writer.reason codes, Writer.blob d.vector.encode,
    Writer.text d.claim.value, Writer.blob scope, Writer.u64 d.validFrom, Writer.u64 d.validUntil,
    Writer.sequence (fun c => Writer.text c.value) d.mustFence,
    Writer.sequence (fun e => Writer.text e.value) d.fencedExtents,
    Writer.u64 d.decisionSequence, Writer.boolean d.revocable]

theorem encodeWith_eq (codes : List Reason) (scope : Bytes) (d : AuthorityDecision) :
    d.encodeWith codes scope = d.bodyWith codes scope ++ Writer.digest d.digest := by
  simp only [encodeWith, bodyWith, List.flatten_cons, List.flatten_nil, List.append_assoc,
    List.append_nil]

theorem withDigest_encode (d : AuthorityDecision) (digest : Digest256) :
    withDigest d.encode digest =
      d.bodyWith d.explanation.codes d.scope.encode ++ Writer.digest digest := by
  have size : d.encode.length - 32 = (d.bodyWith d.explanation.codes d.scope.encode).length := by
    rw [encode, encodeWith_eq, List.length_append, Writer.digest_length, Nat.add_sub_cancel]
  rw [withDigest, size, encode, encodeWith_eq, List.take_left]

/-- Lists of identifiers short enough for their count to be written. -/
theorem exact_anyIds {tag : IdTag} :
    Exact (Reader.sequence (2 ^ 32 - 1) (Reader.optionalId .invalid : Reader.Read (Id tag)))
      (fun xs => xs.length ≤ 2 ^ 32 - 1 ∧ ∀ x ∈ xs, True)
      (Writer.sequence fun x => Writer.text x.value) :=
  exact_sequence (exact_optionalId _) (by decide) fun x none => by
    simpa using congrArg List.length none

/-- One body is the body of one decision, as long as the counts in it can be written. -/
theorem bodyWith_unique {x y : Bytes} (few : codes.length ≤ Limits.maxExplanationCodes)
    (few' : codes'.length ≤ Limits.maxExplanationCodes)
    (spelled : d.scope.Spelled scope) (spelled' : d'.scope.Spelled scope')
    (claims : d.mustFence.length < 2 ^ 32) (claims' : d'.mustFence.length < 2 ^ 32)
    (extents : d.fencedExtents.length < 2 ^ 32) (extents' : d'.fencedExtents.length < 2 ^ 32)
    (same : d.bodyWith codes scope ++ x = d'.bodyWith codes' scope' ++ y) :
    d.SameBound d' ∧ d.mustFence = d'.mustFence ∧ d.fencedExtents = d'.fencedExtents ∧ x = y := by
  have vectors := exact_nested AuthorityVector.exact_decode fun v _ =>
    v.encode_length.trans (by decide)
  simp only [bodyWith, List.flatten_cons, List.flatten_nil, List.append_assoc, List.nil_append]
    at same
  obtain ⟨verdict, same⟩ :=
    AuthorityVerdict.exact_read.splits ⟨trivial, rfl⟩ ⟨trivial, rfl⟩ same
  obtain ⟨status, same⟩ := exact_nestedStatus.splits ⟨trivial, rfl⟩ ⟨trivial, rfl⟩ same
  obtain ⟨-, same⟩ := exact_codes.splits ⟨⟨few, fun _ _ => trivial⟩, rfl⟩
    ⟨⟨few', fun _ _ => trivial⟩, rfl⟩ same
  obtain ⟨vector, same⟩ := vectors.splits ⟨trivial, rfl⟩ ⟨trivial, rfl⟩ same
  obtain ⟨-, same⟩ := (exact_optionalId .invalid).splits ⟨trivial, rfl⟩ ⟨trivial, rfl⟩ same
  obtain ⟨-, same⟩ := spells_nestedScope.splits ⟨_, spelled, rfl⟩ ⟨_, spelled', rfl⟩ same
  obtain ⟨-, same⟩ := exact_u64.splits ⟨trivial, rfl⟩ ⟨trivial, rfl⟩ same
  obtain ⟨-, same⟩ := exact_u64.splits ⟨trivial, rfl⟩ ⟨trivial, rfl⟩ same
  obtain ⟨mustFence, same⟩ := exact_anyIds.splits ⟨⟨Nat.le_sub_one_of_lt claims,
    fun _ _ => trivial⟩, rfl⟩ ⟨⟨Nat.le_sub_one_of_lt claims', fun _ _ => trivial⟩, rfl⟩ same
  obtain ⟨fenced, same⟩ := exact_anyIds.splits ⟨⟨Nat.le_sub_one_of_lt extents,
    fun _ _ => trivial⟩, rfl⟩ ⟨⟨Nat.le_sub_one_of_lt extents', fun _ _ => trivial⟩, rfl⟩ same
  obtain ⟨sequence, same⟩ := exact_u64.splits ⟨trivial, rfl⟩ ⟨trivial, rfl⟩ same
  obtain ⟨revocable, same⟩ := exact_boolean.splits ⟨trivial, rfl⟩ ⟨trivial, rfl⟩ same
  exact ⟨⟨verdict, status, vector, sequence, revocable⟩, mustFence, fenced, same⟩

theorem ids_length {tag : IdTag} (xs : List (Id tag)) :
    xs.length ≤ (Writer.sequence (fun x => Writer.text x.value) xs).length := by
  induction xs with
  | nil => exact Nat.zero_le _
  | cons x rest ih =>
    simp only [Writer.sequence, List.flatMap_cons, List.length_append, Writer.u32_length,
      Writer.text_length, List.length_cons] at ih ⊢
    omega

theorem lists_length (codes : List Reason) (scope : Bytes) (d : AuthorityDecision) :
    d.mustFence.length ≤ (d.bodyWith codes scope).length ∧
      d.fencedExtents.length ≤ (d.bodyWith codes scope).length := by
  have claims : d.mustFence.length ≤
      (Writer.sequence (fun c => Writer.text c.value) d.mustFence).length := ids_length _
  have extents : d.fencedExtents.length ≤
      (Writer.sequence (fun e => Writer.text e.value) d.fencedExtents).length := ids_length _
  simp only [bodyWith, List.flatten_cons, List.flatten_nil, List.length_append]
  constructor
  · omega
  · omega

/-- A decision with another digest behind it is read exactly if the two digests agree. -/
theorem decode_withDigest (kept : d₂.explanation.Kept) (digest : Digest256) :
    (∃ d', Reader.decode decode (withDigest d₂.encode digest) = .ok d') ↔
      d₂.Listed ∧ digest = d₂.digest := by
  rw [withDigest_encode]
  constructor
  · rintro ⟨d', decoded⟩
    have spelled := spells_decode.whole_iff.mp decoded
    have size := spelled.length
    obtain ⟨listed, codes, scope, ⟨few, -⟩, around, image⟩ := spelled
    rw [List.length_append] at size
    have fits : (d₂.bodyWith d₂.explanation.codes d₂.scope.encode).length < 2 ^ 32 := by
      simp only [Limits.maxSnapshotBytes] at size
      omega
    obtain ⟨claims, extents⟩ := lists_length d₂.explanation.codes d₂.scope.encode d₂
    have fewClaims := listed.fewClaims
    have fewExtents := listed.fewExtents
    simp only [Limits.maxCompetingClaims, Limits.maxExtentsPerScope] at fewClaims fewExtents
    rw [encodeWith_eq] at image
    obtain ⟨same, mustFence, fenced, ends⟩ := bodyWith_unique kept.few few d₂.scope.encode_spelled around
      (by omega) (by omega) (by omega) (by omega) image
    have digests : d₂.digest = d'.digest := congrArg Digest256.of (hashed_iff.mpr same)
    refine ⟨?_, (Digest256.ext ends).trans digests.symm⟩
    rw [listed_iff] at listed ⊢
    rwa [mustFence, fenced]
  · rintro ⟨listed, rfl⟩
    refine ⟨d₂, spells_decode.whole_iff.mpr ⟨listed, d₂.explanation.codes, d₂.scope.encode,
      ⟨kept.few, Explanation.gather_of_kept kept⟩, d₂.scope.encode_spelled, ?_⟩⟩
    rw [encodeWith_eq]

/-- The transplanted digest is refused, for two different decisions, exactly if the
difference is in a field under the digest, or the second could not be sent anyway. -/
theorem transplant_refused_iff (kept : d₂.explanation.Kept)
    (free : Distinguished d.hashed d₂.hashed) :
    (d₂ ≠ d → ∃ e, Reader.decode decode (withDigest d₂.encode d.digest) = .error e) ↔
      d₂ = d ∨ ¬ d₂.Listed ∨ ¬ d.SameBound d₂ := by
  have accepted := decode_withDigest kept d.digest
  rw [digest_iff free] at accepted
  cases decoded : Reader.decode decode (withDigest d₂.encode d.digest) with
  | ok d' =>
    obtain ⟨listed, same⟩ := accepted.mp ⟨d', decoded⟩
    constructor
    · intro refused
      by_cases equal : d₂ = d
      · exact .inl equal
      · obtain ⟨e, error⟩ := refused equal
        cases error
    · rintro (equal | unlisted | differ) other
      · exact absurd equal other
      · exact absurd listed unlisted
      · exact absurd same differ
  | error e =>
    refine ⟨fun _ => .inr ?_, fun _ _ => ⟨e, rfl⟩⟩
    by_cases listed : d₂.Listed
    · refine .inr fun same => ?_
      obtain ⟨d', ok⟩ := accepted.mpr ⟨listed, same⟩
      rw [decoded] at ok
      cases ok
    · exact .inl listed

end AuthorityDecision
section Plans

variable {sorting : Sorting} {candidates : List AuthorityRequest} {view : ArbiterView}
  {plan : AuthorityPlan} {entries : List AuthorityDecision} {selected : List AuthorityRequest}

/-- The candidate that an entry of a plan is checked against. -/
def requestOf (candidates : List AuthorityRequest) (entry : AuthorityDecision) :
    Option AuthorityRequest :=
  candidates.find? fun candidate => candidate.claim = entry.claim

def recomputed (sorting : Sorting) (candidates : List AuthorityRequest) (view : ArbiterView)
    (entry : AuthorityDecision) : Option AuthorityDecision :=
  (requestOf candidates entry).map fun candidate => decideAuthority sorting candidate view.isolated

/-- The entry's candidate is granted again, with the entry's digest. -/
def Rechecked (sorting : Sorting) (candidates : List AuthorityRequest) (view : ArbiterView)
    (entry : AuthorityDecision) : Prop :=
  ∃ again, recomputed sorting candidates view entry = some again ∧ again.isAuthoritative = true ∧
    again.digest = entry.digest

/-- An entry fails the validation by itself, or it is rechecked and the others decide. -/
theorem recheckDecisions_cons (candidates : List AuthorityRequest) (view : ArbiterView)
    (entry : AuthorityDecision) (rest : List AuthorityDecision) :
    (¬ Rechecked sorting candidates view entry ∧ ∃ failed, failed.isOk = false ∧
      recheckDecisions sorting candidates view.isolated (entry :: rest) = .error failed) ∨
    (Rechecked sorting candidates view entry ∧ ∃ candidate,
      requestOf candidates entry = some candidate ∧
      recheckDecisions sorting candidates view.isolated (entry :: rest) =
        (recheckDecisions sorting candidates view.isolated rest).map (candidate :: ·)) := by
  cases found : requestOf candidates entry with
  | none =>
    left
    refine ⟨?_, .make .invalid .planInvalid, rfl, ?_⟩
    · rintro ⟨again, computed, -⟩
      rw [recomputed, found] at computed
      cases computed
    · rw [requestOf] at found
      rw [recheckDecisions, found]
  | some candidate =>
    have computed : recomputed sorting candidates view entry =
        some (decideAuthority sorting candidate view.isolated) := by
      rw [recomputed, found]
      rfl
    rw [requestOf] at found
    unfold Rechecked
    simp only [recheckDecisions, found, computed]
    generalize decideAuthority sorting candidate view.isolated = again
    by_cases denied : again.isAuthoritative = false
    · left
      rw [if_pos denied]
      refine ⟨?_, _, rfl, rfl⟩
      rintro ⟨_, same, granted, -⟩
      cases same
      rw [denied] at granted
      cases granted
    by_cases differ : again.digest ≠ entry.digest
    · left
      rw [if_neg denied, if_pos differ]
      refine ⟨?_, _, rfl, rfl⟩
      rintro ⟨_, same, -, equal⟩
      cases same
      exact differ equal
    · right
      rw [if_neg denied, if_neg differ]
      refine ⟨⟨again, rfl, by simpa using denied, not_not.mp differ⟩, candidate, rfl, ?_⟩
      cases recheckDecisions sorting candidates view.isolated rest with
      | error failed => rfl
      | ok selected => rfl

theorem recheckDecisions_ok
    (ok : recheckDecisions sorting candidates view.isolated entries = .ok selected) :
    (∀ entry ∈ entries, Rechecked sorting candidates view entry) ∧
      selected = entries.filterMap (requestOf candidates) := by
  induction entries generalizing selected with
  | nil =>
    simp only [recheckDecisions, Except.ok.injEq] at ok
    exact ⟨List.forall_mem_nil _, ok.symm⟩
  | cons entry rest ih =>
    rcases recheckDecisions_cons candidates view entry rest with
      ⟨-, failed, -, step⟩ | ⟨head, candidate, found, step⟩
    · rw [step] at ok
      cases ok
    · rw [step] at ok
      cases rechecked : recheckDecisions sorting candidates view.isolated rest with
      | error failed => rw [rechecked] at ok; cases ok
      | ok others =>
        rw [rechecked] at ok
        cases ok
        obtain ⟨tail, listed⟩ := ih rechecked
        refine ⟨List.forall_mem_cons.mpr ⟨head, tail⟩, ?_⟩
        rw [List.filterMap_cons_some found, listed]

theorem recheckDecisions_refused {failed : Status}
    (refused : recheckDecisions sorting candidates view.isolated entries = .error failed) :
    failed.isOk = false ∧ ∃ entry ∈ entries, ¬ Rechecked sorting candidates view entry := by
  induction entries with
  | nil => simp [recheckDecisions] at refused
  | cons entry rest ih =>
    rcases recheckDecisions_cons candidates view entry rest with
      ⟨unchecked, failed', bad, step⟩ | ⟨-, candidate, -, step⟩
    · rw [step] at refused
      cases refused
      exact ⟨bad, entry, List.mem_cons_self, unchecked⟩
    · rw [step] at refused
      cases rechecked : recheckDecisions sorting candidates view.isolated rest with
      | error failed' =>
        rw [rechecked] at refused
        cases refused
        obtain ⟨bad, other, member, unchecked⟩ := ih rechecked
        exact ⟨bad, other, List.mem_cons_of_mem entry member, unchecked⟩
      | ok others => rw [rechecked] at refused; cases refused

theorem validatePlan_ok_iff : (validatePlan sorting plan candidates view).isOk = true ↔
    (∀ entry ∈ plan.authorized, Rechecked sorting candidates view entry) ∧
      overlapFrom 0 (plan.authorized.filterMap (requestOf candidates)) = none := by
  unfold validatePlan
  cases checked : recheckDecisions sorting candidates view.isolated plan.authorized with
  | error failed =>
    obtain ⟨bad, entry, member, unchecked⟩ := recheckDecisions_refused checked
    constructor
    · intro ok
      rw [bad] at ok
      cases ok
    · exact fun all => absurd (all.1 entry member) unchecked
  | ok selected =>
    obtain ⟨all, listed⟩ := recheckDecisions_ok checked
    simp only [← listed]
    cases overlap : overlapFrom 0 selected with
    | some j =>
      constructor
      · exact nofun
      · rintro ⟨-, apart⟩
        cases apart
    | none => exact ⟨fun _ => ⟨all, rfl⟩, fun _ => rfl⟩

/-- An entry that differs from its recomputed decision makes the plan invalid, unless the
differences of the entries are all outside the digest and nothing else is wrong. -/
theorem validatePlan_refuses_iff (free : ∀ entry ∈ plan.authorized, ∀ again,
      recomputed sorting candidates view entry = some again →
        Distinguished again.hashed entry.hashed) :
    ((∃ entry ∈ plan.authorized, ∃ again,
        recomputed sorting candidates view entry = some again ∧ entry ≠ again) →
      (validatePlan sorting plan candidates view).isOk = false) ↔
    (∀ entry ∈ plan.authorized, ∀ again,
        recomputed sorting candidates view entry = some again → entry = again) ∨
      (∃ entry ∈ plan.authorized, ¬ ∃ again,
        recomputed sorting candidates view entry = some again ∧ again.isAuthoritative = true ∧
          again.SameBound entry) ∨
      overlapFrom 0 (plan.authorized.filterMap (requestOf candidates)) ≠ none := by
  have bound : ∀ entry ∈ plan.authorized, Rechecked sorting candidates view entry ↔
      ∃ again, recomputed sorting candidates view entry = some again ∧
        again.isAuthoritative = true ∧ again.SameBound entry := by
    intro entry member
    constructor
    · rintro ⟨again, found, granted, same⟩
      exact ⟨again, found, granted,
        (AuthorityDecision.digest_iff (free entry member again found)).mp same⟩
    · rintro ⟨again, found, granted, same⟩
      exact ⟨again, found, granted,
        (AuthorityDecision.digest_iff (free entry member again found)).mpr same⟩
  cases verdict : (validatePlan sorting plan candidates view).isOk with
  | false =>
    refine ⟨fun _ => .inr ?_, fun _ _ => rfl⟩
    by_contra sound
    push Not at sound
    have ok := validatePlan_ok_iff.mpr
      ⟨fun entry member => (bound entry member).mpr (sound.1 entry member), sound.2⟩
    rw [verdict] at ok
    cases ok
  | true =>
    obtain ⟨all, apart⟩ := validatePlan_ok_iff.mp verdict
    constructor
    · intro refused
      left
      intro entry member again found
      by_contra differ
      cases refused ⟨entry, member, again, found, differ⟩
    · rintro (equal | ⟨entry, member, unbound⟩ | overlap) ⟨other, inside, again, found, differ⟩
      · exact absurd (equal other inside again found) differ
      · exact absurd ((bound entry member).mp (all entry member)) unbound
      · exact absurd apart overlap

end Plans

/-- The digest tells two decisions apart, on the wire and in the validator of plans, exactly
where they differ in a field under it. -/
theorem digest_binds_iff (d d₂ : AuthorityDecision) (sorting : Sorting) (plan : AuthorityPlan)
    (candidates : List AuthorityRequest) (view : ArbiterView) :
    (d₂.explanation.Kept → Distinguished d.hashed d₂.hashed →
      ((d₂ ≠ d → ∃ e,
          Reader.decode AuthorityDecision.decode (withDigest d₂.encode d.digest) = .error e) ↔
        d₂ = d ∨ ¬ d₂.Listed ∨ ¬ d.SameBound d₂)) ∧
    ((∀ entry ∈ plan.authorized, ∀ again,
        recomputed sorting candidates view entry = some again →
          Distinguished again.hashed entry.hashed) →
      (((∃ entry ∈ plan.authorized, ∃ again,
          recomputed sorting candidates view entry = some again ∧ entry ≠ again) →
        (validatePlan sorting plan candidates view).isOk = false) ↔
      (∀ entry ∈ plan.authorized, ∀ again,
          recomputed sorting candidates view entry = some again → entry = again) ∨
        (∃ entry ∈ plan.authorized, ¬ ∃ again,
          recomputed sorting candidates view entry = some again ∧ again.isAuthoritative = true ∧
            again.SameBound entry) ∨
        overlapFrom 0 (plan.authorized.filterMap (requestOf candidates)) ≠ none)) :=
  ⟨fun kept free => AuthorityDecision.transplant_refused_iff kept free,
    fun free => validatePlan_refuses_iff free⟩

theorem boundExtent_named : (Id.make [112] : ExtentId).isEmpty = false := by decide

def sampleDecision : AuthorityDecision where
  verdict := .authoritative
  vector := { domain := Id.make [100], epoch := 3, incarnation := 4, fenceToken := 5, grant := 6 }
  claim := Id.make [97]
  scope := Scope.single (Id.make [112]) boundExtent_named
  validFrom := 10
  validUntil := 200

/-- The same grant for another claim, and without an end. -/
def transplantedDecision : AuthorityDecision :=
  { sampleDecision with claim := Id.make [98], validUntil := maxWord }

def laterDecision : AuthorityDecision := { sampleDecision with decisionSequence := 2 }

/-- The grant of a plan as the planner has it, and with another sequence. -/
def plannedDecision : AuthorityDecision :=
  decideAuthority {} (soloRequest 97 120 2) (soloView []).isolated

def resequencedDecision : AuthorityDecision := { plannedDecision with decisionSequence := 2 }

theorem recomputed_resequenced :
    recomputed {} [soloRequest 97 120 2] (soloView []) resequencedDecision =
      some plannedDecision := by
  have found : requestOf [soloRequest 97 120 2] resequencedDecision =
      some (soloRequest 97 120 2) := List.find?_cons_of_pos (by decide +kernel)
  rw [recomputed, found]
  rfl

/-- A decision of another sequence passes neither under the digest nor in a plan. -/
theorem digest_binds_iff_sequence :
    (∃ e, Reader.decode AuthorityDecision.decode
      (withDigest laterDecision.encode sampleDecision.digest) = .error e) ∧
    (validatePlan {} { authorized := [resequencedDecision] } [soloRequest 97 120 2]
      (soloView [])).isOk = false := by
  have apart : Digest256.of sampleDecision.hashed ≠ Digest256.of laterDecision.hashed := by
    decide +kernel
  have free : Distinguished sampleDecision.hashed laterDecision.hashed :=
    fun same => absurd same apart
  have kept : laterDecision.explanation.Kept := Explanation.kept_gather []
  have apart' : Digest256.of plannedDecision.hashed ≠ Digest256.of resequencedDecision.hashed := by
    decide +kernel
  have differ : plannedDecision.decisionSequence ≠ resequencedDecision.decisionSequence := by
    decide +kernel
  obtain ⟨transplant, plans⟩ := digest_binds_iff sampleDecision laterDecision {}
    { authorized := [resequencedDecision] } [soloRequest 97 120 2] (soloView [])
  constructor
  · refine (transplant kept free).mpr (.inr (.inr ?_)) (by decide)
    intro same
    exact absurd same.decisionSequence (by decide)
  · refine (plans ?_).mpr (.inr (.inl ⟨_, List.mem_singleton_self _, ?_⟩))
      ⟨_, List.mem_singleton_self _, _, recomputed_resequenced, fun same => differ (by rw [same])⟩
    · intro entry member again found
      obtain rfl := List.mem_singleton.mp member
      obtain rfl := Option.some.inj (recomputed_resequenced.symm.trans found)
      exact fun same => absurd same apart'
    · rintro ⟨again, found, -, bound⟩
      obtain rfl := Option.some.inj (recomputed_resequenced.symm.trans found)
      exact differ bound.decisionSequence

theorem digest_binds_fails : ¬ ∀ d d₂ : AuthorityDecision, d₂.explanation.Kept →
    Distinguished d.hashed d₂.hashed → d₂ ≠ d →
      ∃ e, Reader.decode AuthorityDecision.decode (withDigest d₂.encode d.digest) = .error e := by
  intro claim
  have same : sampleDecision.hashed = transplantedDecision.hashed :=
    AuthorityDecision.hashed_iff.mpr ⟨rfl, rfl, rfl, rfl, rfl⟩
  have kept : transplantedDecision.explanation.Kept := Explanation.kept_gather []
  have listed : transplantedDecision.Listed := ⟨by decide, nofun, by decide, nofun⟩
  obtain ⟨e, refused⟩ := claim sampleDecision transplantedDecision kept (fun _ => same) (by decide)
  obtain ⟨d', accepted⟩ := (AuthorityDecision.decode_withDigest kept sampleDecision.digest).mpr
    ⟨listed, congrArg Digest256.of same⟩
  rw [refused] at accepted
  cases accepted

end SplitBrainFabric
