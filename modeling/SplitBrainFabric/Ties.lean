import SplitBrainFabric.Arrival
import SplitBrainFabric.Library.Choice

/-! Ties. Two statements of one witness with the same sort key are told apart by their order
alone, so what comes to count is a choice of one among the tied statements of each witness. -/

namespace SplitBrainFabric
open Words

section Choices

variable {l arrival sorted counting : List WitnessAttestation} {a b : WitnessAttestation}

/-- The witnesses named in a bundle, in order. -/
def speakers (l : List WitnessAttestation) : List WitnessId :=
  (considered (canonicalOrder l)).map (·.witness)

/-- A statement that may come to count for a witness. -/
def Voices (l : List WitnessAttestation) (w : WitnessId) (a : WitnessAttestation) : Prop :=
  Heads l a ∧ a.witness = w

/-- One statement for every witness, of those that may count. -/
abbrev Selected (l counting : List WitnessAttestation) : Prop :=
  Choice.Chosen (Voices l) (speakers l) counting

theorem Canonical.keys (canonical : Canonical arrival sorted) :
    sorted.Pairwise fun a b => a.sortKey ≤ b.sortKey :=
  canonical.ordered.imp fun h => attestationLess_eq_false.mp h

theorem sortKey_le_witness (below : a.sortKey ≤ b.sortKey) : a.witness ≤ b.witness := by
  rcases Prod.Lex.toLex_le_toLex.mp below with less | ⟨same, -⟩
  · exact le_of_lt less
  · exact le_of_eq same

theorem considered_sublist (l : List WitnessAttestation) : (considered l).Sublist l := by
  have kept := (List.filter_sublist (p := fun p : WitnessAttestation × Nat =>
    !p.1.witness.isEmpty && !((latestIndex l).find p.1.witness).any
      fun entry => decide (entry.index ≠ p.2)) (l := l.zipIdx)).map Prod.fst
  rwa [List.zipIdx_map_fst] at kept

theorem considered_sorted (sorted : l.Pairwise fun a b => a.sortKey ≤ b.sortKey) :
    (considered l).Pairwise fun a b => a.witness ≤ b.witness :=
  (sorted.sublist (considered_sublist l)).imp sortKey_le_witness

theorem mem_considered_witness {w : WitnessId} :
    w ∈ (considered l).map (·.witness) ↔ w.isEmpty = false ∧ ∃ a ∈ l, a.witness = w := by
  rw [List.mem_map]
  constructor
  · rintro ⟨a, member, rfl⟩
    exact ⟨(mem_considered.mp member).1, a, considered_subset member, rfl⟩
  · rintro ⟨named, a, member, rfl⟩
    exact exists_considered member named

theorem mem_speakers {w : WitnessId} :
    w ∈ speakers l ↔ w.isEmpty = false ∧ ∃ a ∈ l, a.witness = w := by
  rw [speakers, mem_considered_witness]
  exact and_congr_right fun _ => exists_congr fun a => and_congr_left fun _ => mem_canonicalOrder

/-- However the ties are broken, the witnesses come in the same order. -/
theorem considered_speakers (ordered : sorted.Pairwise fun a b => a.sortKey ≤ b.sortKey)
    (spoken : ∀ w, (∃ a ∈ sorted, a.witness = w) ↔ ∃ a ∈ l, a.witness = w) :
    (considered sorted).map (·.witness) = speakers l := by
  have distinct := considered_nodup sorted
  have same : ((considered sorted).map (·.witness)).Perm (speakers l) := by
    refine (List.perm_ext_iff_of_nodup distinct (considered_nodup _)).mpr fun w => ?_
    rw [mem_considered_witness, spoken]
    exact mem_speakers.symm
  refine same.eq_of_pairwise (fun _ _ _ _ => le_antisymm) ?_ ?_
  · exact List.pairwise_map.mpr (considered_sorted ordered)
  · exact List.pairwise_map.mpr (considered_sorted (canonicalOrder_sorted l))

/-- What counts in a sorted bundle is one of the possible choices. -/
theorem selected_of_sorted (perm : sorted.Perm l)
    (ordered : sorted.Pairwise fun a b => a.sortKey ≤ b.sortKey) :
    Selected l (considered sorted) := by
  have witnesses := considered_speakers (l := l) ordered fun w =>
    exists_congr fun a => and_congr_left fun _ => perm.mem_iff
  rw [Selected, Choice.Chosen, ← witnesses, List.forall₂_map_left_iff, List.forall₂_same]
  intro a member
  obtain ⟨-, i, leads⟩ := mem_considered.mp member
  exact ⟨(leads.heads ordered).congr fun x => perm.mem_iff.symm, rfl⟩

theorem selected_canonical (perm : arrival.Perm l) :
    Selected l (considered (canonicalOrder arrival)) :=
  selected_of_sorted ((canonicalOrder_perm arrival).trans perm) (canonicalOrder_sorted arrival)

theorem Selected.witnesses (selected : Selected l counting) :
    counting.map (·.witness) = speakers l := by
  have pairs : List.Forall₂ (· = ·) (speakers l) (counting.map (·.witness)) := by
    rw [List.forall₂_map_right_iff]
    exact List.Forall₂.imp (fun w a voices => voices.2.symm) selected
  exact (List.forall₂_eq_eq_eq ▸ pairs).symm

theorem Selected.length_eq (selected : Selected l counting) :
    counting.length = (speakers l).length := (List.Forall₂.length_eq selected).symm

theorem Selected.length_le (selected : Selected l counting) : counting.length ≤ l.length := by
  rw [selected.length_eq, speakers, List.length_map]
  exact (considered_short _).trans (canonicalOrder_perm _).length_eq.le

/-- Every choice is what counts in some canonical order: the chosen statements first. -/
theorem selected_realised (selected : Selected l counting) :
    ∃ sorted, Canonical l sorted ∧ considered sorted = counting := by
  have witnesses := selected.witnesses
  have distinct : (counting.map (·.witness)).Nodup := witnesses ▸ considered_nodup _
  have heads : ∀ a ∈ counting, a.witness.isEmpty = false ∧ Heads l a := by
    intro a member
    obtain ⟨w, speaks, heads, rfl⟩ := selected.class_of member
    exact ⟨(mem_speakers.mp speaks).1, heads⟩
  have part : counting.Subperm l :=
    List.subperm_of_subset distinct.of_map fun a member => (heads a member).2.mem
  obtain ⟨picked, same, inside⟩ := part
  obtain ⟨rest, whole⟩ := inside.exists_perm_append
  have perm : (counting ++ rest).Perm l := ((same.symm.append_right rest).trans whole.symm)
  refine ⟨canonicalOrder (counting ++ rest), ⟨(canonicalOrder_perm _).trans perm,
    (canonicalOrder_sorted _).imp attestationLess_eq_false.mpr⟩, ?_⟩
  have counts : counting ⊆ considered (canonicalOrder (counting ++ rest)) := by
    intro a member
    obtain ⟨named, heads⟩ := heads a member
    refine mem_considered_canonical.mpr ⟨named, heads.congr fun x => perm.mem_iff, ?_⟩
    cases found : firstWith (counting ++ rest) a with
    | none =>
      have missed := List.find?_eq_none.mp found a (List.mem_append_left _ member)
      simp at missed
    | some b =>
      have first : firstWith counting a = some b := by
        rw [firstWith, List.find?_append] at found
        rcases Option.or_eq_some_iff.mp found with early | ⟨never, -⟩
        · exact early
        · have missed := List.find?_eq_none.mp never a member
          simp at missed
      obtain ⟨hit, -⟩ := List.find?_eq_some_iff_append.mp first
      exact congrArg some (List.inj_on_of_nodup_map distinct (List.mem_of_find?_eq_some first)
        member (sortKey_witness (of_decide_eq_true hit)))
  have rival := selected_canonical perm
  have length := selected.length_eq.trans rival.length_eq.symm
  have agree :=
    (List.subperm_of_subset distinct.of_map counts).perm_of_length_le (le_of_eq length.symm)
  refine (KeySort.eq_of_distinct distinct ?_ ?_ agree).symm
  · have ordered := List.pairwise_map.mpr (considered_sorted (canonicalOrder_sorted l))
    rw [← speakers, ← witnesses] at ordered
    exact List.pairwise_map.mp ordered
  · exact considered_sorted (canonicalOrder_sorted _)

/-- However the sort breaks ties, statements arrive in some order that leaves a choice. -/
theorem selected_arrives (sorting : Sorting) (selected : Selected l counting) :
    ∃ arrival, arrival.Perm l ∧ considered (sorting.canonical arrival) = counting := by
  obtain ⟨sorted, canonical, rfl⟩ := selected_realised selected
  obtain ⟨arrival, perm, left⟩ := sorting.statements.exists_arrival canonical.keys
  exact ⟨arrival, perm.trans canonical.perm, congrArg considered left⟩

end Choices

/-- Two statements of one witness that only their order of arrival tells apart. -/
structure Tied (l : List WitnessAttestation) (a b : WitnessAttestation) : Prop where
  left : Heads l a
  right : Heads l b
  same : a.witness = b.witness
  named : a.witness.isEmpty = false

/-- Whichever statements come to count, one of them has the property. -/
def Assured (l : List WitnessAttestation) (property : WitnessAttestation → Prop) : Prop :=
  ∃ a, Heads l a ∧ a.witness.isEmpty = false ∧ ∀ b, Tied l a b → property b

instance (l : List WitnessAttestation) : DecidablePred (Heads l) := fun a =>
  decidable_of_iff (a ∈ l ∧ (∀ b ∈ l, b.witness = a.witness → b.witnessSequence ≤ a.witnessSequence) ∧
      ∀ b ∈ l, b.witness = a.witness → b.witnessSequence = a.witnessSequence →
        a.sortKey ≤ b.sortKey)
    ⟨fun h => ⟨h.1, h.2.1, h.2.2⟩, fun h => ⟨h.mem, h.newest, h.least⟩⟩

theorem tied_iff {l : List WitnessAttestation} {p : WitnessAttestation → WitnessAttestation → Prop} :
    (∀ w ∈ speakers l, ∀ a b, Voices l w a → Voices l w b → p a b) ↔ ∀ a b, Tied l a b → p a b := by
  constructor
  · intro all a b tied
    have speaks : a.witness ∈ speakers l := mem_speakers.mpr ⟨tied.named, a, tied.left.mem, rfl⟩
    exact all a.witness speaks a b ⟨tied.left, rfl⟩ ⟨tied.right, tied.same.symm⟩
  · rintro all w speaks a b ⟨heads, rfl⟩ ⟨heads', same⟩
    exact all a b ⟨heads, heads', same.symm, (mem_speakers.mp speaks).1⟩

theorem assured_iff {l : List WitnessAttestation} {p : WitnessAttestation → Prop} :
    (∃ w ∈ speakers l, ∀ a, Voices l w a → p a) ↔ Assured l p := by
  constructor
  · rintro ⟨w, speaks, all⟩
    obtain ⟨named, a, member, rfl⟩ := mem_speakers.mp speaks
    obtain ⟨b, heads, same⟩ := exists_heads member
    exact ⟨b, heads, same ▸ named, fun c tied => all c ⟨tied.right, tied.same.symm.trans same⟩⟩
  · rintro ⟨a, heads, named, all⟩
    refine ⟨a.witness, mem_speakers.mpr ⟨named, a, heads.mem, rfl⟩, fun b voices => ?_⟩
    exact all b ⟨heads, voices.1, voices.2.symm, named⟩

end SplitBrainFabric
