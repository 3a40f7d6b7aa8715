import SplitBrainFabric.Capacity
import SplitBrainFabric.Library.Metered
import SplitBrainFabric.Library.Runs
import SplitBrainFabric.Library.SortedMerge
import SplitBrainFabric.Library.SortedRuns
import SplitBrainFabric.Library.SortedTable
import Mathlib.Data.List.ProdSigma
import Mathlib.Data.Prod.Lex

/-! The overlap index: a bounded sorted vector of extents and the claims on them. Its
answers are exact, or it says that the budget ran out. -/

namespace SplitBrainFabric
open Words

inductive SearchResult where
  | found | absent | indeterminate
  deriving DecidableEq

/-- An entry, ordered by its extent and then by its claim. -/
structure IndexEntry where
  extent : ExtentId
  claim : ClaimId

namespace IndexEntry

def key (e : IndexEntry) : ExtentId ×ₗ ClaimId := toLex (e.extent, e.claim)

theorem key_injective : Function.Injective key := by
  rintro ⟨extent, claim⟩ ⟨extent', claim'⟩ same
  obtain ⟨rfl, rfl⟩ := Prod.mk.inj (toLex.injective same)
  rfl

instance : LinearOrder IndexEntry := LinearOrder.lift' key key_injective

theorem lt_iff {a b : IndexEntry} :
    a < b ↔ a.extent < b.extent ∨ a.extent = b.extent ∧ a.claim < b.claim := Prod.Lex.lt_iff

theorem extent_le {a b : IndexEntry} (below : a < b) : a.extent ≤ b.extent := by
  rcases lt_iff.mp below with less | ⟨same, -⟩
  · exact le_of_lt less
  · exact le_of_eq same

end IndexEntry

structure ScopeIndex where
  entries : SortedTable (id : IndexEntry → IndexEntry)
  bounded : entries.size ≤ Limits.maxIndexedExtents
  named : ∀ e ∈ entries.rows, e.claim.isEmpty = false

namespace ScopeIndex

@[ext] theorem ext {a b : ScopeIndex} (rows : a.entries.rows = b.entries.rows) : a = b := by
  cases a; cases b; cases SortedTable.ext rows; rfl

def empty : ScopeIndex := ⟨SortedTable.empty, Nat.zero_le _, nofun⟩

def size (index : ScopeIndex) : Nat := index.entries.size

/-- An entry that is there already stays as it is. -/
def insert (index : ScopeIndex) (e : IndexEntry) (named : e.claim.isEmpty = false)
    (room : index.size < Limits.maxIndexedExtents) : ScopeIndex where
  entries := index.entries.emplace e
  bounded := (SortedTable.size_emplace_le index.entries e).trans room
  named := fun x member => by
    rcases SortedTable.mem_emplace.mp member with rfl | old
    · exact named
    · exact index.named x old

/-- The capacity is looked at before the entry is, one extent at a time. -/
def addLoop (claim : ClaimId) (named : claim.isEmpty = false) :
    List ExtentId → ScopeIndex → Status × ScopeIndex
  | [], index => (.ok, index)
  | extent :: rest, index =>
    if room : index.size < Limits.maxIndexedExtents then
      addLoop claim named rest (index.insert ⟨extent, claim⟩ named room)
    else (.make .exhausted .boundedTableFull (UInt64.ofNat index.size), index)

def add (index : ScopeIndex) (claim : ClaimId) (scope : Scope) : Status × ScopeIndex :=
  if named : claim.isEmpty = false then
    if scope.isEmpty = true then (.make .invalid .emptyExtentSet, index)
    else addLoop claim named scope.extents index
  else (.make .invalid .emptyValue, index)

def remove (index : ScopeIndex) (claim : ClaimId) : Status × ScopeIndex :=
  (.ok, {
    entries := ⟨index.entries.rows.filter fun e => decide (e.claim ≠ claim),
      index.entries.sorted.filter _⟩
    bounded := (List.length_filter_le _ _).trans index.bounded
    named := fun e member => index.named e (List.mem_filter.mp member).1 })

/-- The entries from the lower bound of an extent to the end of its run. -/
def run (index : ScopeIndex) (extent : ExtentId) : List IndexEntry :=
  (index.entries.rows.dropWhile fun e => decide (e < ⟨extent, Id.empty⟩)).takeWhile fun e =>
    decide (e.extent = extent)

/-- Sorted and without repetitions, unless the budget ran out. -/
def answer {α : Type} [LinearOrder α] (visited : Option (UInt64 × List α)) :
    SearchResult × List α :=
  match visited with
  | none => (.indeterminate, [])
  | some (_, out) =>
    let out := (out.insertionSort (· ≤ ·)).destutter (· ≠ ·)
    (if out = [] then .absent else .found, out)

def query (index : ScopeIndex) (q : Scope) (budget : UInt64) : SearchResult × List ClaimId :=
  answer (q.extents.foldlM
    (fun s extent => Metered.visit budget (fun e => some e.claim) (index.run extent) s) (0, []))

/-- The two inner loops over a run of equal extents. -/
def pairRun (budget : UInt64) : List IndexEntry → UInt64 × List (ClaimId ×ₗ ClaimId) →
    Option (UInt64 × List (ClaimId ×ₗ ClaimId))
  | [], s => some s
  | a :: rest, s => do
    let s ← Metered.visit budget (fun b => if a.claim = b.claim then none
      else some (toLex (a.claim, b.claim))) rest s
    pairRun budget rest s

/-- The outer loop; each turn is past one run. -/
def pairLoop (budget : UInt64) : Nat → List IndexEntry → UInt64 × List (ClaimId ×ₗ ClaimId) →
    Option (UInt64 × List (ClaimId ×ₗ ClaimId))
  | turns + 1, e :: rest, s => do
    let s ← pairRun budget ((e :: rest).takeWhile fun x => decide (x.extent = e.extent)) s
    pairLoop budget turns ((e :: rest).dropWhile fun x => decide (x.extent = e.extent)) s
  | _, _, s => some s

def overlappingPairs (index : ScopeIndex) (budget : UInt64) :
    SearchResult × List (ClaimId ×ₗ ClaimId) :=
  answer (pairLoop budget index.entries.rows.length index.entries.rows (0, []))

section Add

variable {index next : ScopeIndex} {claim : ClaimId} {named : claim.isEmpty = false}

theorem mem_insert {e x : IndexEntry} {named : e.claim.isEmpty = false}
    {room : index.size < Limits.maxIndexedExtents} :
    x ∈ (index.insert e named room).entries.rows ↔ x = e ∨ x ∈ index.entries.rows :=
  SortedTable.mem_emplace

theorem size_insert (e : IndexEntry) (named : e.claim.isEmpty = false)
    (room : index.size < Limits.maxIndexedExtents) :
    (index.insert e named room).size =
      if e ∈ index.entries.rows then index.size else index.size + 1 :=
  SortedTable.size_emplace index.entries e

theorem insert_present {e : IndexEntry} {named : e.claim.isEmpty = false}
    {room : index.size < Limits.maxIndexedExtents} (present : e ∈ index.entries.rows) :
    index.insert e named room = index := by
  apply ext
  have same := SortedTable.put_self (SortedTable.find_mem present)
  exact congrArg SortedTable.rows ((SortedTable.emplace_eq_put index.entries e).trans same)

theorem addLoop_mem {l : List ExtentId} (added : addLoop claim named l index = (.ok, next))
    (x : IndexEntry) :
    x ∈ next.entries.rows ↔ x ∈ index.entries.rows ∨ x.claim = claim ∧ x.extent ∈ l := by
  induction l generalizing index with
  | nil =>
    cases added
    simp
  | cons extent rest ih =>
    unfold addLoop at added
    split at added
    · rw [ih added, mem_insert, List.mem_cons]
      constructor
      · rintro ((rfl | old) | ⟨mine, later⟩)
        · exact .inr ⟨rfl, .inl rfl⟩
        · exact .inl old
        · exact .inr ⟨mine, .inr later⟩
      · rintro (old | ⟨mine, here | later⟩)
        · exact .inl (.inr old)
        · exact .inl (.inl (by cases x; cases mine; cases here; rfl))
        · exact .inr ⟨mine, later⟩
    · cases added

theorem addLoop_status (l : List ExtentId)
    (ok : (addLoop claim named l index).1.isOk = true) : (addLoop claim named l index).1 = .ok := by
  induction l generalizing index with
  | nil => rfl
  | cons extent rest ih =>
    unfold addLoop at ok ⊢
    split at ok
    · rename_i room
      rw [dif_pos room]
      exact ih ok
    · cases ok

theorem add_eq {scope : Scope} (named : claim.isEmpty = false) (filled : scope.isEmpty = false) :
    index.add claim scope = addLoop claim named scope.extents index := by
  rw [add, dif_pos named, if_neg (by simp [filled])]

/-- Everything a successful call adds, and nothing else. -/
theorem add_mem {scope : Scope} (added : index.add claim scope = (.ok, next)) (x : IndexEntry) :
    x ∈ next.entries.rows ↔
      x ∈ index.entries.rows ∨ x.claim = claim ∧ x.extent ∈ scope.extents := by
  unfold add at added
  split at added
  · split at added
    · cases added
    · exact addLoop_mem added x
  · cases added

/-- A refusal inside the loop means that the table is full. -/
theorem addLoop_refused {l : List ExtentId}
    (failed : (addLoop claim named l index).1.isOk = false) :
    (addLoop claim named l index).2.size = Limits.maxIndexedExtents := by
  induction l generalizing index with
  | nil => cases failed
  | cons extent rest ih =>
    unfold addLoop at failed ⊢
    split at failed
    · rename_i room
      rw [dif_pos room]
      exact ih failed
    · rename_i full
      rw [dif_neg full]
      exact le_antisymm index.bounded (Nat.not_lt.mp full)

/-- The listed extents the claim is not yet indexed for. -/
def missing (index : ScopeIndex) (claim : ClaimId) (l : List ExtentId) : List ExtentId :=
  l.filter fun extent => decide (⟨extent, claim⟩ ∉ index.entries.rows)

theorem missing_insert {l : List ExtentId} {extent : ExtentId} (fresh : extent ∉ l)
    (room : index.size < Limits.maxIndexedExtents) :
    (index.insert ⟨extent, claim⟩ named room).missing claim l = index.missing claim l := by
  apply List.filter_congr
  intro other member
  have differ : (⟨other, claim⟩ : IndexEntry) ≠ ⟨extent, claim⟩ := by
    intro same
    exact fresh ((IndexEntry.mk.inj same).1 ▸ member)
  simp only [mem_insert, differ, false_or]

/-- The loop gets through exactly if what it adds before the last extent leaves room. -/
theorem addLoop_ok_iff {l : List ExtentId} (distinct : l.Nodup) :
    (addLoop claim named l index).1.isOk = true ↔
      l = [] ∨ index.size + (index.missing claim l.dropLast).length < Limits.maxIndexedExtents := by
  induction l generalizing index with
  | nil => simp [addLoop]
  | cons extent rest ih =>
    obtain ⟨fresh, later⟩ := List.nodup_cons.mp distinct
    unfold addLoop
    split
    · rename_i room
      rw [ih later, size_insert]
      cases rest with
      | nil => simp [missing, room]
      | cons second rest =>
        have fresh' : extent ∉ (second :: rest).dropLast :=
          fun member => fresh ((List.dropLast_sublist _).mem member)
        rw [missing_insert fresh', List.dropLast_cons_cons]
        simp only [reduceCtorEq, false_or]
        by_cases present : (⟨extent, claim⟩ : IndexEntry) ∈ index.entries.rows
        · have same : index.missing claim (extent :: (second :: rest).dropLast) =
              index.missing claim (second :: rest).dropLast :=
            List.filter_cons_of_neg (by simpa using present)
          rw [if_pos present, same]
        · have more : index.missing claim (extent :: (second :: rest).dropLast) =
              extent :: index.missing claim (second :: rest).dropLast :=
            List.filter_cons_of_pos (by simpa using present)
          rw [if_neg present, more, List.length_cons]
          omega
    · rename_i full
      have reached := Nat.not_lt.mp full
      simp only [Status.isOk, Status.make, reduceCtorEq, decide_false, Bool.false_eq_true,
        List.cons_ne_nil, false_or, false_iff, Nat.not_lt]
      omega

theorem extents_nodup (scope : Scope) : scope.extents.Nodup := scope.sorted.imp ne_of_lt

theorem add_ok_iff {scope : Scope} (named : claim.isEmpty = false)
    (filled : scope.isEmpty = false) : (index.add claim scope).1.isOk = true ↔
      index.size + (index.missing claim scope.extents.dropLast).length <
        Limits.maxIndexedExtents := by
  have some : scope.extents ≠ [] := by
    obtain ⟨e, member⟩ := Scope.exists_extent filled
    exact List.ne_nil_of_mem member
  rw [add_eq named filled, addLoop_ok_iff (extents_nodup scope), or_iff_right some]

theorem addLoop_present {l : List ExtentId} (room : index.size < Limits.maxIndexedExtents)
    (present : ∀ e ∈ l, (⟨e, claim⟩ : IndexEntry) ∈ index.entries.rows) :
    addLoop claim named l index = (.ok, index) := by
  induction l with
  | nil => rfl
  | cons extent rest ih =>
    have later := ih fun e member => present e (List.mem_cons_of_mem extent member)
    rw [addLoop, dif_pos room, insert_present (present extent List.mem_cons_self), later]

theorem addLoop_size {l : List ExtentId} (distinct : l.Nodup)
    (ok : (addLoop claim named l index).1.isOk = true) :
    (addLoop claim named l index).2.size = index.size + (index.missing claim l).length := by
  induction l generalizing index with
  | nil => rfl
  | cons extent rest ih =>
    obtain ⟨fresh, later⟩ := List.nodup_cons.mp distinct
    unfold addLoop at ok ⊢
    split at ok
    · rename_i room
      rw [dif_pos room, ih later ok, missing_insert fresh, size_insert]
      by_cases present : (⟨extent, claim⟩ : IndexEntry) ∈ index.entries.rows
      · have same : index.missing claim (extent :: rest) = index.missing claim rest :=
          List.filter_cons_of_neg (by simpa using present)
        rw [if_pos present, same]
      · have more : index.missing claim (extent :: rest) = extent :: index.missing claim rest :=
          List.filter_cons_of_pos (by simpa using present)
        rw [if_neg present, more, List.length_cons]
        omega
    · cases ok

/-- A successful call makes the table larger by what was missing. -/
theorem add_size {scope : Scope} (named : claim.isEmpty = false) (filled : scope.isEmpty = false)
    (ok : (index.add claim scope).1.isOk = true) :
    (index.add claim scope).1 = .ok ∧
      (index.add claim scope).2.size = index.size + (index.missing claim scope.extents).length := by
  rw [add_eq named filled] at ok ⊢
  exact ⟨addLoop_status _ ok, addLoop_size (extents_nodup scope) ok⟩

/-- Every extent of the scope is indexed for the claim. -/
structure Covers (index : ScopeIndex) (claim : ClaimId) (scope : Scope) : Prop where
  filled : scope.isEmpty = false
  indexed : ∀ e ∈ scope.extents, (⟨e, claim⟩ : IndexEntry) ∈ index.entries.rows

theorem Covers.claim_named {scope : Scope} (covers : index.Covers claim scope) :
    claim.isEmpty = false := by
  obtain ⟨e, member⟩ := Scope.exists_extent covers.filled
  exact index.named _ (covers.indexed e member)

/-- A refusal leaves no trace, and what is indexed already is accepted as it is. -/
def Clean (index : ScopeIndex) (claim : ClaimId) (scope : Scope) : Prop :=
  ((index.add claim scope).1.isOk = false → (index.add claim scope).2 = index) ∧
    (index.Covers claim scope → index.add claim scope = (.ok, index))

theorem add_clean_iff (index : ScopeIndex) (claim : ClaimId) (scope : Scope) :
    index.Clean claim scope ↔
      claim.isEmpty = true ∨ scope.isEmpty = true ∨
        index.size + (index.missing claim scope.extents.dropLast).length <
          Limits.maxIndexedExtents ∨
        index.size = Limits.maxIndexedExtents ∧ ¬ index.Covers claim scope := by
  by_cases named : claim.isEmpty = false
  case neg =>
    have unnamed : claim.isEmpty = true := by simpa using named
    refine iff_of_true ⟨fun _ => ?_, fun covers => absurd covers.claim_named named⟩ (.inl unnamed)
    rw [add, dif_neg named]
  by_cases bare : scope.isEmpty = true
  · refine iff_of_true ⟨fun _ => ?_, fun covers => ?_⟩ (.inr (.inl bare))
    · rw [add, dif_pos named, if_pos bare]
    · exact absurd bare (by simp [covers.filled])
  have filled : scope.isEmpty = false := by simpa using bare
  have looped := @add_eq index claim scope named filled
  have ok := @add_ok_iff index claim scope named filled
  rw [or_iff_right (by simp [named]), or_iff_right bare, ← ok]
  have bounded : index.size ≤ Limits.maxIndexedExtents := index.bounded
  rcases Nat.lt_or_eq_of_le bounded with room | full
  · have apart : ¬ (index.size = Limits.maxIndexedExtents ∧ ¬ index.Covers claim scope) :=
      fun both => absurd both.1 (Nat.ne_of_lt room)
    rw [or_iff_left apart]
    constructor
    · rintro ⟨untouched, -⟩
      by_contra refused
      have failed : (index.add claim scope).1.isOk = false := by simpa using refused
      have same := untouched failed
      rw [looped] at same failed
      have reached := addLoop_refused failed
      rw [same] at reached
      exact absurd reached (Nat.ne_of_lt room)
    · intro accepted
      refine ⟨fun failed => absurd accepted (by simp [failed]), fun covers => ?_⟩
      rw [looped]
      exact addLoop_present room covers.indexed
  · obtain ⟨e, rest, listed⟩ : ∃ e rest, scope.extents = e :: rest := by
      obtain ⟨e, member⟩ := Scope.exists_extent filled
      exact List.exists_cons_of_ne_nil (List.ne_nil_of_mem member)
    have refused : index.add claim scope =
        (.make .exhausted .boundedTableFull (UInt64.ofNat index.size), index) := by
      rw [looped, listed, addLoop, dif_neg (Nat.not_lt.mpr full.ge)]
    have failed : ¬ (index.add claim scope).1.isOk = true := by simp [refused, Status.isOk,
      Status.make]
    rw [or_iff_right failed, and_iff_right full]
    constructor
    · rintro ⟨-, accepted⟩ covers
      rw [accepted covers] at failed
      exact failed rfl
    · intro uncovered
      exact ⟨fun _ => by rw [refused], fun covers => absurd covers uncovered⟩

end Add

/-- A call that changes the index. -/
inductive Call where
  | add (claim : ClaimId) (scope : Scope)
  | remove (claim : ClaimId)

def call (index : ScopeIndex) : Call → Status × ScopeIndex
  | .add claim scope => index.add claim scope
  | .remove claim => index.remove claim

def step (index : ScopeIndex) (c : Call) : ScopeIndex := (index.call c).2

def Succeeds (index : ScopeIndex) (c : Call) : Prop := (index.call c).1 = .ok

instance (index : ScopeIndex) (c : Call) : Decidable (index.Succeeds c) :=
  inferInstanceAs (Decidable ((index.call c).1 = .ok))

/-- The index after calls that all succeed. -/
abbrev built (calls : List Call) : ScopeIndex := Runs.run step empty calls

abbrev Builds (calls : List Call) : Prop := Runs.Each step Succeeds empty calls

/-- What a call does to the set of indexed pairs. -/
def Call.update (pairs : Set (ExtentId × ClaimId)) : Call → Set (ExtentId × ClaimId)
  | .add claim scope => pairs ∪ {p | p.1 ∈ scope.extents ∧ p.2 = claim}
  | .remove claim => {p ∈ pairs | p.2 ≠ claim}

/-- The pairs a history of calls leaves indexed. -/
def indexed (calls : List Call) : Set (ExtentId × ClaimId) := calls.foldl Call.update ∅

/-- The index holds this set of pairs. -/
def Holds (index : ScopeIndex) (pairs : Set (ExtentId × ClaimId)) : Prop :=
  ∀ e, e ∈ index.entries.rows ↔ (e.extent, e.claim) ∈ pairs

section History

variable {index : ScopeIndex} {pairs : Set (ExtentId × ClaimId)}

theorem holds_step (holds : index.Holds pairs) {c : Call} (succeeds : index.Succeeds c) :
    (index.step c).Holds (c.update pairs) := by
  intro e
  cases c with
  | add claim scope =>
    have added : index.add claim scope = (.ok, (index.add claim scope).2) := Prod.ext succeeds rfl
    exact (add_mem added e).trans (or_congr (holds e) and_comm)
  | remove claim =>
    have kept : e ∈ (index.remove claim).2.entries.rows ↔
        e ∈ index.entries.rows ∧ e.claim ≠ claim := by simp [remove]
    exact kept.trans (and_congr_left' (holds e))

theorem holds_run (holds : index.Holds pairs) {calls : List Call}
    (succeed : Runs.Each step Succeeds index calls) :
    (Runs.run step index calls).Holds (calls.foldl Call.update pairs) := by
  induction calls generalizing index pairs with
  | nil => exact holds
  | cons c rest ih => exact ih (holds_step holds succeed.1) succeed.2

theorem built_holds {calls : List Call} (builds : Builds calls) :
    (built calls).Holds (indexed calls) := by
  have start : empty.Holds ∅ := fun e => iff_of_false List.not_mem_nil (Set.notMem_empty _)
  exact holds_run start builds

theorem built_add (calls : List Call) (claim : ClaimId) (scope : Scope) :
    built (calls ++ [.add claim scope]) = ((built calls).add claim scope).2 :=
  Runs.run_append empty calls _

theorem builds_add {calls : List Call} {claim : ClaimId} {scope : Scope} (builds : Builds calls)
    (ok : ((built calls).add claim scope).1 = .ok) : Builds (calls ++ [.add claim scope]) :=
  Runs.each_append.mpr ⟨builds, ok, trivial⟩

/-- The entries are determined by the pairs they hold. -/
theorem Holds.unique {other : ScopeIndex} (holds : index.Holds pairs)
    (holds' : other.Holds pairs) : index = other := by
  apply ext
  have perm : index.entries.rows.Perm other.entries.rows := by
    refine (List.perm_ext_iff_of_nodup ?_ ?_).mpr fun e => (holds e).trans (holds' e).symm
    · exact index.entries.sorted.imp ne_of_lt
    · exact other.entries.sorted.imp ne_of_lt
  exact perm.eq_of_pairwise (fun a b _ _ below above => absurd (below.trans above) (lt_irrefl _))
    index.entries.sorted other.entries.sorted

/-- Adds commute. -/
theorem update_perm {adds adds' : List (ClaimId × Scope)} (perm : adds.Perm adds')
    (pairs : Set (ExtentId × ClaimId)) :
    (adds.map fun a => Call.add a.1 a.2).foldl Call.update pairs =
      (adds'.map fun a => Call.add a.1 a.2).foldl Call.update pairs := by
  induction perm generalizing pairs with
  | nil => rfl
  | cons a _ ih => exact ih _
  | swap a b rest =>
    have commute : (Call.add b.1 b.2).update ((Call.add a.1 a.2).update pairs) =
        (Call.add a.1 a.2).update ((Call.add b.1 b.2).update pairs) := Set.union_right_comm _ _ _
    simp only [List.map_cons, List.foldl_cons, commute]
  | trans _ _ ih ih' => exact (ih pairs).trans (ih' pairs)

theorem indexed_perm (before after : List Call) {adds adds' : List (ClaimId × Scope)}
    (perm : adds.Perm adds') :
    indexed (before ++ (adds.map fun a => Call.add a.1 a.2) ++ after) =
      indexed (before ++ (adds'.map fun a => Call.add a.1 a.2) ++ after) := by
  simp only [indexed, List.foldl_append, update_perm perm]

end History

/-- A bounded search over `nodes` nodes answers exactly, or says that it stopped. -/
structure Exact {α : Type} [LinearOrder α] (r : SearchResult × List α) (budget : UInt64)
    (nodes : Nat) (answers : α → Prop) : Prop where
  indeterminate : r.1 = .indeterminate ↔ budget.toNat < nodes
  cleared : r.1 = .indeterminate → r.2 = []
  sorted : r.2.Pairwise (· < ·)
  members : nodes ≤ budget.toNat → ∀ a, a ∈ r.2 ↔ answers a
  absent : r.1 = .absent ↔ nodes ≤ budget.toNat ∧ ∀ a, ¬ answers a
  found : r.1 = .found ↔ nodes ≤ budget.toNat ∧ ∃ a, answers a

theorem Exact.congr {α : Type} [LinearOrder α] {r : SearchResult × List α} {budget : UInt64}
    {nodes : Nat} {answers answers' : α → Prop} (exact' : Exact r budget nodes answers)
    (same : ∀ a, answers a ↔ answers' a) : Exact r budget nodes answers' := by
  have equal : answers = answers' := funext fun a => propext (same a)
  exact equal ▸ exact'

section Search

variable {index : ScopeIndex} {budget : UInt64}

theorem answer_exact {α β : Type} [LinearOrder β] {found : α → Option β} {l : List α}
    (fits : l.length < 2 ^ 64) :
    Exact (answer (Metered.visit budget found l (0, []))) budget l.length
      fun b => ∃ a ∈ l, found a = some b := by
  rw [Metered.visit_start fits]
  by_cases enough : l.length ≤ budget.toNat
  · rw [if_pos enough]
    have members : ∀ b, b ∈ ((l.filterMap found).insertionSort (· ≤ ·)).destutter (· ≠ ·) ↔
        ∃ a ∈ l, found a = some b := fun b => by
      rw [SortedMerge.mem_unique_sort, List.mem_filterMap]
    have filled : (answer (some (UInt64.ofNat l.length, l.filterMap found))).2 = [] ↔
        ∀ b, ¬ ∃ a ∈ l, found a = some b := by
      rw [List.eq_nil_iff_forall_not_mem]
      exact forall_congr' fun b => not_congr (members b)
    have verdict : (answer (some (UInt64.ofNat l.length, l.filterMap found))).1 =
        if (answer (some (UInt64.ofNat l.length, l.filterMap found))).2 = [] then .absent
        else .found := rfl
    refine ⟨?_, ?_, SortedMerge.pairwise_unique_sort _, fun _ => members, ?_, ?_⟩
    · rw [verdict]
      refine iff_of_false ?_ (Nat.not_lt.mpr enough)
      split <;> nofun
    · rw [verdict]
      split <;> nofun
    · rw [verdict, and_iff_right enough, ← filled]
      split
      · rename_i none
        exact iff_of_true rfl none
      · rename_i some
        exact iff_of_false nofun some
    · rw [verdict, and_iff_right enough, ← not_forall_not, ← filled]
      split
      · rename_i none
        exact iff_of_false nofun (not_not.mpr none)
      · rename_i some
        exact iff_of_true rfl some
  · rw [if_neg enough]
    have spent := Nat.not_le.mp enough
    exact ⟨iff_of_true rfl spent, fun _ => rfl, List.Pairwise.nil, fun h => absurd h enough,
      iff_of_false nofun fun both => enough both.1, iff_of_false nofun fun both => enough both.1⟩

/-- The entries a query meets. -/
def matching (index : ScopeIndex) (q : Scope) : List IndexEntry :=
  index.entries.rows.filter fun e => q.containsExtent e.extent

theorem rows_nodup (index : ScopeIndex) : index.entries.rows.Nodup :=
  index.entries.sorted.imp ne_of_lt

theorem rows_by_extent (index : ScopeIndex) :
    index.entries.rows.Pairwise fun a b => a.extent ≤ b.extent :=
  index.entries.sorted.imp IndexEntry.extent_le

theorem run_eq (index : ScopeIndex) (extent : ExtentId) :
    index.run extent = index.entries.rows.filter fun e => decide (e.extent = extent) := by
  have probe : (fun e : IndexEntry => decide (e < ⟨extent, Id.empty⟩)) =
      fun e => decide (e.extent < extent) := by
    funext e
    rw [decide_eq_decide, IndexEntry.lt_iff]
    refine or_iff_left fun both => ?_
    exact absurd both.2 (List.not_lt_nil e.claim.value)
  rw [run, probe]
  exact SortedRuns.run_eq_filter index.rows_by_extent extent

theorem query_exact (index : ScopeIndex) (q : Scope) (budget : UInt64) :
    Exact (index.query q budget) budget (index.matching q).length
      fun c => ∃ x ∈ q.extents, (⟨x, c⟩ : IndexEntry) ∈ index.entries.rows := by
  have perm := @SortedRuns.flatMap_filter_perm _ _ _ IndexEntry.extent _ _
    (q.sorted.imp ne_of_lt) index.rows_nodup
  have visited : index.query q budget = answer (Metered.visit budget (fun e => some e.claim)
      (q.extents.flatMap fun x => index.entries.rows.filter fun e => decide (e.extent = x))
      (0, [])) := by
    simp only [query, run_eq, Metered.foldlM_visit]
  have size : (index.matching q).length < 2 ^ 64 := by
    have few := List.length_filter_le (fun e => decide (e.extent ∈ q.extents)) index.entries.rows
    have bound := index.bounded
    simp only [SortedTable.size, Limits.maxIndexedExtents] at bound
    exact lt_of_le_of_lt (few.trans bound) (by decide)
  have answered := @answer_exact budget _ _ _ (fun e : IndexEntry => some e.claim) _
    (perm.length_eq ▸ size)
  rw [← visited, perm.length_eq] at answered
  refine answered.congr fun c => ?_
  constructor
  · rintro ⟨⟨x, c'⟩, member, same⟩
    obtain ⟨inside, met⟩ := List.mem_filter.mp (perm.mem_iff.mp member)
    cases same
    exact ⟨x, of_decide_eq_true met, inside⟩
  · rintro ⟨x, met, inside⟩
    exact ⟨⟨x, c⟩, perm.mem_iff.mpr (List.mem_filter.mpr ⟨inside, decide_eq_true met⟩), rfl⟩

/-- The claims of a pair, unless they are the same. -/
def claimPair (p : IndexEntry × IndexEntry) : Option (ClaimId ×ₗ ClaimId) :=
  if p.1.claim = p.2.claim then none else some (toLex (p.1.claim, p.2.claim))

theorem pairRun_eq {extent : ExtentId} {l : List IndexEntry}
    (level : ∀ e ∈ l, e.extent = extent) (s : UInt64 × List (ClaimId ×ₗ ClaimId)) :
    pairRun budget l s =
      Metered.visit budget claimPair (SortedRuns.sharing IndexEntry.extent l) s := by
  induction l generalizing s with
  | nil => rfl
  | cons a rest ih =>
    have later : ∀ e ∈ rest, e.extent = extent := fun e member =>
      level e (List.mem_cons_of_mem a member)
    have whole : rest.filter (fun b => decide (b.extent = a.extent)) = rest := by
      rw [List.filter_eq_self]
      exact fun b member => by simp [later b member, level a List.mem_cons_self]
    rw [pairRun, SortedRuns.sharing, whole, Metered.visit_append, Metered.visit_map]
    exact congrArg _ (funext (ih later))

theorem pairLoop_eq {turns : Nat} {l : List IndexEntry}
    (sorted : l.Pairwise fun a b => a.extent ≤ b.extent) (enough : l.length ≤ turns)
    (s : UInt64 × List (ClaimId ×ₗ ClaimId)) :
    pairLoop budget turns l s =
      Metered.visit budget claimPair (SortedRuns.sharing IndexEntry.extent l) s := by
  induction turns generalizing l s with
  | zero =>
    have none : l = [] := List.length_eq_zero_iff.mp (Nat.le_zero.mp enough)
    rw [none]
    rfl
  | succ turns ih =>
    cases l with
    | nil => rfl
    | cons e rest =>
      obtain ⟨head, -⟩ := List.pairwise_cons.mp sorted
      have parts := List.takeWhile_append_dropWhile (p := fun x => decide (x.extent = e.extent))
        (l := e :: rest)
      have level : ∀ x ∈ (e :: rest).takeWhile (fun x => decide (x.extent = e.extent)),
          x.extent = e.extent := fun x member => by simpa using List.mem_takeWhile_imp member
      have least : ∀ x ∈ e :: rest, e.extent ≤ x.extent := by
        intro x member
        rcases List.mem_cons.mp member with rfl | later
        · exact le_rfl
        · exact head x later
      have beyond : ∀ x ∈ (e :: rest).dropWhile (fun x => decide (x.extent = e.extent)),
          e.extent < x.extent := fun x member => SortedRuns.lt_of_mem_dropWhile sorted least member
      have shorter : ((e :: rest).dropWhile fun x => decide (x.extent = e.extent)).length ≤
          turns := by
        rw [List.dropWhile_cons_of_pos (by simp)]
        exact (List.dropWhile_sublist _).length_le.trans (Nat.le_of_succ_le_succ enough)
      have tail := sorted.sublist (List.dropWhile_sublist fun x => decide (x.extent = e.extent))
      have apart : ∀ a ∈ (e :: rest).takeWhile (fun x => decide (x.extent = e.extent)),
          ∀ b ∈ (e :: rest).dropWhile (fun x => decide (x.extent = e.extent)),
          b.extent ≠ a.extent := fun a first b second =>
        level a first ▸ ne_of_gt (beyond b second)
      have split := SortedRuns.sharing_append apart
      rw [parts] at split
      rw [pairLoop, split, Metered.visit_append, pairRun_eq level]
      exact congrArg _ (funext (ih tail shorter))

/-- The pairs of entries on one extent. -/
def coinciding (index : ScopeIndex) : List (IndexEntry × IndexEntry) :=
  (index.entries.rows ×ˢ index.entries.rows).filter fun p =>
    decide (p.1.extent = p.2.extent) && decide (p.1.claim < p.2.claim)

theorem coinciding_perm (index : ScopeIndex) :
    (SortedRuns.sharing IndexEntry.extent index.entries.rows).Perm index.coinciding := by
  have distinct := index.rows_nodup
  refine (List.perm_ext_iff_of_nodup (SortedRuns.nodup_sharing distinct)
    ((distinct.product distinct).filter _)).mpr fun p => ?_
  obtain ⟨a, b⟩ := p
  rw [SortedRuns.mem_sharing index.entries.sorted, List.mem_filter, Bool.and_eq_true,
    decide_eq_true_eq, decide_eq_true_eq, List.mem_product, and_assoc]
  refine and_congr_right fun _ => and_congr_right fun _ => ?_
  constructor
  · rintro ⟨less, same⟩
    refine ⟨same, ?_⟩
    rcases IndexEntry.lt_iff.mp less with lower | ⟨-, below⟩
    · exact absurd same (ne_of_lt lower)
    · exact below
  · exact fun ⟨same, below⟩ => ⟨IndexEntry.lt_iff.mpr (.inr ⟨same, below⟩), same⟩

theorem overlappingPairs_exact (index : ScopeIndex) (budget : UInt64) :
    Exact (index.overlappingPairs budget) budget index.coinciding.length fun p =>
      (ofLex p).1 < (ofLex p).2 ∧ ∃ x, (⟨x, (ofLex p).1⟩ : IndexEntry) ∈ index.entries.rows ∧
        (⟨x, (ofLex p).2⟩ : IndexEntry) ∈ index.entries.rows := by
  have perm := index.coinciding_perm
  have visited : index.overlappingPairs budget = answer (Metered.visit budget claimPair
      (SortedRuns.sharing IndexEntry.extent index.entries.rows) (0, [])) := by
    rw [overlappingPairs, pairLoop_eq index.rows_by_extent le_rfl]
  have size : (SortedRuns.sharing IndexEntry.extent index.entries.rows).length < 2 ^ 64 := by
    have bound := index.bounded
    simp only [SortedTable.size, Limits.maxIndexedExtents] at bound
    calc (SortedRuns.sharing IndexEntry.extent index.entries.rows).length
      _ ≤ index.entries.rows.length * index.entries.rows.length := SortedRuns.length_sharing_le _
      _ ≤ 4096 * 4096 := Nat.mul_le_mul bound bound
      _ < 2 ^ 64 := by decide
  have answered := @answer_exact budget _ _ _ claimPair _ size
  rw [← visited, perm.length_eq] at answered
  refine answered.congr fun p => ?_
  constructor
  · rintro ⟨⟨⟨x, c⟩, ⟨y, d⟩⟩, member, same⟩
    obtain ⟨listed, meets⟩ := List.mem_filter.mp (perm.mem_iff.mp member)
    obtain ⟨left, right⟩ := List.mem_product.mp listed
    rw [Bool.and_eq_true, decide_eq_true_eq, decide_eq_true_eq] at meets
    obtain ⟨here, below⟩ := meets
    rw [claimPair, if_neg (ne_of_lt below)] at same
    cases same
    cases here
    exact ⟨below, x, left, right⟩
  · rintro ⟨below, x, left, right⟩
    refine ⟨(⟨x, (ofLex p).1⟩, ⟨x, (ofLex p).2⟩), perm.mem_iff.mpr ?_, ?_⟩
    · refine List.mem_filter.mpr ⟨List.mem_product.mpr ⟨left, right⟩, ?_⟩
      rw [Bool.and_eq_true, decide_eq_true_eq, decide_eq_true_eq]
      exact ⟨rfl, below⟩
    · rw [claimPair, if_neg (ne_of_lt below)]
      rfl

end Search

theorem index_exact {calls : List Call} (builds : Builds calls) :
    (∀ q budget, Exact ((built calls).query q budget) budget ((built calls).matching q).length
      fun c => ∃ x ∈ q.extents, (x, c) ∈ indexed calls) ∧
    (∀ budget, Exact ((built calls).overlappingPairs budget) budget
      (built calls).coinciding.length fun p => (ofLex p).1 < (ofLex p).2 ∧
        ∃ x, (x, (ofLex p).1) ∈ indexed calls ∧ (x, (ofLex p).2) ∈ indexed calls) ∧
    (∀ others, Builds others → indexed others = indexed calls → built others = built calls) ∧
    ∀ (before after : List Call) (adds adds' : List (ClaimId × Scope)),
      calls = before ++ (adds.map fun a => .add a.1 a.2) ++ after → adds.Perm adds' →
      Builds (before ++ (adds'.map fun a => .add a.1 a.2) ++ after) →
      built (before ++ (adds'.map fun a => .add a.1 a.2) ++ after) = built calls := by
  have holds := built_holds builds
  have determined : ∀ others, Builds others → indexed others = indexed calls →
      built others = built calls := by
    intro others builds' same
    have holds' := built_holds builds'
    rw [same] at holds'
    exact holds'.unique holds
  refine ⟨fun q budget => ?_, fun budget => ?_, determined, ?_⟩
  · refine (query_exact (built calls) q budget).congr fun c => ?_
    exact exists_congr fun x => and_congr_right fun _ => holds ⟨x, c⟩
  · refine (overlappingPairs_exact (built calls) budget).congr fun p => ?_
    exact and_congr_right fun _ => exists_congr fun x => and_congr (holds ⟨x, _⟩) (holds ⟨x, _⟩)
  · rintro before after adds adds' rfl perm builds'
    exact determined _ builds' (indexed_perm before after perm).symm

/-- Two claims on one extent. -/
def rivalCalls : List Call := [
  .add (Id.make [100]) (Scope.single (Id.make [120]) rfl),
  .add (Id.make [99]) (Scope.single (Id.make [120]) rfl)]

theorem index_exact_rivals :
    Exact ((built rivalCalls).overlappingPairs 1) 1 (built rivalCalls).coinciding.length
      (fun p => (ofLex p).1 < (ofLex p).2 ∧ ∃ x, (x, (ofLex p).1) ∈ indexed rivalCalls ∧
        (x, (ofLex p).2) ∈ indexed rivalCalls) ∧
    built rivalCalls.reverse = built rivalCalls ∧
    (built rivalCalls).overlappingPairs 1 =
      (.found, [toLex (Id.make [99], Id.make [100])]) ∧
    (built rivalCalls).overlappingPairs 0 = (.indeterminate, []) := by
  have builds : Builds rivalCalls := ⟨by decide +kernel, by decide +kernel, trivial⟩
  have builds' : Builds rivalCalls.reverse := ⟨by decide +kernel, by decide +kernel, trivial⟩
  refine ⟨(index_exact builds).2.1 1, ?_, by decide +kernel, by decide +kernel⟩
  exact (index_exact builds).2.2.2 [] [] [(Id.make [100], Scope.single (Id.make [120]) rfl),
    (Id.make [99], Scope.single (Id.make [120]) rfl)] _ rfl (List.Perm.swap _ _ _) builds'

section Crowded

open History

def wideClaim : ClaimId := Id.make [99]

/-- One claim on the first scopes of two hundred and fifty-six extents. -/
def wideAdds (n : Nat) : List Call := (List.range n).map fun i => .add wideClaim (wideScope i)

theorem wideAdds_succ (n : Nat) : wideAdds (n + 1) = wideAdds n ++ [.add wideClaim (wideScope n)] := by
  simp [wideAdds, List.range_succ]

theorem mem_wideAdds {n : Nat} (builds : Builds (wideAdds n)) {e : IndexEntry} :
    e ∈ (built (wideAdds n)).entries.rows ↔
      e.claim = wideClaim ∧ ∃ i < n, e.extent ∈ (wideScope i).extents := by
  rw [built_holds builds e]
  clear builds
  induction n with
  | zero => simp [wideAdds, indexed]
  | succ n ih =>
    rw [wideAdds_succ, indexed, List.foldl_append]
    refine (or_congr ih and_comm).trans ?_
    rw [← and_or_left]
    refine and_congr_right fun _ => ?_
    constructor
    · rintro (⟨i, less, member⟩ | member)
      · exact ⟨i, Nat.lt_succ_of_lt less, member⟩
      · exact ⟨n, Nat.lt_succ_self n, member⟩
    · rintro ⟨i, less, member⟩
      rcases Nat.lt_succ_iff_lt_or_eq.mp less with less | rfl
      · exact .inl ⟨i, less, member⟩
      · exact .inr member

/-- Nothing of a later scope is there yet. -/
theorem missing_wide {n k : Nat} (builds : Builds (wideAdds n)) (less : n ≤ k) (few : k < 16) :
    (built (wideAdds n)).missing wideClaim (wideScope k).extents = (wideScope k).extents := by
  rw [missing, List.filter_eq_self]
  intro e member
  rw [decide_eq_true_eq, mem_wideAdds builds]
  rintro ⟨-, i, below, inside⟩
  obtain ⟨j, -, rfl⟩ := List.mem_map.mp member
  have same := mem_wideScope (by omega) few inside j rfl
  omega

theorem wideScope_length (i : Nat) : (wideScope i).extents.length = 256 := by simp [wideScope]

theorem wideScope_filled (i : Nat) : (wideScope i).isEmpty = false := by
  simp [Scope.isEmpty, wideScope]

theorem wideClaim_named : wideClaim.isEmpty = false := by decide +kernel

/-- All extents of a wide scope but the last, none of them indexed yet. -/
theorem missing_dropLast {index : ScopeIndex} {l : List ExtentId}
    (fresh : index.missing wideClaim l = l) : index.missing wideClaim l.dropLast = l.dropLast := by
  rw [missing, List.filter_eq_self] at fresh ⊢
  exact fun e member => fresh e ((List.dropLast_sublist l).mem member)

/-- Exactly the tables with room for all but one are left complete. -/
theorem add_wide_ok_iff {index : ScopeIndex} {k : Nat}
    (fresh : index.missing wideClaim (wideScope k).extents = (wideScope k).extents) :
    (index.add wideClaim (wideScope k)).1.isOk = true ↔ index.size ≤ 3840 := by
  rw [add_ok_iff wideClaim_named (wideScope_filled k), missing_dropLast fresh,
    List.length_dropLast, wideScope_length, Limits.maxIndexedExtents]
  omega

theorem wideAdds_built {n : Nat} (few : n ≤ 16) :
    Builds (wideAdds n) ∧ (built (wideAdds n)).size = 256 * n := by
  induction n with
  | zero => exact ⟨trivial, rfl⟩
  | succ n ih =>
    obtain ⟨builds, size⟩ := ih (by omega)
    have fresh := missing_wide builds le_rfl (k := n) (by omega)
    have accepted := (add_wide_ok_iff fresh).mpr (by omega)
    obtain ⟨ok, grown⟩ := add_size wideClaim_named (wideScope_filled n) accepted
    rw [fresh, wideScope_length, size] at grown
    rw [wideAdds_succ, built_add]
    exact ⟨builds_add builds ok, grown⟩

theorem corner_named : (wideExtent 0 0).isEmpty = false := by decide +kernel

/-- One entry more, of another claim. -/
def crowdedCalls : List Call :=
  wideAdds 15 ++ [.add (Id.make [100]) (Scope.single (wideExtent 0 0) corner_named)]

theorem add_single {index : ScopeIndex} {claim : ClaimId} {e : ExtentId} (entry : e.isEmpty = false)
    (named : claim.isEmpty = false) (room : index.size < Limits.maxIndexedExtents)
    (fresh : (⟨e, claim⟩ : IndexEntry) ∉ index.entries.rows) :
    (index.add claim (Scope.single e entry)).1 = .ok ∧
      (index.add claim (Scope.single e entry)).2.size = index.size + 1 ∧
      ∀ x ∈ (index.add claim (Scope.single e entry)).2.entries.rows,
        x.claim ≠ claim → x ∈ index.entries.rows := by
  have missing : index.missing claim [e] = [e] := by
    rw [ScopeIndex.missing, List.filter_eq_self]
    simpa using fresh
  have accepted : (index.add claim (Scope.single e entry)).1.isOk = true := by
    rw [add_ok_iff named rfl]
    exact room
  obtain ⟨ok, grown⟩ := add_size named rfl accepted
  refine ⟨ok, grown.trans ?_, fun x member other => ?_⟩
  · exact congrArg (fun l : List ExtentId => index.size + l.length) missing
  · have added : index.add claim (Scope.single e entry) =
        (.ok, (index.add claim (Scope.single e entry)).2) := Prod.ext ok rfl
    rcases (add_mem added x).mp member with old | ⟨same, -⟩
    · exact old
    · exact absurd same other

theorem crowdedCalls_built : Builds crowdedCalls ∧ (built crowdedCalls).size = 3841 ∧
    ∀ e ∈ (built crowdedCalls).entries.rows, e.claim = wideClaim →
      e ∈ (built (wideAdds 15)).entries.rows := by
  obtain ⟨builds, size⟩ := wideAdds_built (n := 15) (by decide)
  have differ : (Id.make [100] : ClaimId) ≠ wideClaim := by decide +kernel
  have named : (Id.make [100] : ClaimId).isEmpty = false := by decide +kernel
  have fresh : (⟨wideExtent 0 0, Id.make [100]⟩ : IndexEntry) ∉
      (built (wideAdds 15)).entries.rows := fun member => differ ((mem_wideAdds builds).mp member).1
  have room : (built (wideAdds 15)).size < Limits.maxIndexedExtents := by
    rw [size]
    decide
  obtain ⟨ok, grown, older⟩ := add_single corner_named named room fresh
  rw [crowdedCalls, built_add, grown, size]
  refine ⟨builds_add builds ok, rfl, fun e member mine => older e member fun same => ?_⟩
  exact differ (same.symm.trans mine)

theorem add_leaves_trace :
    (Builds crowdedCalls ∧ ((built crowdedCalls).add wideClaim (wideScope 15)).1.isOk = false ∧
      ((built crowdedCalls).add wideClaim (wideScope 15)).2 ≠ built crowdedCalls) ∧
    (Builds (wideAdds 16) ∧ (built (wideAdds 16)).Covers wideClaim (wideScope 0) ∧
      ((built (wideAdds 16)).add wideClaim (wideScope 0)).1.isOk = false) ∧
    ¬ ∀ calls, Builds calls → ∀ claim scope, (built calls).Clean claim scope := by
  obtain ⟨builds, size, mine⟩ := crowdedCalls_built
  have filled := wideScope_filled 15
  have fresh : (built crowdedCalls).missing wideClaim (wideScope 15).extents =
      (wideScope 15).extents := by
    have before := missing_wide (wideAdds_built (n := 15) (by decide)).1 le_rfl (by decide)
    rw [missing, List.filter_eq_self] at before ⊢
    intro e member
    have absent := of_decide_eq_true (before e member)
    exact decide_eq_true fun inside => absent (mine _ inside rfl)
  have failed : ((built crowdedCalls).add wideClaim (wideScope 15)).1.isOk = false := by
    rw [← Bool.not_eq_true, add_wide_ok_iff fresh, size]
    decide
  have looped := @add_eq (built crowdedCalls) wideClaim _ wideClaim_named filled
  have moved : ((built crowdedCalls).add wideClaim (wideScope 15)).2 ≠ built crowdedCalls := by
    intro same
    rw [looped] at same failed
    have reached := addLoop_refused failed
    rw [same, size] at reached
    exact absurd reached (by decide)
  obtain ⟨builds', size'⟩ := wideAdds_built (n := 16) le_rfl
  have covers : (built (wideAdds 16)).Covers wideClaim (wideScope 0) :=
    ⟨wideScope_filled 0, fun e member => (mem_wideAdds builds').mpr ⟨rfl, 0, by decide, member⟩⟩
  have refused : ((built (wideAdds 16)).add wideClaim (wideScope 0)).1.isOk = false := by
    rw [← Bool.not_eq_true, add_ok_iff wideClaim_named (wideScope_filled 0), size',
      Limits.maxIndexedExtents]
    omega
  exact ⟨⟨builds, failed, moved⟩, ⟨builds', covers, refused⟩,
    fun clean => moved ((clean _ builds wideClaim (wideScope 15)).1 failed)⟩

end Crowded

end ScopeIndex
end SplitBrainFabric
