import SplitBrainFabric.Operations
import Mathlib.Logic.Relation

/-! What an operation can do to the registry, said once: a finite sequence of moves,
each the fate of one record. Every invariant is a statement about one move. -/

namespace SplitBrainFabric
open Words Decoder

section Reading

variable {α : Type} {entry : Entry}

theorem read_image {item : Reader.Read α} {image : Bytes} {a : α} {f : α → Entry}
    (reads : Reads item image a) : (Reader.decode item image).map f = .ok (f a) := by
  rw [Reader.decode, reads.whole]
  rfl

/-- Whatever is read back from the image of a value is that value. -/
theorem read_back {item : Reader.Read α} {image : Bytes} {a : α} {f : α → Entry}
    (agrees : Agrees item image a) (read : (Reader.decode item image).map f = .ok entry) :
    entry = f a := by
  cases decoded : Reader.decode item image with
  | error st => rw [decoded] at read; cases read
  | ok b =>
    rw [decoded] at read
    cases read
    rw [agrees.whole decoded]

end Reading

/-- What an allocation settles before it opens anything: the grant is new in every
respect, and nothing open overlaps it. -/
structure Opens (s : RegistryState) (g : EpochGrant) : Prop where
  tokenRoom : s.tokenCounter ≠ maxWord
  idRoom : s.grantCounter ≠ maxWord
  token : g.fenceToken = s.tokenCounter + 1
  id : g.id = s.grantCounter + 1
  epoch : g.epoch = s.lineage.maxEpoch g.domain + 1
  counted : g.epoch ≠ 0
  isOpen : g.state = .open
  digest : g.scope = g.extents.digest
  named : g.domain.isEmpty = false
  registered : ∃ known, s.domains.find g.domain = some known ∧ known.scope = g.extents
  free : ∀ o ∈ s.lineage.grants, o.isOpen = true → o.extents.overlaps g.extents = false

/-- The entries an operation may emit on their own from a state. -/
def Sane (s : RegistryState) : Entry → Prop
  | .silent | .bootBegin _ | .grantOpen _ => False
  | .bootEnd _ | .domainDefine _ | .commitRecord | .interruptMark _ => True
  | .policyDefine p => p.quorum.witnesses.length ≤ Limits.maxWitnessesPerProfile
  | .grantClose g => g.state ≠ .open
  | .fence r _ => s.tokenCounter ≠ maxWord ∧ r.token = s.tokenCounter + 1
  | .extentAdopt r scope => ∃ g now, Opens s g ∧ r = Work.adoptRecord g now ∧ scope = g.extents
  | .incarnationAllocate v => s.incarnationCounter ≠ maxWord ∧ v = s.incarnationCounter + 1

namespace RegistryState

def bumpIncarnation (s : RegistryState) : RegistryState :=
  { s with incarnationCounter := s.incarnationCounter + 1 }

/-- A boot record of the incarnation after the last one. -/
def Boots (s : RegistryState) (entry : Entry) : Prop :=
  ∃ boot : BootRecord, entry = .bootBegin boot ∧ boot.incarnation = s.incarnationCounter + 1

def bumpGeneration (s : RegistryState) : RegistryState :=
  { s with generation := tryIncrement s.generation }

end RegistryState

namespace Work

open RegistryState (apply bumpIncarnation bumpGeneration Boots)

/-- The scope of a new grant has been adopted; the grant itself comes next. -/
structure Adoption (s : RegistryState) (g : EpochGrant) (adopt : JournalRecord)
    (s₁ : RegistryState) : Prop where
  opens : Opens s g
  next : adopt.sequence = s.registrySequence + 1
  read : ∃ now, adopt.entry = .ok (.extentAdopt (adoptRecord g now) g.extents)
  ran : (apply adopt).exec s = (.ok ⟨⟩, s₁)

theorem Adoption.sane {s s₁ : RegistryState} {g : EpochGrant} {adopt : JournalRecord}
    (adoption : Adoption s g adopt s₁) (entry : Entry) (read : adopt.entry = .ok entry) :
    Sane s entry := by
  obtain ⟨now, known⟩ := adoption.read
  rw [known] at read
  cases read
  exact ⟨g, now, adoption.opens, rfl, rfl⟩

inductive Move (w : Work) : Work → Prop
  | aside (hits restarts : UInt64) (fabric : FabricStore) :
    Move w (w.update fun s =>
      { s with idempotencyHits := hits, restartFences := restarts, fabric := fabric })
  | kept {record : JournalRecord} {s' : RegistryState}
      (next : record.sequence = w.state.registrySequence + 1)
      (sane : ∀ entry, record.entry = .ok entry → Sane w.state entry)
      (ran : (apply record).exec w.state = (.ok ⟨⟩, s')) :
    Move w (w.kept record s')
  | lost {record : JournalRecord} {st : Status} {s' : RegistryState}
      (next : record.sequence = w.state.registrySequence + 1)
      (sane : ∀ entry, record.entry = .ok entry → Sane w.state entry)
      (ran : (apply record).exec w.state = (.error st, s')) :
    Move w (w.lost record s')
  | booted {record : JournalRecord} {s' : RegistryState}
      (below : w.state.incarnationCounter ≠ maxWord)
      (next : record.sequence = w.state.registrySequence + 1)
      (boots : ∀ entry, record.entry = .ok entry → Boots w.state entry)
      (ran : (apply record).exec (bumpIncarnation w.state) = (.ok ⟨⟩, s')) :
    Move w (w.kept record s')
  | bootLost {record : JournalRecord} {st : Status} {s' : RegistryState}
      (below : w.state.incarnationCounter ≠ maxWord)
      (next : record.sequence = w.state.registrySequence + 1)
      (boots : ∀ entry, record.entry = .ok entry → Boots w.state entry)
      (ran : (apply record).exec (bumpIncarnation w.state) = (.error st, s')) :
    Move w (w.lost record s')
  | opened {g : EpochGrant} {adopt record : JournalRecord} {s₁ s₂ : RegistryState}
      (adoption : Adoption w.state g adopt s₁)
      (next : record.sequence = s₁.registrySequence + 1)
      (read : record.entry = .ok (.grantOpen g))
      (ran : (apply record).exec (bumpGeneration s₁) = (.ok ⟨⟩, s₂)) :
    Move w ((w.kept adopt s₁).kept record s₂)
  | openLost {g : EpochGrant} {adopt record : JournalRecord} {st : Status} {s₁ s₂ : RegistryState}
      (adoption : Adoption w.state g adopt s₁)
      (next : record.sequence = s₁.registrySequence + 1)
      (read : ∀ entry, record.entry = .ok entry → entry = .grantOpen g)
      (ran : (apply record).exec (bumpGeneration s₁) = (.error st, s₂)) :
    Move w ((w.kept adopt s₁).lost record s₂)

/-- Any number of moves. -/
abbrev Reach : Work → Work → Prop := Relation.ReflTransGen Move

theorem Move.reach {w w' : Work} (move : Move w w') : Reach w w' := .single move

/-- What it takes for every move to keep a property of the state. -/
structure Preserved (P : RegistryState → Prop) : Prop where
  aside : ∀ s hits restarts fabric, P s →
    P { s with idempotencyHits := hits, restartFences := restarts, fabric := fabric }
  counted : ∀ s, P s → P (bumpGeneration s)
  single : ∀ s record r s', P s → record.sequence = s.registrySequence + 1 →
    (∀ entry, record.entry = .ok entry → Sane s entry) →
    (apply record).exec s = (r, s') → P s'
  boot : ∀ s record r s', P s → s.incarnationCounter ≠ maxWord →
    record.sequence = s.registrySequence + 1 →
    (∀ entry, record.entry = .ok entry → Boots s entry) →
    (apply record).exec (bumpIncarnation s) = (r, s') → P s'
  grant : ∀ s g adopt s₁ record r s₂, P s → Adoption s g adopt s₁ → P (bumpGeneration s₁) →
    record.sequence = s₁.registrySequence + 1 →
    (∀ entry, record.entry = .ok entry → entry = .grantOpen g) →
    (apply record).exec (bumpGeneration s₁) = (r, s₂) → P s₂

theorem Preserved.move {P : RegistryState → Prop} (preserved : Preserved P) {w w' : Work}
    (holds : P w.state) (move : Move w w') : P w'.state := by
  cases move with
  | aside hits restarts fabric => exact preserved.aside _ hits restarts fabric holds
  | kept next sane ran =>
    exact preserved.counted _ (preserved.single _ _ _ _ holds next sane ran)
  | lost next sane ran => exact preserved.single _ _ _ _ holds next sane ran
  | booted below next boots ran =>
    exact preserved.counted _ (preserved.boot _ _ _ _ holds below next boots ran)
  | bootLost below next boots ran => exact preserved.boot _ _ _ _ holds below next boots ran
  | opened adoption next read ran =>
    have first := preserved.counted _
      (preserved.single _ _ _ _ holds adoption.next adoption.sane adoption.ran)
    refine preserved.counted _ (preserved.grant _ _ _ _ _ _ _ holds adoption first next ?_ ran)
    intro entry known
    rw [read] at known
    cases known
    rfl
  | openLost adoption next read ran =>
    have first := preserved.counted _
      (preserved.single _ _ _ _ holds adoption.next adoption.sane adoption.ran)
    exact preserved.grant _ _ _ _ _ _ _ holds adoption first next read ran

theorem Preserved.reach {P : RegistryState → Prop} (preserved : Preserved P) {w w' : Work}
    (holds : P w.state) (reached : Reach w w') : P w'.state := by
  induction reached with
  | refl => exact holds
  | tail _ move ih => exact preserved.move ih move

theorem preserved_sound : Preserved fun s => s.lineage.Sound where
  aside := fun _ _ _ _ sound => sound
  counted := fun _ sound => sound
  single := fun _ _ _ _ sound _ _ ran => RegistryState.apply_sound sound ran
  boot := fun s _ _ _ sound _ _ _ ran =>
    RegistryState.apply_sound (s := bumpIncarnation s) sound ran
  grant := fun _ _ _ _ _ _ _ _ _ sound _ _ ran => RegistryState.apply_sound sound ran

theorem preserved_registered (domain : DomainId) (known : DomainDefinition) :
    Preserved fun s => s.domains.find domain = some known where
  aside := fun _ _ _ _ found => found
  counted := fun _ found => found
  single := fun _ _ _ _ found _ _ ran => RegistryState.apply_domains found ran
  boot := fun s _ _ _ found _ _ _ ran =>
    RegistryState.apply_domains (s := bumpIncarnation s) found ran
  grant := fun _ _ _ _ _ _ _ _ _ found _ _ ran => RegistryState.apply_domains found ran

theorem preserved_config (config : RegistryConfig) : Preserved fun s => s.config = config where
  aside := fun _ _ _ _ same => same
  counted := fun _ same => same
  single := fun _ _ _ _ same _ _ ran => (RegistryState.apply_setup ran).config.trans same
  boot := fun s _ _ _ same _ _ _ ran =>
    (RegistryState.apply_setup (s := bumpIncarnation s) ran).config.trans same
  grant := fun _ _ _ _ _ _ _ _ _ same _ _ ran => (RegistryState.apply_setup ran).config.trans same

section Emitted

variable {w w' : Work}

theorem Move.emitted (move : Move w w') : w.emitted <+: w'.emitted := by
  cases move with
  | aside _ _ _ | lost _ _ _ | bootLost _ _ _ _ => exact List.prefix_rfl
  | kept _ _ _ | booted _ _ _ _ => exact List.prefix_append _ _
  | openLost _ _ _ _ => exact List.prefix_append _ _
  | opened _ _ _ _ => exact (List.prefix_append _ _).trans (List.prefix_append _ _)

theorem Reach.emitted (reached : Reach w w') : w.emitted <+: w'.emitted := by
  induction reached with
  | refl => exact List.prefix_rfl
  | tail _ move ih => exact ih.trans move.emitted

/-- Wherever the records of a move are cut, some sequence of moves has emitted exactly
what is left. -/
theorem Move.cut (move : Move w w') (k : Nat) (long : w.emitted.length ≤ k) :
    ∃ v, Reach w v ∧ v.emitted = w'.emitted.take k := by
  by_cases whole : w'.emitted.length ≤ k
  · exact ⟨w', move.reach, (List.take_of_length_le whole).symm⟩
  cases move with
  | aside _ _ _ | lost _ _ _ | bootLost _ _ _ _ => exact absurd long whole
  | kept _ _ _ | booted _ _ _ _ | openLost _ _ _ _ =>
    refine ⟨w, .refl, ?_⟩
    simp only [Work.kept, Work.lost, List.length_append, List.length_singleton] at whole ⊢
    rw [List.take_left' (by omega)]
  | @opened g adopt record s₁ s₂ adoption next read ran =>
    by_cases none : w.emitted.length = k
    · refine ⟨w, .refl, ?_⟩
      simp only [Work.kept, List.append_assoc]
      rw [List.take_left' none]
    · refine ⟨w.kept adopt s₁, (Move.kept adoption.next adoption.sane adoption.ran).reach, ?_⟩
      simp only [Work.kept, List.length_append, List.length_singleton] at whole ⊢
      rw [List.take_left' (by simp only [List.length_append, List.length_singleton]; omega)]

theorem Reach.cut (reached : Reach w w') (k : Nat) (long : w.emitted.length ≤ k) :
    ∃ v, Reach w v ∧ v.emitted = w'.emitted.take k := by
  induction reached with
  | refl => exact ⟨w, .refl, (List.take_of_length_le long).symm⟩
  | @tail v v' before move ih =>
    by_cases inside : v.emitted.length ≤ k
    · obtain ⟨u, further, same⟩ := move.cut k inside
      exact ⟨u, before.trans further, same⟩
    · obtain ⟨u, reached, same⟩ := ih
      obtain ⟨added, parts⟩ := move.emitted
      refine ⟨u, reached, ?_⟩
      rw [same, ← parts, List.take_append_of_le_length (by omega)]

end Emitted

end Work
end SplitBrainFabric
