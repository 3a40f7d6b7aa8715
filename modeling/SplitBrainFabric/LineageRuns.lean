import SplitBrainFabric.Library.Runs
import SplitBrainFabric.Lineage

/-! The lineage over whole runs of its calls. `validate` and `import` check a table from
its front; the calls keep the same table by what they refuse. -/

namespace SplitBrainFabric
open Words Runs

namespace LineageTable

/-- A grant may be stored before another one. -/
structure Precedes (g o : EpochGrant) : Prop where
  id : g.id ≠ o.id
  epoch : g.domain = o.domain → g.epoch ≤ o.epoch
  single : g.isOpen = true → o.isOpen = true → g.domain = o.domain → g.scope ≠ o.scope

/-- The order in which a table may hold grants. -/
def Orderly (grants : List EpochGrant) : Prop := grants.Pairwise Precedes

theorem orderly_concat {grants : List EpochGrant} {g : EpochGrant} :
    Orderly (grants ++ [g]) ↔ Orderly grants ∧ ∀ e ∈ grants, Precedes e g := by
  simp [Orderly, List.pairwise_append]

section Checks

variable {wellFormed : EpochGrant → Bool} {earlier : List EpochGrant} {g : EpochGrant}

/-- The latest grant of a domain carries its highest epoch. -/
theorem latest_highest (orderly : Orderly earlier.reverse) :
    ¬ g.epoch < ((earlier.find? (·.domain = g.domain)).map (·.epoch)).getD 0 ↔
      ∀ e ∈ earlier, e.domain = g.domain → e.epoch ≤ g.epoch := by
  have sorted : earlier.Pairwise fun later sooner => Precedes sooner later :=
    List.pairwise_reverse.mp orderly
  cases found : earlier.find? (·.domain = g.domain) with
  | none =>
    have none' := List.find?_eq_none.mp found
    simp only [Option.map_none, Option.getD_none]
    refine iff_of_true (not_lt.mpr UInt64.zero_le) fun e member same => ?_
    exact absurd (decide_eq_true same) (none' e member)
  | some last =>
    simp only [Option.map_some, Option.getD_some, not_lt]
    obtain ⟨same, before, after, rfl, others⟩ := List.find?_eq_some_iff_append.mp found
    have ours : last.domain = g.domain := by simpa using same
    constructor
    · intro below e member domain
      rcases List.mem_append.mp member with first | rest
      · exact absurd domain (by simpa using others e first)
      rcases List.mem_cons.mp rest with rfl | old
      · exact below
      · have order := (List.pairwise_cons.mp (List.pairwise_append.mp sorted).2.1).1 e old
        exact le_trans (order.epoch (domain.trans ours.symm)) below
    · intro below
      exact below last (by simp) ours

/-- What the pass asks of one grant is what the grants before it ask. -/
theorem precedes_iff (orderly : Orderly earlier.reverse) :
    (earlier.any (·.id = g.id) = false ∧
      ¬ g.epoch < ((earlier.find? (·.domain = g.domain)).map (·.epoch)).getD 0 ∧
      (g.isOpen && earlier.any fun e =>
        e.isOpen && decide (e.domain = g.domain) && decide (e.scope.hex = g.scope.hex)) = false) ↔
    ∀ e ∈ earlier, Precedes e g := by
  have scope : ∀ e : EpochGrant, e.scope.hex = g.scope.hex ↔ e.scope = g.scope :=
    fun e => ⟨Digest256.hex_injective, congrArg _⟩
  rw [latest_highest orderly]
  simp only [scope, List.any_eq_false, decide_eq_true_eq, Bool.and_eq_false_iff, Bool.and_eq_true]
  constructor
  · rintro ⟨ids, epochs, singles⟩ e member
    refine ⟨ids e member, epochs e member, fun active active' domain same => ?_⟩
    rcases singles with closed | none'
    · rw [active'] at closed
      cases closed
    · exact none' e member ⟨⟨active, domain⟩, same⟩
  · intro precedes
    refine ⟨fun e member => (precedes e member).id, fun e member => (precedes e member).epoch, ?_⟩
    cases active : g.isOpen with
    | false => exact .inl rfl
    | true =>
      refine .inr fun e member clash => ?_
      exact (precedes e member).single clash.1.1 active clash.1.2 clash.2

theorem checkGrants_iff {grants : List EpochGrant} (orderly : Orderly earlier.reverse) :
    checkGrants wellFormed earlier grants = .ok () ↔
      (∀ g ∈ grants, wellFormed g = true) ∧ Orderly (earlier.reverse ++ grants) := by
  induction grants generalizing earlier with
  | nil => simp [checkGrants, orderly]
  | cons g rest ih =>
    have split : earlier.reverse ++ g :: rest = (g :: earlier).reverse ++ rest := by simp
    have placed : Orderly (g :: earlier).reverse ↔ ∀ e ∈ earlier, Precedes e g := by
      rw [List.reverse_cons, orderly_concat, and_iff_right orderly]
      simp only [List.mem_reverse]
    rw [split, List.forall_mem_cons]
    by_cases fits : wellFormed g = true ∧ ∀ e ∈ earlier, Precedes e g
    · obtain ⟨formed, precedes⟩ := fits
      obtain ⟨ids, epochs, single⟩ := (precedes_iff orderly).mpr precedes
      rw [checkGrants, if_neg (by simp [formed]), if_neg (by simp [ids]), if_neg epochs,
        if_neg (by simp [single]), ih (placed.mpr precedes), and_iff_right formed]
    · refine iff_of_false ?_ ?_
      · intro passed
        unfold checkGrants at passed
        split at passed
        · cases passed
        rename_i formed
        split at passed
        · cases passed
        rename_i ids
        split at passed
        · cases passed
        rename_i epochs
        split at passed
        · cases passed
        rename_i single
        refine fits ⟨by simpa using formed, (precedes_iff orderly).mp ⟨?_, epochs, ?_⟩⟩
        · exact Bool.eq_false_iff.mpr ids
        · exact Bool.eq_false_iff.mpr single
      · rintro ⟨⟨formed, -⟩, whole⟩
        exact fits ⟨formed, placed.mp (whole.sublist (List.sublist_append_left _ rest))⟩

theorem checkBoots_iff {earlier boots : List BootRecord}
    (distinct : (earlier.reverse.map (·.boot)).Nodup) :
    checkBoots earlier boots = .ok () ↔
      (∀ b ∈ boots, b.boot ≠ 0 ∧ b.incarnation ≠ 0) ∧
        ((earlier.reverse ++ boots).map (·.boot)).Nodup := by
  induction boots generalizing earlier with
  | nil => simpa [checkBoots] using distinct
  | cons b rest ih =>
    have split : earlier.reverse ++ b :: rest = (b :: earlier).reverse ++ rest := by simp
    have placed : ((b :: earlier).reverse.map (·.boot)).Nodup ↔ ∀ e ∈ earlier, e.boot ≠ b.boot := by
      rw [List.reverse_cons, List.map_append, List.nodup_append, and_iff_right distinct]
      simp
    rw [split, List.forall_mem_cons, checkBoots]
    split
    · rename_i unset
      refine iff_of_false nofun fun fits => ?_
      rcases unset with boot | incarnation
      · exact fits.1.1.1 boot
      · exact fits.1.1.2 incarnation
    rename_i set
    split
    · rename_i known
      refine iff_of_false nofun fun fits => ?_
      obtain ⟨e, member, same⟩ := List.any_eq_true.mp known
      rw [List.map_append] at fits
      exact placed.mp (List.nodup_append.mp fits.2).1 e member (by simpa using same)
    · rename_i fresh
      have apart : ∀ e ∈ earlier, e.boot ≠ b.boot := by simpa using fresh
      rw [ih (placed.mpr apart), and_iff_right (not_or.mp set)]

end Checks

/-- What an import demands of a grant by itself. -/
structure Formed (g : EpochGrant) : Prop where
  numbered : g.id ≠ 0
  named : g.domain.isEmpty = false
  epoch : g.epoch ≠ 0

/-- What holds of a table after any calls. -/
structure WellKept (t : LineageTable) : Prop where
  bounded : t.Bounded
  bootsBounded : t.boots.length ≤ Limits.maxLineageEntries
  formed : ∀ g ∈ t.grants, Formed g
  orderly : Orderly t.grants
  bootsFormed : ∀ b ∈ t.boots, b.boot ≠ 0 ∧ b.incarnation ≠ 0
  bootsDistinct : (t.boots.map (·.boot)).Nodup

theorem WellKept.congr {t t' : LineageTable} (kept : t.WellKept) (grants : t'.grants = t.grants)
    (boots : t'.boots = t.boots) : t'.WellKept := by
  obtain ⟨bounded, bootsBounded, formed, orderly, bootsFormed, bootsDistinct⟩ := kept
  unfold Bounded at bounded
  rw [← grants] at bounded formed orderly
  rw [← boots] at bootsBounded bootsFormed bootsDistinct
  exact ⟨bounded, bootsBounded, formed, orderly, bootsFormed, bootsDistinct⟩

theorem WellKept.distinct {t : LineageTable} (kept : t.WellKept) : (t.grants.map (·.id)).Nodup :=
  List.pairwise_map.mpr (kept.orderly.imp Precedes.id)

theorem WellKept.sound {t : LineageTable} (kept : t.WellKept) : t.Sound :=
  ⟨kept.bounded, kept.distinct⟩

theorem formed_iff {g : EpochGrant} :
    (g.id != 0 && !g.domain.isEmpty && g.epoch != 0) = true ↔ Formed g := by
  simp only [Bool.and_eq_true, bne_iff_ne, Bool.not_eq_true']
  exact ⟨fun h => ⟨h.1.1, h.1.2, h.2⟩, fun h => ⟨⟨h.numbered, h.named⟩, h.epoch⟩⟩

/-- An import accepts exactly what the calls may come to. -/
theorem importTable_iff {grants : List EpochGrant} {boots : List BootRecord} {t : LineageTable} :
    importTable grants boots = .ok t ↔ t = ⟨grants, boots, 1⟩ ∧ t.WellKept := by
  have passes : checkGrants (fun g => g.id != 0 && !g.domain.isEmpty && g.epoch != 0) [] grants =
      .ok () ↔ (∀ g ∈ grants, Formed g) ∧ Orderly grants := by
    rw [checkGrants_iff (by exact .nil)]
    simp only [formed_iff, List.reverse_nil, List.nil_append]
  have begins : checkBoots [] boots = .ok () ↔
      (∀ b ∈ boots, b.boot ≠ 0 ∧ b.incarnation ≠ 0) ∧ (boots.map (·.boot)).Nodup := by
    rw [checkBoots_iff (by exact .nil)]
    rfl
  constructor
  · intro read
    have same := importTable_ok read
    subst same
    refine ⟨rfl, ?_⟩
    unfold importTable at read
    obtain ⟨short, read⟩ := else_of_ne read (by simp)
    obtain ⟨grantsShort, bootsShort⟩ := not_or.mp short
    cases checked : checkGrants (fun g => g.id != 0 && !g.domain.isEmpty && g.epoch != 0) []
        grants with
    | error st => rw [checked] at read; cases read
    | ok u =>
      rw [checked] at read
      cases begun : checkBoots [] boots with
      | error st => rw [begun] at read; cases read
      | ok u =>
        obtain ⟨formed, orderly⟩ := passes.mp checked
        obtain ⟨bootsFormed, distinct⟩ := begins.mp begun
        exact ⟨not_lt.mp grantsShort, not_lt.mp bootsShort, formed, orderly, bootsFormed, distinct⟩
  · rintro ⟨rfl, kept⟩
    have short : ¬ (Limits.maxLineageEntries < grants.length ∨
        Limits.maxLineageEntries < boots.length) :=
      not_or.mpr ⟨not_lt.mpr kept.bounded, not_lt.mpr kept.bootsBounded⟩
    rw [importTable, if_neg short, passes.mpr ⟨kept.formed, kept.orderly⟩,
      begins.mpr ⟨kept.bootsFormed, kept.bootsDistinct⟩]
    rfl

theorem WellKept.validate {t : LineageTable} (kept : t.WellKept) : t.validate = .ok () := by
  rw [LineageTable.validate, checkGrants_iff (by exact .nil)]
  exact ⟨fun g member => bne_iff_ne.mpr (kept.formed g member).numbered, kept.orderly⟩

section Calls

variable {t : LineageTable}

theorem WellKept.opened {g : EpochGrant} (kept : t.WellKept) (ready : t.Openable g) :
    (t.opened g).WellKept where
  bounded := (kept.sound.opened ready).bounded
  bootsBounded := kept.bootsBounded
  formed o member := by
    rcases List.mem_append.mp member with old | last
    · exact kept.formed o ((roomFor_sublist t.grants).subset old)
    · rw [List.mem_singleton.mp last]
      exact ⟨ready.numbered, ready.named, ready.epoch⟩
  orderly := by
    refine orderly_concat.mpr ⟨kept.orderly.sublist (roomFor_sublist t.grants), fun e member => ?_⟩
    have old := (roomFor_sublist t.grants).subset member
    refine ⟨find_none.mp ready.fresh e old, fun same => ?_, fun active _ same scope => ?_⟩
    · exact le_trans (same ▸ epoch_le_maxEpoch old) ready.monotone
    · have none' := List.find?_eq_none.mp ready.single e old
      exact none' (by simp [active, same, scope])
  bootsFormed := kept.bootsFormed
  bootsDistinct := kept.bootsDistinct

theorem WellKept.closed {id : GrantId} {state : GrantState} {reason : Reason} {now : Step}
    (kept : t.WellKept) (ends : state ≠ .open) : (t.closed id state reason now).WellKept where
  bounded := kept.sound.closed.bounded
  bootsBounded := kept.bootsBounded
  formed g member := by
    rcases mem_updateFirst member with old | ⟨o, old, -, rfl⟩
    · exact kept.formed g old
    · have formed := kept.formed o old
      exact ⟨formed.numbered, formed.named, formed.epoch⟩
  orderly := by
    have shut : ∀ g : EpochGrant, (g.close state reason now).isOpen ≠ true :=
      fun g active => ends (EpochGrant.isOpen_iff.mp active)
    refine pairwise_updateFirst (fun g o order => ?_) (fun g o order => ?_) kept.orderly
    · exact ⟨order.id, order.epoch, fun active => absurd active (shut g)⟩
    · exact ⟨order.id, order.epoch, fun _ active => absurd active (shut o)⟩
  bootsFormed := kept.bootsFormed
  bootsDistinct := kept.bootsDistinct

theorem WellKept.begun {record : BootRecord} {t' : LineageTable} (kept : t.WellKept)
    (ran : (beginBoot record).exec t = (.ok ⟨⟩, t')) : t'.WellKept := by
  have length := beginBoot_length record kept.bootsBounded
  have grants := beginBoot_grants record t
  obtain ⟨set, rest⟩ := Prog.refuseIf_ok ran
  rw [Prog.exec_get_bind] at rest
  obtain ⟨fresh, rest⟩ := Prog.refuseIf_ok rest
  rw [ran] at length grants
  have stays : (if Limits.maxLineageEntries ≤ t.boots.length then t.boots.tail else t.boots).Sublist
      t.boots := by
    split
    · exact List.tail_sublist t.boots
    · exact List.Sublist.refl t.boots
  cases rest
  refine ⟨kept.bounded, length, kept.formed, kept.orderly, fun b member => ?_, ?_⟩
  · rcases List.mem_append.mp member with old | last
    · exact kept.bootsFormed b (stays.subset old)
    · rw [List.mem_singleton.mp last]
      exact not_or.mp set
  · rw [findBoot_isSome] at fresh
    simp only [bumpGeneration, List.map_append, List.nodup_append]
    refine ⟨kept.bootsDistinct.sublist (stays.map _), by simp, fun id member last single same => ?_⟩
    rw [same, List.mem_singleton.mp single] at member
    exact fresh ((stays.map _).subset member)

theorem WellKept.ended {boot : BootId} {now : Step} {clean : Bool} {t' : LineageTable}
    (kept : t.WellKept) (ran : (endBoot boot now clean).exec t = (.ok ⟨⟩, t')) : t'.WellKept := by
  have length := endBoot_length boot now clean kept.bootsBounded
  have ids := endBoot_ids boot now clean t
  rw [ran] at length ids
  rw [endBoot, Prog.exec_get_bind] at ran
  cases found : t.findBoot boot with
  | none => rw [found] at ran; cases ran
  | some record =>
    rw [found] at ran
    obtain ⟨running, ran⟩ := Prog.refuseIf_ok ran
    cases ran
    refine ⟨kept.bounded, length, kept.formed, kept.orderly, fun b member => ?_, ?_⟩
    · rcases mem_updateFirst member with old | ⟨b', old, -, rfl⟩
      · exact kept.bootsFormed b old
      · exact kept.bootsFormed b' old
    · rw [ids]
      exact kept.bootsDistinct

end Calls

end LineageTable

inductive LineageCall where
  | openGrant (g : EpochGrant)
  | closeGrant (id : GrantId) (state : GrantState) (reason : Reason) (now : Step)
  | beginBoot (record : BootRecord)
  | endBoot (boot : BootId) (now : Step) (clean : Bool)
  | importTable (grants : List EpochGrant) (boots : List BootRecord)

namespace LineageCall

def program : LineageCall → Prog Status LineageTable PUnit
  | .openGrant g => LineageTable.openGrant g
  | .closeGrant id state reason now => LineageTable.closeGrant id state reason now
  | .beginBoot record => LineageTable.beginBoot record
  | .endBoot boot now clean => LineageTable.endBoot boot now clean
  | .importTable grants boots => match LineageTable.importTable grants boots with
    | .ok fresh => set fresh
    | .error st => throw st

def isImport : LineageCall → Bool
  | .importTable .. => true
  | _ => false

end LineageCall

namespace LineageTable

def after (t : LineageTable) (c : LineageCall) : LineageTable := (c.program.exec t).2

/-- The call leaves an open grant where it is, or closes it in its place. -/
def Retains (t : LineageTable) (c : LineageCall) (g : EpochGrant) : Prop :=
  g ∈ (t.after c).grants ∨ ∃ state reason now, c = .closeGrant g.id state reason now ∧
    g.close state reason now ∈ (t.after c).grants

theorem WellKept.after {t : LineageTable} (kept : t.WellKept) (c : LineageCall) :
    (t.after c).WellKept := by
  rcases ran : c.program.exec t with ⟨r, t'⟩
  rw [LineageTable.after, ran]
  cases c with
  | openGrant g =>
    cases r with
    | ok u =>
      obtain ⟨ready, rfl⟩ := openGrant_ok kept.bounded ran
      exact kept.opened ready
    | error st =>
      obtain rfl := openGrant_failsClean kept.bounded st t' trivial ran
      exact kept
  | closeGrant id state reason now =>
    cases r with
    | ok u =>
      obtain ⟨ends, -, rfl⟩ := closeGrant_ok ran
      exact kept.closed ends
    | error st =>
      obtain rfl := closeGrant_failsClean st t' trivial ran
      exact kept
  | beginBoot record =>
    cases r with
    | ok u => exact kept.begun ran
    | error st =>
      obtain rfl := beginBoot_failsClean record st t' trivial ran
      exact kept
  | endBoot boot now clean =>
    cases r with
    | ok u => exact kept.ended ran
    | error st =>
      obtain rfl := endBoot_failsClean boot now clean st t' trivial ran
      exact kept
  | importTable grants boots =>
    rw [LineageCall.program] at ran
    cases read : importTable grants boots with
    | ok fresh =>
      rw [read] at ran
      cases ran
      exact (importTable_iff.mp read).2
    | error st =>
      rw [read] at ran
      cases ran
      exact kept

theorem WellKept.retains {t : LineageTable} {c : LineageCall} {g : EpochGrant} (kept : t.WellKept)
    (live : c.isImport = false) (member : g ∈ t.grants) (active : g.isOpen = true) :
    t.Retains c g := by
  rcases ran : c.program.exec t with ⟨r, t'⟩
  have after : t.after c = t' := congrArg Prod.snd ran
  rw [Retains, after]
  cases c with
  | openGrant o =>
    cases r with
    | ok u =>
      obtain ⟨-, rfl⟩ := openGrant_ok kept.bounded ran
      exact .inl (List.mem_append_left _ (mem_roomFor_open member active))
    | error st =>
      obtain rfl := openGrant_failsClean kept.bounded st t' trivial ran
      exact .inl member
  | closeGrant id state reason now =>
    cases r with
    | ok u =>
      obtain ⟨-, ⟨old, found, -⟩, rfl⟩ := closeGrant_ok ran
      by_cases ours : g.id = id
      · subst ours
        obtain ⟨o, inside, hit, placed⟩ := updateFirst_hit (p := (·.id = g.id))
          (f := (·.close state reason now)) member (by simp)
        obtain rfl := kept.sound.same_grant inside member (of_decide_eq_true hit)
        exact .inr ⟨state, reason, now, rfl, placed⟩
      · exact .inl (mem_closed_other member ours)
    | error st =>
      obtain rfl := closeGrant_failsClean st t' trivial ran
      exact .inl member
  | beginBoot record =>
    have grants := beginBoot_grants record t
    rw [LineageCall.program] at ran
    rw [ran] at grants
    exact .inl (grants ▸ member)
  | endBoot boot now clean =>
    have grants := endBoot_grants boot now clean t
    rw [LineageCall.program] at ran
    rw [ran] at grants
    exact .inl (grants ▸ member)
  | importTable grants boots => cases live

theorem wellKept_empty : WellKept {} where
  bounded := Nat.zero_le _
  bootsBounded := Nat.zero_le _
  formed := fun _ member => absurd member List.not_mem_nil
  orderly := .nil
  bootsFormed := fun _ member => absurd member List.not_mem_nil
  bootsDistinct := .nil

/-- Whatever calls come in whatever order, the table validates and stays in its bounds, no
open grant is evicted, and what it exports is imported again as it is. -/
theorem lineage_kept (calls : List LineageCall) :
    (run after {} calls).validate = .ok () ∧
    ((run after {} calls).grants.map (·.id)).Nodup ∧
    (∀ g ∈ (run after {} calls).grants, g.id ≠ 0) ∧
    (run after {} calls).grants.Pairwise (fun g o => g.domain = o.domain → g.epoch ≤ o.epoch) ∧
    (run after {} calls).grants.Pairwise (fun g o => g.isOpen = true → o.isOpen = true →
      g.domain = o.domain → g.scope ≠ o.scope) ∧
    (run after {} calls).grants.length ≤ Limits.maxLineageEntries ∧
    (run after {} calls).boots.length ≤ Limits.maxLineageEntries ∧
    (∀ c, c.isImport = false → ∀ g ∈ (run after {} calls).grants, g.isOpen = true →
      (run after {} calls).Retains c g) ∧
    importTable (run after {} calls).grants (run after {} calls).boots =
      .ok ⟨(run after {} calls).grants, (run after {} calls).boots, 1⟩ := by
  have keeps : ∀ t c, WellKept t → WellKept (after t c) := fun _ c kept => kept.after c
  have kept : (run after {} calls).WellKept := run_invariant keeps wellKept_empty calls
  refine ⟨kept.validate, kept.distinct, fun g member => (kept.formed g member).numbered,
    kept.orderly.imp Precedes.epoch, kept.orderly.imp Precedes.single, kept.bounded,
    kept.bootsBounded, fun c live g member active => kept.retains live member active, ?_⟩
  exact importTable_iff.mpr ⟨rfl, kept.congr rfl rfl⟩

end LineageTable
end SplitBrainFabric
