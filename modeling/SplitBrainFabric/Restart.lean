import SplitBrainFabric.Ledger

/-! Opening the service on the files of an earlier one: load, replay, rebuild, one step of
the clock, then the recovery that fences what was open. -/

namespace SplitBrainFabric
open Words

namespace Work

/-- Run a program on the registry alone. -/
def onState {α : Type} (m : Prog Status RegistryState α) : Prog Status Work α :=
  Prog.zoom (·.state) (fun s w => { w with state := s }) m

theorem onState_ok {α : Type} {m : Prog Status RegistryState α} {w w' : Work} {a : α}
    (ran : (onState m).exec w = (.ok a, w')) :
    ∃ s, m.exec w.state = (.ok a, s) ∧ w' = { w with state := s } := by
  rcases inner : m.exec w.state with ⟨r, s⟩
  rw [onState, Prog.exec_zoom, inner] at ran
  cases ran
  exact ⟨s, rfl, rfl⟩

end Work

namespace RegistryService

/-- The registry as the files describe it, before anything of it is fenced. -/
def restore (config : RegistryConfig) (base : Option Checkpoint) (log : List JournalRecord) :
    Prog Status RegistryState PUnit := do
  RegistryState.reload config 0 { node := config.node } base log
  RegistryState.rebuild

/-- The clock stays where it is when it cannot move. -/
def advance : Prog Status RegistryState Step := do
  let s ← get
  Prog.refuseIf (s.clock = maxWord) (.make .exhausted .counterOverflow)
  set { s with clock := s.clock + 1 }
  pure (s.clock + 1)

/-- What an open does to the registry, from a snapshot and the records of the journal. -/
def openState (config : RegistryConfig) (base : Option Checkpoint) (log : List JournalRecord) :
    Prog Status Work PUnit := do
  Work.onState (restore config base log)
  let now ← Work.onState advance
  Work.recoverAfterRestart now

variable {config : RegistryConfig} {base : Option Checkpoint} {log : List JournalRecord}

theorem advance_ok {s s' : RegistryState} {now : Step} (ran : advance.exec s = (.ok now, s')) :
    s.clock ≠ maxWord ∧ now = s.clock + 1 ∧ s' = { s with clock := s.clock + 1 } := by
  rw [advance, Prog.exec_get_bind] at ran
  obtain ⟨room, ran⟩ := Prog.refuseIf_ok ran
  cases ran
  exact ⟨room, rfl, rfl⟩

/-- An open that succeeds got through each of its parts. -/
theorem openState_ok {w w' : Work} (ran : (openState config base log).exec w = (.ok ⟨⟩, w')) :
    ∃ s, (RegistryState.reload config 0 { node := config.node } base log).exec w.state =
        (.ok ⟨⟩, s) ∧ RegistryState.rebuild.exec s = (.ok ⟨⟩, s.rebuilt) ∧
      s.rebuilt.clock ≠ maxWord ∧
      (Work.recoverAfterRestart (s.rebuilt.clock + 1)).exec
        { w with state := { s.rebuilt with clock := s.rebuilt.clock + 1 } } = (.ok ⟨⟩, w') := by
  obtain ⟨_, w₁, restored, ran⟩ := Prog.bind_ok ran
  obtain ⟨now, w₂, advanced, ran⟩ := Prog.bind_ok ran
  obtain ⟨s, built, rfl⟩ := Work.onState_ok restored
  obtain ⟨s₂, moved, rfl⟩ := Work.onState_ok advanced
  obtain ⟨_, s₁, loaded, rebuilt⟩ := Prog.bind_ok built
  obtain ⟨room, rfl, rfl⟩ := advance_ok moved
  obtain rfl := RegistryState.rebuild_ok rebuilt
  exact ⟨s₁, loaded, rebuilt, room, ran⟩

end RegistryService

namespace History

/-- An open on what a crash leaves, from one of the snapshots or from none. -/
def reopened (h : History) (files : Restart) (point : Option Nat) : Except Status PUnit × Work :=
  (RegistryService.openState files.config (point.bind (h.checkpoints[·]?)) (h.survived files)).exec
    { state := { fabric := files.fabric } }

/-- The service behind an open that succeeded. -/
def resumed (h : History) (files : Restart) (w : Work) : History :=
  { h with
    live := w.state
    log := h.survived files ++ w.emitted
    issued := h.issued.append { incarnations := [w.state.boot.incarnation] }
    serving := true }

/-- An open is a restart, a rebuild and a tick, and then a recovery that succeeds. -/
theorem reopened_parts {h : History} {files : Restart} {point : Option Nat} {w : Work}
    (opened : h.reopened files point = (.ok ⟨⟩, w)) :
    ∃ h' : History, Relation.ReflTransGen (Turn fun _ _ => True) h h' ∧
      (Work.recoverAfterRestart h'.live.clock).exec h'.work = (.ok ⟨⟩, w) ∧
      h'.called .recoverAfterRestart h'.live.clock = h.resumed files w := by
  obtain ⟨s, loaded, rebuilt, room, recovered⟩ := RegistryService.openState_ok opened
  let files' : Restart :=
    { files with base := point, clock := 0, boot := { node := files.config.node } }
  let h₁ : History := { h with live := s, log := h.survived files, serving := false }
  let h₂ : History := { h₁ with live := s.rebuilt }
  let h₃ : History := { h₂ with live := { s.rebuilt with clock := s.rebuilt.clock + 1 } }
  have first : h.step (.restart files') = some h₁ := by
    have loaded : (RegistryState.reload files'.config files'.clock files'.boot
        (files'.base.bind (h.checkpoints[·]?)) (h.survived files')).exec
        { fabric := files'.fabric } = (.ok ⟨⟩, s) := loaded
    simp only [step, loaded]
    rfl
  have second : h₁.step .rebuild = some h₂ := by
    simp only [step, h₁, rebuilt, h₂]
  have third : h₂.step .tick = some h₃ := by
    simp only [step, h₂, if_neg room, h₃]
  have recovered : (Work.recoverAfterRestart (s.rebuilt.clock + 1)).exec h₃.work = (.ok ⟨⟩, w) :=
    recovered
  have after : Op.after (s.rebuilt.clock + 1) h₃.work .recoverAfterRestart = w :=
    congrArg Prod.snd recovered
  have issue : Op.issue (s.rebuilt.clock + 1) h₃.work .recoverAfterRestart =
      { incarnations := [w.state.boot.incarnation] } := by
    simp only [Op.issue, recovered]
  have last : h₃.called .recoverAfterRestart (s.rebuilt.clock + 1) = h.resumed files w := by
    simp only [called, after, issue]
    rfl
  exact ⟨h₃, .tail (.tail (.single ⟨_, trivial, first⟩) ⟨_, trivial, second⟩) ⟨_, trivial, third⟩,
    recovered, last⟩

theorem Reachable.resumed {h : History} {files : Restart} {point : Option Nat} {w : Work}
    (reached : Reachable (fun _ _ => True) h) (opened : h.reopened files point = (.ok ⟨⟩, w)) :
    Reachable (fun _ _ => True) (h.resumed files w) := by
  obtain ⟨h', turns, -, last⟩ := reopened_parts opened
  exact (reached.turns turns).turns
    (.single ⟨.call .recoverAfterRestart h'.live.clock, trivial, congrArg some last⟩)

end History
end SplitBrainFabric
