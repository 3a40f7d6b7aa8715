import Mathlib.Tactic.Common

/-! Imperative programs that may fail and keep what they did before failing: a
state monad under an exception. `Ensures` is total correctness with a separate
postcondition for each way out, so a program that must not fail has `False` there. -/

/-- A chain of early returns that gave `z` got past every return of something else. -/
theorem else_of_ne {α : Type} {c : Prop} [Decidable c] {x y z : α}
    (ran : (if c then x else y) = z) (differ : x ≠ z) : ¬ c ∧ y = z := by
  by_cases h : c
  · rw [if_pos h] at ran
    exact absurd ran differ
  · rw [if_neg h] at ran
    exact ⟨h, ran⟩

/-- The branch that lacks a property is not the one taken. -/
theorem else_of_not {α : Type} {p : α → Prop} {c : Prop} [Decidable c] {x y : α}
    (holds : p (if c then x else y)) (lacks : ¬ p x) : ¬ c ∧ (if c then x else y) = y ∧ p y := by
  by_cases h : c
  · rw [if_pos h] at holds
    exact absurd holds lacks
  · rw [if_neg h] at holds ⊢
    exact ⟨h, rfl, holds⟩

/-- A refusal of type `ε` leaves the state as the program had it at that point. -/
abbrev Prog (ε σ : Type) := ExceptT ε (StateM σ)

namespace Prog

variable {ε ε' σ τ α β : Type}

def exec (m : Prog ε σ α) (s : σ) : Except ε α × σ := m.run.run s

def ofExcept (x : Except ε α) : Prog ε σ α := fun s => (x, s)

/-- The early return of a failed check. -/
def refuseIf (c : Prop) [Decidable c] (e : ε) : Prog ε σ PUnit := if c then throw e else pure ⟨⟩

/-- Run a program on a component of the state. -/
def zoom (view : σ → τ) (update : τ → σ → σ) (m : Prog ε τ α) : Prog ε σ α := fun s =>
  ((m.exec (view s)).1, update (m.exec (view s)).2 s)

/-- The same program with its refusals reported in another form. -/
def mapError (f : ε → ε') (m : Prog ε σ α) : Prog ε' σ α := fun s =>
  ((m.exec s).1.mapError f, (m.exec s).2)

/-- What a handler replies, whichever way it ends. -/
def answer : Except α α → α
  | .ok a => a
  | .error a => a

/-- Both ways out carry the answer: the shape of a handler that always replies. -/
def reply (m : Prog α σ α) : StateM σ α := fun s =>
  match m.exec s with
  | (.ok a, s') => (a, s')
  | (.error a, s') => (a, s')

@[simp] theorem exec_pure (a : α) (s : σ) : (pure a : Prog ε σ α).exec s = (.ok a, s) := rfl

@[simp] theorem exec_throw (e : ε) (s : σ) : (throw e : Prog ε σ α).exec s = (.error e, s) := rfl

@[simp] theorem exec_get (s : σ) : (get : Prog ε σ σ).exec s = (.ok s, s) := rfl

@[simp] theorem exec_set (t s : σ) : (set t : Prog ε σ PUnit).exec s = (.ok ⟨⟩, t) := rfl

@[simp] theorem exec_modify (f : σ → σ) (s : σ) :
    (modify f : Prog ε σ PUnit).exec s = (.ok ⟨⟩, f s) := rfl

@[simp] theorem exec_ofExcept (x : Except ε α) (s : σ) :
    (ofExcept x : Prog ε σ α).exec s = (x, s) := rfl

@[simp] theorem exec_zoom (view : σ → τ) (update : τ → σ → σ) (m : Prog ε τ α) (s : σ) :
    (zoom view update m).exec s = ((m.exec (view s)).1, update (m.exec (view s)).2 s) := rfl

theorem exec_bind (m : Prog ε σ α) (f : α → Prog ε σ β) (s : σ) :
    (m >>= f).exec s = match m.exec s with
      | (.ok a, s') => (f a).exec s'
      | (.error e, s') => (.error e, s') := by
  simp only [exec, ExceptT.run, bind, ExceptT.bind, ExceptT.mk, ExceptT.bindCont, StateT.bind,
    StateT.run]
  rcases m s with ⟨r, s'⟩
  cases r <;> rfl

theorem exec_bind_ok {m : Prog ε σ α} {f : α → Prog ε σ β} {s s' : σ} {a : α}
    (ran : m.exec s = (.ok a, s')) : (m >>= f).exec s = (f a).exec s' := by
  rw [exec_bind, ran]

theorem exec_bind_error {m : Prog ε σ α} {f : α → Prog ε σ β} {s s' : σ} {e : ε}
    (failed : m.exec s = (.error e, s')) : (m >>= f).exec s = (.error e, s') := by
  rw [exec_bind, failed]

/-- The only way a sequence succeeds is through both of its parts. -/
theorem bind_ok {m : Prog ε σ α} {f : α → Prog ε σ β} {s t : σ} {b : β}
    (ran : (m >>= f).exec s = (.ok b, t)) :
    ∃ a s', m.exec s = (.ok a, s') ∧ (f a).exec s' = (.ok b, t) := by
  rw [exec_bind] at ran
  rcases h : m.exec s with ⟨r, s'⟩
  rw [h] at ran
  cases r with
  | error e => cases ran
  | ok a => exact ⟨a, s', rfl, ran⟩

theorem exec_refuseIf {c : Prop} [Decidable c] (e : ε) (f : PUnit → Prog ε σ β) (s : σ) :
    (refuseIf c e >>= f).exec s = if c then (.error e, s) else (f ⟨⟩).exec s := by
  by_cases h : c
  · simp only [refuseIf, if_pos h]
    exact exec_bind_error rfl
  · simp only [refuseIf, if_neg h]
    exact exec_bind_ok rfl

theorem refuseIf_ok {c : Prop} [Decidable c] {e : ε} {f : PUnit → Prog ε σ β} {s t : σ} {b : β}
    (ran : (refuseIf c e >>= f).exec s = (.ok b, t)) : ¬ c ∧ (f ⟨⟩).exec s = (.ok b, t) := by
  rw [exec_refuseIf] at ran
  split at ran
  · cases ran
  · rename_i h
    exact ⟨h, ran⟩

theorem exec_ofExcept_bind (x : Except ε α) (f : α → Prog ε σ β) (s : σ) :
    (ofExcept x >>= f).exec s = match x with
      | .ok a => (f a).exec s
      | .error e => (.error e, s) := by
  cases x with
  | ok a => exact exec_bind_ok rfl
  | error e => exact exec_bind_error rfl

theorem ofExcept_ok {x : Except ε α} {f : α → Prog ε σ β} {s t : σ} {b : β}
    (ran : (ofExcept x >>= f).exec s = (.ok b, t)) :
    ∃ a, x = .ok a ∧ (f a).exec s = (.ok b, t) := by
  rw [exec_ofExcept_bind] at ran
  cases x with
  | ok a => exact ⟨a, rfl, ran⟩
  | error e => cases ran

theorem exec_get_bind (f : σ → Prog ε σ β) (s : σ) : (get >>= f).exec s = (f s).exec s := rfl

theorem exec_modify_bind (g : σ → σ) (f : PUnit → Prog ε σ β) (s : σ) :
    (modify g >>= f).exec s = (f ⟨⟩).exec (g s) := rfl

@[simp] theorem exec_ite (c : Prop) [Decidable c] (a b : Prog ε σ α) (s : σ) :
    (if c then a else b).exec s = if c then a.exec s else b.exec s := by
  split <;> rfl

/-- A check moves nothing, whatever it finds. -/
theorem refuseIf_keeps {c : Prop} [Decidable c] {e : ε} {r : Except ε PUnit} {s t : σ}
    (ran : (refuseIf c e : Prog ε σ PUnit).exec s = (r, t)) : t = s := by
  rw [refuseIf, exec_ite] at ran
  split at ran <;> (cases ran; rfl)

@[simp] theorem exec_mapError (f : ε → ε') (m : Prog ε σ α) (s : σ) :
    (mapError f m).exec s = ((m.exec s).1.mapError f, (m.exec s).2) := rfl

theorem mapError_ok {f : ε → ε'} {m : Prog ε σ α} {s t : σ} {a : α}
    (ran : (mapError f m).exec s = (.ok a, t)) : m.exec s = (.ok a, t) := by
  rw [exec_mapError] at ran
  rcases h : m.exec s with ⟨r, s'⟩
  rw [h] at ran
  cases r with
  | error e => cases ran
  | ok b => cases ran; rfl

theorem exec_tryCatch (m : Prog ε σ α) (h : ε → Prog ε σ α) (s : σ) :
    (tryCatch m h).exec s = match m.exec s with
      | (.ok a, s') => (.ok a, s')
      | (.error e, s') => (h e).exec s' := by
  simp only [exec, ExceptT.run, tryCatch, tryCatchThe, MonadExceptOf.tryCatch, ExceptT.tryCatch,
    ExceptT.mk, StateT.run, bind, StateT.bind]
  rcases m s with ⟨r, s'⟩
  cases r <;> rfl

@[simp] theorem exec_forM_nil (f : α → Prog ε σ PUnit) (s : σ) :
    (([] : List α).forM f).exec s = (.ok ⟨⟩, s) := rfl

theorem forM_cons (f : α → Prog ε σ PUnit) (x : α) (rest : List α) :
    (x :: rest).forM f = (f x >>= fun _ => rest.forM f) := rfl

theorem forM_append (f : α → Prog ε σ PUnit) (l rest : List α) :
    (l ++ rest).forM f = (l.forM f >>= fun _ => rest.forM f) := List.forM_append

theorem foldlM_cons (f : β → α → Prog ε σ β) (b : β) (x : α) (rest : List α) :
    (x :: rest).foldlM f b = (f b x >>= fun b' => rest.foldlM f b') := rfl

/-- A loop without a value is a fold over nothing. -/
theorem forM_eq_foldlM (f : α → Prog ε σ PUnit) (l : List α) :
    l.forM f = l.foldlM (fun _ => f) ⟨⟩ := by
  induction l with
  | nil => rfl
  | cons x rest ih => rw [forM_cons, foldlM_cons, ih]

/-- A refusal of the given kind at this state has changed nothing. -/
def FailsCleanOn (on : ε → Prop) (m : Prog ε σ α) (s : σ) : Prop :=
  ∀ e t, on e → m.exec s = (.error e, t) → t = s

abbrev FailsClean (m : Prog ε σ α) (s : σ) : Prop := FailsCleanOn (fun _ => True) m s

namespace FailsCleanOn

variable {on : ε → Prop}

theorem refuseIf {c : Prop} [Decidable c] {e : ε} {f : PUnit → Prog ε σ β} {s : σ}
    (rest : ¬ c → FailsCleanOn on (f ⟨⟩) s) : FailsCleanOn on (Prog.refuseIf c e >>= f) s := by
  intro e' t kind failed
  rw [exec_refuseIf] at failed
  by_cases h : c
  · rw [if_pos h] at failed
    cases failed
    rfl
  · rw [if_neg h] at failed
    exact rest h e' t kind failed

theorem get {f : σ → Prog ε σ β} {s : σ} (rest : FailsCleanOn on (f s) s) :
    FailsCleanOn on (MonadState.get >>= f) s := rest

theorem ofExcept {x : Except ε α} {f : α → Prog ε σ β} {s : σ}
    (rest : ∀ a, x = .ok a → FailsCleanOn on (f a) s) :
    FailsCleanOn on (Prog.ofExcept x >>= f) s := by
  intro e t kind failed
  rw [exec_ofExcept_bind] at failed
  cases x with
  | ok a => exact rest a rfl e t kind failed
  | error e' => cases failed; rfl

theorem throw (e : ε) (s : σ) : FailsCleanOn on (MonadExcept.throw e : Prog ε σ α) s := by
  intro e' t _ failed
  cases failed
  rfl

theorem modify (g : σ → σ) (s : σ) : FailsCleanOn on (modify g : Prog ε σ PUnit) s := by
  intro e t _ failed
  cases failed

/-- Only the first program can fail. -/
theorem bind_pure {m : Prog ε σ α} {f : α → β} {s : σ} (first : FailsCleanOn on m s) :
    FailsCleanOn on (m >>= fun a => pure (f a)) s := by
  intro e t kind failed
  rw [exec_bind] at failed
  rcases ran : m.exec s with ⟨r, s'⟩
  rw [ran] at failed
  cases r with
  | ok a => cases failed
  | error e' =>
    cases failed
    exact first e t kind ran

end FailsCleanOn

/-- From every state meeting `pre` the program ends in `post` or is refused in `fail`. -/
def Ensures (pre : σ → Prop) (m : Prog ε σ α) (post : α → σ → Prop) (fail : ε → σ → Prop) : Prop :=
  ∀ s, pre s → match m.exec s with
    | (.ok a, s') => post a s'
    | (.error e, s') => fail e s'

namespace Ensures

variable {pre : σ → Prop} {post : α → σ → Prop} {fail : ε → σ → Prop}

theorem ok {m : Prog ε σ α} (spec : Ensures pre m post fail) {s s' : σ} {a : α} (start : pre s)
    (ran : m.exec s = (.ok a, s')) : post a s' := by
  have h := spec s start
  rw [ran] at h
  exact h

theorem error {m : Prog ε σ α} (spec : Ensures pre m post fail) {s s' : σ} {e : ε}
    (start : pre s) (refused : m.exec s = (.error e, s')) : fail e s' := by
  have h := spec s start
  rw [refused] at h
  exact h

/-- The same postcondition both ways out. -/
theorem either {m : Prog ε σ α} {always : σ → Prop}
    (spec : Ensures pre m (fun _ => always) (fun _ => always)) {s s' : σ} {r : Except ε α}
    (start : pre s) (ran : m.exec s = (r, s')) : always s' := by
  cases r with
  | ok a => exact spec.ok start ran
  | error e => exact spec.error start ran

theorem intro {m : Prog ε σ α}
    (onOk : ∀ s a s', pre s → m.exec s = (.ok a, s') → post a s')
    (onError : ∀ s e s', pre s → m.exec s = (.error e, s') → fail e s') :
    Ensures pre m post fail := by
  intro s start
  rcases h : m.exec s with ⟨r, s'⟩
  cases r with
  | ok a => exact onOk s a s' start h
  | error e => exact onError s e s' start h

theorem consequence {m : Prog ε σ α} {pre' : σ → Prop} {post' : α → σ → Prop}
    {fail' : ε → σ → Prop} (spec : Ensures pre m post fail) (stronger : ∀ s, pre' s → pre s)
    (weaker : ∀ a s, post a s → post' a s) (refused : ∀ e s, fail e s → fail' e s) :
    Ensures pre' m post' fail' :=
  intro (fun s a s' start ran => weaker a s' (spec.ok (stronger s start) ran))
    (fun s e s' start failed => refused e s' (spec.error (stronger s start) failed))

theorem bind {m : Prog ε σ α} {f : α → Prog ε σ β} {middle : α → σ → Prop}
    {post : β → σ → Prop} (first : Ensures pre m middle fail)
    (second : ∀ a, Ensures (middle a) (f a) post fail) : Ensures pre (m >>= f) post fail := by
  intro s start
  rw [exec_bind]
  have h := first s start
  rcases ran : m.exec s with ⟨r, s'⟩
  rw [ran] at h
  cases r with
  | ok a => exact second a s' h
  | error e => exact h

theorem pure {a : α} (holds : ∀ s, pre s → post a s) :
    Ensures pre (Pure.pure a : Prog ε σ α) post fail :=
  fun s start => holds s start

theorem throw {e : ε} (holds : ∀ s, pre s → fail e s) :
    Ensures pre (MonadExcept.throw e : Prog ε σ α) post fail :=
  fun s start => holds s start

theorem get {f : σ → Prog ε σ β} {post : β → σ → Prop}
    (rest : ∀ t, Ensures (fun s => s = t ∧ pre s) (f t) post fail) :
    Ensures pre (MonadState.get >>= f) post fail := by
  intro s start
  exact rest s s ⟨rfl, start⟩

theorem ite {c : Prop} [Decidable c] {a b : Prog ε σ α}
    (yes : c → Ensures pre a post fail) (no : ¬ c → Ensures pre b post fail) :
    Ensures pre (if c then a else b) post fail := by
  split
  · rename_i h; exact yes h
  · rename_i h; exact no h

theorem refuseIf {c : Prop} [Decidable c] {e : ε} {f : PUnit → Prog ε σ β}
    {post : β → σ → Prop} (refused : c → ∀ s, pre s → fail e s)
    (rest : ¬ c → Ensures pre (f ⟨⟩) post fail) : Ensures pre (Prog.refuseIf c e >>= f) post fail := by
  intro s start
  rw [exec_refuseIf]
  by_cases h : c
  · rw [if_pos h]
    exact refused h s start
  · rw [if_neg h]
    exact rest h s start

theorem modify {g : σ → σ} {f : PUnit → Prog ε σ β} {post : β → σ → Prop}
    {middle : σ → Prop} (moves : ∀ s, pre s → middle (g s))
    (rest : Ensures middle (f ⟨⟩) post fail) :
    Ensures pre (modifyGet (fun s => (PUnit.unit, g s)) >>= f) post fail :=
  fun s start => rest (g s) (moves s start)

theorem mapError {m : Prog ε σ α} {g : ε → ε'} {fail : ε' → σ → Prop}
    (spec : Ensures pre m post (fun e s => fail (g e) s)) :
    Ensures pre (Prog.mapError g m) post fail := by
  intro s start
  have h := spec s start
  rw [exec_mapError]
  rcases ran : m.exec s with ⟨r, s'⟩
  rw [ran] at h
  cases r with
  | ok a => exact h
  | error e => exact h

/-- A loop over a list, with an invariant that may speak of what is still to come. -/
theorem forM {f : α → Prog ε σ PUnit} {fail : ε → σ → Prop} (invariant : List α → σ → Prop)
    (step : ∀ x rest, Ensures (invariant (x :: rest)) (f x) (fun _ => invariant rest) fail)
    (l : List α) : Ensures (invariant l) (l.forM f) (fun _ => invariant []) fail := by
  induction l with
  | nil => exact fun s start => start
  | cons x rest ih =>
    rw [forM_cons]
    exact bind (step x rest) (fun _ => ih)

theorem foldlM {f : β → α → Prog ε σ β} {fail : ε → σ → Prop}
    (invariant : List α → β → σ → Prop)
    (step : ∀ x rest b, Ensures (invariant (x :: rest) b) (f b x) (invariant rest) fail)
    (l : List α) (b : β) : Ensures (invariant l b) (l.foldlM f b) (invariant []) fail := by
  induction l generalizing b with
  | nil => exact fun s start => start
  | cons x rest ih =>
    rw [foldlM_cons]
    exact bind (step x rest b) (fun b' => ih b')

end Ensures

/-- An invariant of the program, however it ends. -/
def Keeps (always : σ → Prop) (m : Prog ε σ α) : Prop :=
  Ensures always m (fun _ => always) (fun _ => always)

namespace Keeps

variable {always : σ → Prop}

theorem run {m : Prog ε σ α} (keeps : Keeps always m) {s s' : σ} {r : Except ε α}
    (start : always s) (ran : m.exec s = (r, s')) : always s' := Ensures.either keeps start ran

theorem of_run {m : Prog ε σ α}
    (keeps : ∀ s r s', always s → m.exec s = (r, s') → always s') : Keeps always m :=
  .intro (fun s _ s' start ran => keeps s _ s' start ran)
    (fun s _ s' start ran => keeps s _ s' start ran)

theorem pure (a : α) : Keeps always (Pure.pure a : Prog ε σ α) := Ensures.pure fun _ holds => holds

theorem throw (e : ε) : Keeps always (MonadExcept.throw e : Prog ε σ α) :=
  Ensures.throw fun _ holds => holds

theorem get {f : σ → Prog ε σ β} (rest : ∀ t, always t → Keeps always (f t)) :
    Keeps always (MonadState.get >>= f) := fun s start => rest s start s start

theorem bind {m : Prog ε σ α} {f : α → Prog ε σ β} (first : Keeps always m)
    (second : ∀ a, Keeps always (f a)) : Keeps always (m >>= f) := Ensures.bind first second

theorem refuseIf {c : Prop} [Decidable c] {e : ε} {f : PUnit → Prog ε σ β}
    (rest : ¬ c → Keeps always (f ⟨⟩)) : Keeps always (Prog.refuseIf c e >>= f) :=
  Ensures.refuseIf (fun _ _ holds => holds) rest

theorem check {c : Prop} [Decidable c] {e : ε} : Keeps always (Prog.refuseIf c e) :=
  of_run fun _ _ _ start ran => refuseIf_keeps ran ▸ start

theorem ofExcept {x : Except ε α} : Keeps always (Prog.ofExcept x) :=
  of_run fun _ _ _ start ran => by cases ran; exact start

theorem ite {c : Prop} [Decidable c] {a b : Prog ε σ α} (yes : Keeps always a)
    (no : Keeps always b) : Keeps always (if c then a else b) :=
  Ensures.ite (fun _ => yes) (fun _ => no)

theorem modify {g : σ → σ} (moves : ∀ s, always s → always (g s)) :
    Keeps always (MonadStateOf.modifyGet (fun s => (PUnit.unit, g s)) : Prog ε σ PUnit) :=
  fun s start => moves s start

theorem mapError {m : Prog ε σ α} {g : ε → ε'} (keeps : Keeps always m) :
    Keeps always (Prog.mapError g m) := Ensures.mapError keeps

theorem foldlM_of_mem {f : β → α → Prog ε σ β} {l : List α}
    (step : ∀ b, ∀ x ∈ l, Keeps always (f b x)) (b : β) : Keeps always (l.foldlM f b) := by
  induction l generalizing b with
  | nil => exact .pure b
  | cons x rest ih =>
    rw [foldlM_cons]
    exact .bind (step b x List.mem_cons_self) fun b' =>
      ih (fun b y later => step b y (List.mem_cons_of_mem x later)) b'

theorem forM_of_mem {f : α → Prog ε σ PUnit} {l : List α} (step : ∀ x ∈ l, Keeps always (f x)) :
    Keeps always (l.forM f) := by
  rw [forM_eq_foldlM]
  exact foldlM_of_mem (fun _ => step) _

theorem forM {f : α → Prog ε σ PUnit} (step : ∀ x, Keeps always (f x)) (l : List α) :
    Keeps always (l.forM f) := forM_of_mem fun x _ => step x

theorem foldlM {f : β → α → Prog ε σ β} (step : ∀ b x, Keeps always (f b x)) (l : List α) (b : β) :
    Keeps always (l.foldlM f b) := foldlM_of_mem (fun b x _ => step b x) b

end Keeps
end Prog
