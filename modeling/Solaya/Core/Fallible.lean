import Mathlib.Logic.Basic

/-!
# Fallible updates of a mutable state

A system call that works on a kernel object under its lock runs a series of
steps, each of which may fail with an error that the call returns at once.
Changes made by the steps before the failing one stay: the object is updated
in place.  `Fallible σ ε α` is that kind of computation, `ExceptT ε (StateM σ)`,
whose failure keeps the state reached so far.

Two properties of such computations are what a caller relies on: that a step
only reads (`ReadOnly`), and that a failure leaves the state as it was
(`KeepsOnError`).  A third, `Preserves P`, says that an invariant of the state
survives.  Each comes with rules for `pure`, `throw`, the two primitives
`read` and `update`, and `bind`, so that the property of a whole call follows
from its steps.  A computation that updates the state and then fails is not
`KeepsOnError`; no rule gives that.
-/

namespace Solaya

/-- A computation on a mutable state that can fail; a failure keeps the state
reached so far, as in-place updates do. -/
abbrev Fallible (σ ε α : Type) := ExceptT ε (StateM σ) α

namespace Fallible

variable {σ ε α β : Type}

/-- The outcome and the final state from `s`. -/
def run (op : Fallible σ ε α) (s : σ) : Except ε α × σ := StateT.run (ExceptT.run op) s

/-- A method of the state that checks before it changes anything: its error
leaves the state as it was. -/
def update (f : σ → Except ε (α × σ)) : Fallible σ ε α :=
  ExceptT.mk fun s =>
    match f s with
    | .error e => (.error e, s)
    | .ok (a, s') => (.ok a, s')

/-- A query of the state. -/
def read (f : σ → Except ε α) : Fallible σ ε α :=
  ExceptT.mk fun s => (f s, s)

/-- A check that does not look at the state, such as a conversion of an
argument. -/
def check (x : Except ε α) : Fallible σ ε α := read fun _ => x

/-! ## Running -/

@[simp]
theorem run_pure (a : α) (s : σ) : run (pure a : Fallible σ ε α) s = (.ok a, s) := rfl

@[simp]
theorem run_throw (e : ε) (s : σ) : run (throw e : Fallible σ ε α) s = (.error e, s) := rfl

@[simp]
theorem run_read (f : σ → Except ε α) (s : σ) : run (read f) s = (f s, s) := rfl

@[simp]
theorem run_check (x : Except ε α) (s : σ) : run (check x) s = (x, s) := rfl

theorem run_update (f : σ → Except ε (α × σ)) (s : σ) :
    run (update f) s =
      match f s with
      | .error e => (.error e, s)
      | .ok (a, s') => (.ok a, s') := rfl

theorem run_bind (op : Fallible σ ε α) (f : α → Fallible σ ε β) (s : σ) :
    run (op >>= f) s =
      match run op s with
      | (.error e, s') => (.error e, s')
      | (.ok a, s') => run (f a) s' := by
  simp only [run, ExceptT.run_bind, StateT.run_bind]
  rcases StateT.run (ExceptT.run op) s with ⟨r, s'⟩
  cases r <;> rfl

/-- The two ways a bound computation can end: its first part fails, or it
succeeds and the rest runs from the state it left. -/
theorem run_bind_cases (op : Fallible σ ε α) (f : α → Fallible σ ε β) (s : σ) :
    (∃ e, (run op s).1 = .error e ∧ run (op >>= f) s = (.error e, (run op s).2)) ∨
      ∃ a, (run op s).1 = .ok a ∧ run (op >>= f) s = run (f a) (run op s).2 := by
  rw [run_bind]
  rcases run op s with ⟨r, s'⟩
  cases r with
  | error e => exact .inl ⟨e, rfl, rfl⟩
  | ok a => exact .inr ⟨a, rfl, rfl⟩

/-- A bound computation that succeeds got there through a success of its
first part. -/
theorem run_bind_eq_ok {op : Fallible σ ε α} {f : α → Fallible σ ε β} {s s'' : σ} {b : β}
    (h : run (op >>= f) s = (.ok b, s'')) :
    ∃ a s', run op s = (.ok a, s') ∧ run (f a) s' = (.ok b, s'') := by
  rcases run_bind_cases op f s with ⟨e, -, hrun⟩ | ⟨a, hok, hrun⟩
  · rw [hrun] at h
    cases h
  · exact ⟨a, (run op s).2, Prod.ext hok rfl, hrun ▸ h⟩

theorem run_update_eq_ok {f : σ → Except ε (α × σ)} {s s' : σ} {a : α}
    (h : run (update f) s = (.ok a, s')) : f s = .ok (a, s') := by
  rw [run_update] at h
  cases hfs : f s with
  | error e => rw [hfs] at h; cases h
  | ok r => rw [hfs] at h; cases h; rfl

/-! ## Computations that only read -/

/-- `op` never changes the state. -/
def ReadOnly (op : Fallible σ ε α) : Prop :=
  ∀ s, (run op s).2 = s

theorem readOnly_pure (a : α) : ReadOnly (pure a : Fallible σ ε α) := fun _ => rfl

theorem readOnly_throw (e : ε) : ReadOnly (throw e : Fallible σ ε α) := fun _ => rfl

theorem readOnly_read (f : σ → Except ε α) : ReadOnly (read f) := fun _ => rfl

theorem readOnly_check (x : Except ε α) : ReadOnly (check x : Fallible σ ε α) :=
  readOnly_read _

theorem ReadOnly.bind {op : Fallible σ ε α} {f : α → Fallible σ ε β} (hop : ReadOnly op)
    (hf : ∀ a, ReadOnly (f a)) : ReadOnly (op >>= f) := by
  intro s
  rcases run_bind_cases op f s with ⟨e, -, hrun⟩ | ⟨a, -, hrun⟩
  · rw [hrun, hop s]
  · rw [hrun, hop s, hf a s]

/-! ## Computations whose failure changes nothing -/

/-- A failure of `op` leaves the state as it was. -/
def KeepsOnError (op : Fallible σ ε α) : Prop :=
  ∀ s e, (run op s).1 = .error e → (run op s).2 = s

theorem ReadOnly.keepsOnError {op : Fallible σ ε α} (hop : ReadOnly op) : KeepsOnError op :=
  fun s _ _ => hop s

theorem keepsOnError_update (f : σ → Except ε (α × σ)) : KeepsOnError (update f) := by
  intro s e
  rw [run_update]
  cases f s with
  | error e' => intro _; rfl
  | ok r => intro h; cases h

/-- Reads followed by a step whose failure changes nothing: a failure of the
whole changes nothing. -/
theorem KeepsOnError.of_readOnly_bind {op : Fallible σ ε α} {f : α → Fallible σ ε β}
    (hop : ReadOnly op) (hf : ∀ a, KeepsOnError (f a)) : KeepsOnError (op >>= f) := by
  intro s e
  rcases run_bind_cases op f s with ⟨e', -, hrun⟩ | ⟨a, -, hrun⟩
  · intro _
    rw [hrun, hop s]
  · rw [hrun, hop s]
    exact hf a s e

/-- A step whose failure changes nothing, followed by a result that cannot
fail. -/
theorem KeepsOnError.bind_pure {op : Fallible σ ε α} (hop : KeepsOnError op) (g : α → β) :
    KeepsOnError (op >>= fun a => pure (g a)) := by
  intro s e
  rcases run_bind_cases op (fun a => pure (g a)) s with ⟨e', hfail, hrun⟩ | ⟨a, -, hrun⟩
  · intro _
    rw [hrun]
    exact hop s e' hfail
  · rw [hrun, run_pure]
    intro h
    cases h

/-! ## Invariants -/

/-- Every state `op` leaves from a state with `P` has `P`, whether it
succeeds or fails. -/
def Preserves (P : σ → Prop) (op : Fallible σ ε α) : Prop :=
  ∀ s, P s → P (run op s).2

theorem ReadOnly.preserves {op : Fallible σ ε α} (hop : ReadOnly op) (P : σ → Prop) :
    Preserves P op := by
  intro s hs
  rw [hop s]
  exact hs

theorem preserves_update {P : σ → Prop} {f : σ → Except ε (α × σ)}
    (hf : ∀ s a s', P s → f s = .ok (a, s') → P s') : Preserves P (update f) := by
  intro s hs
  rw [run_update]
  cases hfs : f s with
  | error e => exact hs
  | ok r => exact hf s r.1 r.2 hs hfs

/-- After a check, only the values it lets through matter. -/
theorem Preserves.check_bind {P : σ → Prop} {x : Except ε α} {f : α → Fallible σ ε β}
    (hf : ∀ a, x = .ok a → Preserves P (f a)) : Preserves P (check x >>= f) := by
  intro s hs
  rcases run_bind_cases (check x) f s with ⟨e, -, hrun⟩ | ⟨a, hok, hrun⟩
  · rw [hrun]
    exact hs
  · rw [hrun]
    exact hf a hok s hs

theorem Preserves.bind {P : σ → Prop} {op : Fallible σ ε α} {f : α → Fallible σ ε β}
    (hop : Preserves P op) (hf : ∀ a, Preserves P (f a)) : Preserves P (op >>= f) := by
  intro s hs
  rcases run_bind_cases op f s with ⟨e, -, hrun⟩ | ⟨a, -, hrun⟩
  · rw [hrun]
    exact hop s hs
  · rw [hrun]
    exact hf a _ (hop s hs)

end Fallible

end Solaya
