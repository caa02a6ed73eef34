import Mathlib.Logic.Relation

/-!
# Partial step functions and their runs

A component with mutable state is modelled by a step function
`step : σ → α → Option σ`: the state after serving one request of type `α`, or
`none` when serving it aborts (a failed assertion, an `expect` on `None`, an
arithmetic overflow).  This file fixes the two notions every state-machine
module of the development uses: running a finite list of requests, and the
states reachable from an initial state by successful steps, with the rule that
turns a step lemma into a statement about every reachable state.
-/

namespace Solaya.Machine

variable {σ α : Type*}

/-- Serve the requests of a list in order; `none` as soon as one of them aborts. -/
def run (step : σ → α → Option σ) : σ → List α → Option σ
  | s, [] => some s
  | s, a :: as => (step s a).bind fun s' => run step s' as

@[simp]
theorem run_nil (step : σ → α → Option σ) (s : σ) : run step s [] = some s := rfl

theorem run_cons (step : σ → α → Option σ) (s : σ) (a : α) (as : List α) :
    run step s (a :: as) = (step s a).bind fun s' => run step s' as := rfl

theorem run_append (step : σ → α → Option σ) (s : σ) (as bs : List α) :
    run step s (as ++ bs) = (run step s as).bind fun s' => run step s' bs := by
  induction as generalizing s with
  | nil => rfl
  | cons a as ih =>
      simp only [List.cons_append, run_cons]
      cases step s a with
      | none => rfl
      | some s' => exact ih s'

/-- The invariant rule for runs: what survives every successful step on an
admissible request holds after any run of admissible requests.  The requests
a component cannot refuse but whose arguments its environment constrains (what
a peer sends, what a caller passes) are the admissible ones. -/
theorem run_induction {step : σ → α → Option σ} (inv : σ → Prop) (admissible : α → Prop)
    (hstep : ∀ s a s', inv s → admissible a → step s a = some s' → inv s') :
    ∀ {s s' : σ} {as : List α}, inv s → (∀ a ∈ as, admissible a) → run step s as = some s' →
      inv s' := by
  intro s s' as
  induction as generalizing s with
  | nil =>
      intro hinv _ hrun
      cases hrun
      exact hinv
  | cons a as ih =>
      intro hinv hadmissible hrun
      rw [run_cons] at hrun
      cases hfirst : step s a with
      | none => simp [hfirst] at hrun
      | some s₁ =>
          rw [hfirst, Option.bind_some] at hrun
          have hinv₁ := hstep s a s₁ hinv (hadmissible a List.mem_cons_self) hfirst
          exact ih hinv₁ (fun b hb => hadmissible b (List.mem_cons_of_mem a hb)) hrun

/-- The totality rule for runs: when no step from a state with the invariant
aborts and every step keeps it, no run from such a state aborts. -/
theorem run_total {step : σ → α → Option σ} (inv : σ → Prop)
    (hstep : ∀ s a, inv s → ∃ s', step s a = some s' ∧ inv s') :
    ∀ {s : σ} (as : List α), inv s → ∃ s', run step s as = some s' ∧ inv s' := by
  intro s as
  induction as generalizing s with
  | nil => exact fun hinv => ⟨s, rfl, hinv⟩
  | cons a as ih =>
      intro hinv
      obtain ⟨s₁, hfirst, hinv₁⟩ := hstep s a hinv
      rw [run_cons, hfirst, Option.bind_some]
      exact ih hinv₁

/-- Some request takes `s` to `s'` without aborting. -/
def Steps (step : σ → α → Option σ) (s s' : σ) : Prop :=
  ∃ a, step s a = some s'

/-- The states reachable from `init` through requests that do not abort. -/
def Reachable (step : σ → α → Option σ) (init : σ) : σ → Prop :=
  Relation.ReflTransGen (Steps step) init

theorem Reachable.refl {step : σ → α → Option σ} {init : σ} :
    Reachable step init init :=
  Relation.ReflTransGen.refl

theorem Reachable.tail {step : σ → α → Option σ} {init s s' : σ} {a : α}
    (hreach : Reachable step init s) (hstep : step s a = some s') :
    Reachable step init s' :=
  Relation.ReflTransGen.tail hreach ⟨a, hstep⟩

/-- A state produced by running a list of requests is reachable. -/
theorem Reachable.of_run {step : σ → α → Option σ} {s : σ} :
    ∀ {init : σ} {as : List α}, run step init as = some s → Reachable step init s := by
  intro init as
  induction as generalizing init with
  | nil =>
      intro hrun
      cases hrun
      exact Reachable.refl
  | cons a as ih =>
      intro hrun
      rw [run_cons] at hrun
      cases hfirst : step init a with
      | none => simp [hfirst] at hrun
      | some s₁ =>
          rw [hfirst, Option.bind_some] at hrun
          exact Relation.ReflTransGen.head ⟨a, hfirst⟩ (ih hrun)

/-- The invariant rule: what holds initially and survives every successful step
holds in every reachable state. -/
theorem Reachable.induction {step : σ → α → Option σ} {init : σ} (inv : σ → Prop)
    (hinit : inv init) (hstep : ∀ s a s', inv s → step s a = some s' → inv s')
    {s : σ} (hreach : Reachable step init s) : inv s := by
  induction hreach with
  | refl => exact hinit
  | tail _ hlast ih =>
      obtain ⟨a, ha⟩ := hlast
      exact hstep _ a _ ih ha

end Solaya.Machine
