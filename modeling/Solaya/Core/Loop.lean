import Mathlib.Order.Basic

/-!
# Counting loops with fuel

`while counter < bound { (state, counter) = body(state, counter)?; }` is the
shape of every page loop of the kernel: the body may abort, and it moves the
counter forward.  `whileBelow` runs it on a fuel budget so that it computes;
the callers give it `bound` iterations, which a body that moves the counter by
at least one never uses up.  `whileBelow_rel` is the run rule: a relation between the
state at a counter and the final state, established at the exit and carried
back over one iteration, holds of every successful run.  `whileBelow_total`
is the progress rule (an invariant under which the body succeeds and advances
makes the loop return), and `whileBelow_eq_none` the failure rule (an
invariant that pins the counter below the bound makes it fail).
-/

namespace Solaya.Loop

variable {σ : Type*}

/-- The loop run with at most `fuel` iterations; out of fuel is `none`. -/
def whileBelow (bound : ℕ) (body : σ → ℕ → Option (σ × ℕ)) : ℕ → σ → ℕ → Option σ
  | 0, s, counter => if counter < bound then none else some s
  | fuel + 1, s, counter =>
      if counter < bound then
        (body s counter).bind fun (s', counter') => whileBelow bound body fuel s' counter'
      else some s

theorem whileBelow_zero (bound : ℕ) (body : σ → ℕ → Option (σ × ℕ)) (s : σ) (counter : ℕ) :
    whileBelow bound body 0 s counter = if counter < bound then none else some s := rfl

theorem whileBelow_succ (bound : ℕ) (body : σ → ℕ → Option (σ × ℕ)) (fuel : ℕ) (s : σ)
    (counter : ℕ) :
    whileBelow bound body (fuel + 1) s counter =
      if counter < bound then
        (body s counter).bind fun (s', counter') => whileBelow bound body fuel s' counter'
      else some s := rfl

variable {bound : ℕ} {body : σ → ℕ → Option (σ × ℕ)}

theorem whileBelow_of_le {counter : ℕ} (fuel : ℕ) (s : σ) (h : bound ≤ counter) :
    whileBelow bound body fuel s counter = some s := by
  cases fuel <;> simp [whileBelow_zero, whileBelow_succ, Nat.not_lt.mpr h]

theorem whileBelow_succ_of_lt {counter : ℕ} (fuel : ℕ) (s : σ) (h : counter < bound) :
    whileBelow bound body (fuel + 1) s counter =
      (body s counter).bind fun (s', counter') => whileBelow bound body fuel s' counter' := by
  rw [whileBelow_succ, if_pos h]

/-- The run rule: a relation `R s counter final` that holds at the exit and
is carried back over every iteration holds of every successful run. -/
theorem whileBelow_rel (R : σ → ℕ → σ → Prop)
    (hexit : ∀ s counter, bound ≤ counter → R s counter s)
    (hstep : ∀ s counter s' counter' final, counter < bound →
      body s counter = some (s', counter') → R s' counter' final → R s counter final) :
    ∀ (fuel : ℕ) (s : σ) (counter : ℕ) (final : σ),
      whileBelow bound body fuel s counter = some final → R s counter final := by
  intro fuel
  induction fuel with
  | zero =>
      intro s counter final h
      rw [whileBelow_zero] at h
      split_ifs at h with hlt
      cases h
      exact hexit s counter (Nat.not_lt.mp hlt)
  | succ fuel ih =>
      intro s counter final h
      by_cases hlt : counter < bound
      · rw [whileBelow_succ_of_lt fuel s hlt] at h
        obtain ⟨⟨s', counter'⟩, hbody, hrest⟩ := Option.bind_eq_some_iff.mp h
        exact hstep s counter s' counter' final hlt hbody (ih s' counter' final hrest)
      · rw [whileBelow_of_le _ s (Nat.not_lt.mp hlt)] at h
        cases h
        exact hexit s counter (Nat.not_lt.mp hlt)

/-- The progress rule: under an invariant that every iteration keeps, and with
which the body succeeds and moves the counter up, a run with enough fuel
returns, in a state where the invariant holds at the exit. -/
theorem whileBelow_total (I : σ → ℕ → Prop)
    (hstep : ∀ s counter, counter < bound → I s counter →
      ∃ s' counter', body s counter = some (s', counter') ∧ counter < counter' ∧ I s' counter') :
    ∀ (fuel : ℕ) (s : σ) (counter : ℕ), bound - counter ≤ fuel → I s counter →
      ∃ final counter', bound ≤ counter' ∧ I final counter' ∧
        whileBelow bound body fuel s counter = some final := by
  intro fuel
  induction fuel with
  | zero =>
      intro s counter hfuel hI
      exact ⟨s, counter, by omega, hI, whileBelow_of_le 0 s (by omega)⟩
  | succ fuel ih =>
      intro s counter hfuel hI
      by_cases hlt : counter < bound
      · obtain ⟨s', counter', hbody, hadvance, hI'⟩ := hstep s counter hlt hI
        rw [whileBelow_succ_of_lt fuel s hlt, hbody, Option.bind_some]
        exact ih s' counter' (by omega) hI'
      · exact ⟨s, counter, by omega, hI, whileBelow_of_le _ s (by omega)⟩

/-- The failure rule: an invariant that keeps the counter below the bound and
survives every successful iteration makes every run fail, in the body or for
want of fuel. -/
theorem whileBelow_eq_none (I : σ → ℕ → Prop) (hlt : ∀ s counter, I s counter → counter < bound)
    (hstep : ∀ s counter s' counter', I s counter → body s counter = some (s', counter') →
      I s' counter') :
    ∀ (fuel : ℕ) (s : σ) (counter : ℕ), I s counter →
      whileBelow bound body fuel s counter = none := by
  intro fuel
  induction fuel with
  | zero =>
      intro s counter hI
      simp [whileBelow_zero, hlt s counter hI]
  | succ fuel ih =>
      intro s counter hI
      rw [whileBelow_succ_of_lt fuel s (hlt s counter hI)]
      cases hbody : body s counter with
      | none => rfl
      | some next => exact ih next.1 next.2 (hstep s counter next.1 next.2 hI hbody)

end Solaya.Loop
