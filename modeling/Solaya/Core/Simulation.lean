import Solaya.Core.Machine

/-!
# Steps with replies, and the total specifications they refine

A request to a component usually gets a reply as well as changing its state:
`step : σ → α → Option (β × σ)`, with `none` for an abort as in `Machine`.
`runReplies` serves a list of requests and collects the replies.  What the
component is for is often a total function on a simpler state,
`spec : τ → α → β × τ`, and the code refines it through an abstraction
`abs : σ → τ` when every step that does not abort gives the reply the
specification gives and lands on the abstraction of the new state.
`runReplies_refines` lifts that one-step fact to every run, and
`runReplies_simulates` does the same when the simpler side is a step that may
abort too.
-/

namespace Solaya.Machine

variable {σ τ α β : Type*}

/-- Serve the requests of a list in order and collect the replies; `none` as
soon as one of them aborts. -/
def runReplies (step : σ → α → Option (β × σ)) : σ → List α → Option (List β × σ)
  | s, [] => some ([], s)
  | s, a :: as =>
    (step s a).bind fun r => (runReplies step r.2 as).map fun rs => (r.1 :: rs.1, rs.2)

/-- The replies and the final state of a total specification. -/
def runSpec (spec : τ → α → β × τ) : τ → List α → List β × τ
  | t, [] => ([], t)
  | t, a :: as =>
    let r := spec t a
    let rs := runSpec spec r.2 as
    (r.1 :: rs.1, rs.2)

/-- The states of a run with replies are those of `Machine.run` on the step
without them. -/
theorem run_map_snd (step : σ → α → Option (β × σ)) (s : σ) (as : List α) :
    run (fun s a => (step s a).map Prod.snd) s as = (runReplies step s as).map Prod.snd := by
  induction as generalizing s with
  | nil => rfl
  | cons a as ih =>
    rw [run_cons, runReplies]
    cases step s a with
    | none => rfl
    | some r =>
      simp only [Option.map_some, Option.bind_some, ih, Option.map_map]
      rfl

/-- The lockstep rule: when every step from a state with the invariant that
does not abort is matched by a step of `step'` from the abstraction, with the
same reply and onto the abstraction of the new state, so is every run that
does not abort. -/
theorem runReplies_simulates {step : σ → α → Option (β × σ)}
    {step' : τ → α → Option (β × τ)} (abs : σ → τ) (inv : σ → Prop)
    (hstep : ∀ s a r, inv s → step s a = some r →
      step' (abs s) a = some (r.1, abs r.2) ∧ inv r.2) :
    ∀ {s : σ} {as : List α} {rs : List β × σ}, inv s → runReplies step s as = some rs →
      runReplies step' (abs s) as = some (rs.1, abs rs.2) ∧ inv rs.2 := by
  intro s as
  induction as generalizing s with
  | nil =>
    intro rs hinv hrun
    cases hrun
    exact ⟨rfl, hinv⟩
  | cons a as ih =>
    intro rs hinv hrun
    rw [runReplies] at hrun
    cases hfirst : step s a with
    | none => simp [hfirst] at hrun
    | some r =>
      rw [hfirst, Option.bind_some] at hrun
      obtain ⟨rest, hrest, rfl⟩ := Option.map_eq_some_iff.mp hrun
      obtain ⟨hmatch, hinv₁⟩ := hstep s a r hinv hfirst
      obtain ⟨hmatchRest, hinvRest⟩ := ih hinv₁ hrest
      refine ⟨?_, hinvRest⟩
      rw [runReplies, hmatch, Option.bind_some, hmatchRest, Option.map_some]

/-- A total specification never aborts: its run with replies is `runSpec`. -/
theorem runReplies_some (spec : τ → α → β × τ) (t : τ) (as : List α) :
    runReplies (fun t a => some (spec t a)) t as = some (runSpec spec t as) := by
  induction as generalizing t with
  | nil => rfl
  | cons a as ih => simp only [runReplies, Option.bind_some, ih, Option.map_some, runSpec]

/-- The simulation rule: when every step from a state with the invariant that
does not abort matches the specification and keeps the invariant, every run
that does not abort gives the specification's replies and ends on the
abstraction of its final state. -/
theorem runReplies_refines {step : σ → α → Option (β × σ)} {spec : τ → α → β × τ}
    (abs : σ → τ) (inv : σ → Prop)
    (hstep : ∀ s a r, inv s → step s a = some r → spec (abs s) a = (r.1, abs r.2) ∧ inv r.2) :
    ∀ {s : σ} {as : List α} {rs : List β × σ}, inv s → runReplies step s as = some rs →
      runSpec spec (abs s) as = (rs.1, abs rs.2) ∧ inv rs.2 := by
  intro s as rs hinv hrun
  -- a total specification is a step that never aborts
  have hmatch : ∀ s a r, inv s → step s a = some r →
      (fun t a => some (spec t a)) (abs s) a = some (r.1, abs r.2) ∧ inv r.2 := by
    intro s a r hs hr
    obtain ⟨hspec, hinv'⟩ := hstep s a r hs hr
    exact ⟨congrArg some hspec, hinv'⟩
  obtain ⟨hrun', hinv'⟩ :=
    @runReplies_simulates _ _ _ _ step (fun t a => some (spec t a)) abs inv hmatch _ _ _ hinv hrun
  rw [runReplies_some] at hrun'
  exact ⟨Option.some.inj hrun', hinv'⟩

end Solaya.Machine
