/-!
# Machines

A machine is given by a function that says what an action does to a state and what others are told
of it, or `none` where the action is not possible. `Machine.run?` follows a history of actions and
asks that each is possible in its turn; `run?_keeps` says that what every step keeps, every history
keeps. `Machine.advance` leaves out the actions that are not possible.
-/

namespace Toolbench.Machine

variable {σ α β : Type}

/-- Do actions one after the other, if each is possible in its turn. -/
def run? (step? : σ → α → Option (σ × List β)) : σ → List α → Option (σ × List β)
  | state, [] => some (state, [])
  | state, action :: actions => do
      let (state, told) ← step? state action
      let (state, later) ← run? step? state actions
      pure (state, told ++ later)

/-- Do those actions that are possible in their turn, and leave out the others. -/
def advance (step? : σ → α → Option (σ × List β)) : σ → List α → σ × List β
  | state, [] => (state, [])
  | state, action :: actions =>
      match step? state action with
      | none => advance step? state actions
      | some (state, told) =>
          let (state, later) := advance step? state actions
          (state, told ++ later)

variable (step? : σ → α → Option (σ × List β))

/-- A history of one action more begins with that action. -/
theorem run?_cons_eq_some {state final : σ} {action : α} {actions : List α} {told : List β} :
    run? step? state (action :: actions) = some (final, told) ↔
      ∃ next first later, step? state action = some (next, first) ∧
        run? step? next actions = some (final, later) ∧ told = first ++ later := by
  simp only [run?, Option.bind_eq_bind, Option.bind_eq_some_iff, Prod.exists, Option.pure_def,
    Option.some.injEq, Prod.mk.injEq]
  constructor
  · rintro ⟨next, first, hstep, _, later, hrun, rfl, rfl⟩
    exact ⟨next, first, later, hstep, hrun, rfl⟩
  · rintro ⟨next, first, later, hstep, hrun, rfl⟩
    exact ⟨next, first, hstep, final, later, hrun, rfl, rfl⟩

/-- What every step keeps, every history keeps. -/
theorem run?_keeps {P : σ → Prop}
    (hstep : ∀ state action next told, P state → step? state action = some (next, told) → P next)
    {state final : σ} {actions : List α} {told : List β}
    (hrun : run? step? state actions = some (final, told)) (hstate : P state) : P final := by
  induction actions generalizing state told with
  | nil =>
      cases hrun
      exact hstate
  | cons action actions ih =>
      obtain ⟨next, first, later, hfirst, hlater, -⟩ := (run?_cons_eq_some step?).1 hrun
      exact ih hlater (hstep _ _ _ _ hstate hfirst)

end Toolbench.Machine
