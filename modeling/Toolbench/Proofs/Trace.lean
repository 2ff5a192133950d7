import Toolbench.Machine

/-!
# Histories as lists of events

A history of a machine is its list of events: for each action, the state that it met, the state
that it left and what others were told of it. Statements about the order of things in a run are
statements about this list. Read `run?_trace_invariant` first: a relation between the events so
far and the state holds after every history when each step keeps it.
-/

namespace Toolbench.Machine

/-- One action of a history, with the states around it and what others were told. -/
structure Event (σ α β : Type) where
  before : σ
  action : α
  after : σ
  told : List β

variable {σ α β : Type}

/-- The events of a history, up to the first action that is not possible. -/
def trace (step? : σ → α → Option (σ × List β)) : σ → List α → List (Event σ α β)
  | _, [] => []
  | state, action :: actions =>
      match step? state action with
      | none => []
      | some (next, told) => ⟨state, action, next, told⟩ :: trace step? next actions

variable (step? : σ → α → Option (σ × List β))

/-- The events of a history that begins with a possible action. -/
theorem trace_cons {state next : σ} {action : α} {actions : List α} {told : List β}
    (h : step? state action = some (next, told)) :
    trace step? state (action :: actions)
      = ⟨state, action, next, told⟩ :: trace step? next actions := by
  simp only [trace, h]

/-- The events after one of a history are those of a history from the state that it left. -/
theorem exists_trace_of_append {state : σ} {actions : List α} {past later : List (Event σ α β)}
    {event : Event σ α β} (h : trace step? state actions = past ++ event :: later) :
    ∃ rest, later = trace step? event.after rest := by
  induction actions generalizing state past with
  | nil => exact absurd h.symm (by simp [trace])
  | cons action actions ih =>
      cases hfirst : step? state action with
      | none => exact absurd h.symm (by simp [trace, hfirst])
      | some reply =>
          rw [trace_cons step? hfirst] at h
          cases past with
          | nil =>
              obtain ⟨rfl, rfl⟩ := List.cons.inj h
              exact ⟨actions, rfl⟩
          | cons first past => exact ih (List.cons.inj h).2

/-- The events of two histories one after the other. -/
theorem trace_append {state next : σ} {actions : List α} {told : List β}
    (h : run? step? state actions = some (next, told)) (more : List α) :
    trace step? state (actions ++ more) = trace step? state actions ++ trace step? next more := by
  induction actions generalizing state told with
  | nil =>
      cases h
      rfl
  | cons action actions ih =>
      obtain ⟨middle, first, later, hfirst, hlater, -⟩ := (run?_cons_eq_some step?).1 h
      rw [List.cons_append, trace_cons step? hfirst, trace_cons step? hfirst, ih hlater]
      rfl

/-- A history goes on where another one ended. -/
theorem run?_append {state next final : σ} {actions more : List α} {told later : List β}
    (h : run? step? state actions = some (next, told))
    (hmore : run? step? next more = some (final, later)) :
    run? step? state (actions ++ more) = some (final, told ++ later) := by
  induction actions generalizing state told with
  | nil =>
      cases h
      exact hmore
  | cons action actions ih =>
      obtain ⟨middle, first, rest, hfirst, hrest, rfl⟩ := (run?_cons_eq_some step?).1 h
      rw [List.cons_append, run?_cons_eq_some]
      exact ⟨middle, first, rest ++ later, hfirst, ih hrest, List.append_assoc first rest later⟩

/-- What comes after a history begins where the history ended. -/
theorem run?_append_eq {state next : σ} {actions : List α} {told : List β}
    (h : run? step? state actions = some (next, told)) (more : List α) :
    run? step? state (actions ++ more)
      = (run? step? next more).map fun reply => (reply.1, told ++ reply.2) := by
  induction actions generalizing state told with
  | nil =>
      cases h
      show run? step? next more = (run? step? next more).map _
      cases run? step? next more <;> rfl
  | cons action actions ih =>
      obtain ⟨middle, first, rest, hfirst, hrest, rfl⟩ := (run?_cons_eq_some step?).1 h
      simp only [List.cons_append, run?, hfirst, Option.bind_eq_bind, Option.bind_some, ih hrest,
        List.append_assoc]
      cases run? step? next more <;> rfl

/-- A history of one action is that action. -/
theorem run?_singleton (state : σ) (action : α) :
    run? step? state [action] = step? state action := by
  cases hstep : step? state action with
  | none => simp [run?, hstep]
  | some reply => simp [run?, hstep]

/-- The past of an event is a history of its own, which ends where the event begins. -/
theorem exists_run_of_append {state : σ} {actions : List α} {past later : List (Event σ α β)}
    {event : Event σ α β} (h : trace step? state actions = past ++ event :: later) :
    ∃ earlier told, run? step? state earlier = some (event.before, told) ∧
      trace step? state earlier = past ∧
      step? event.before event.action = some (event.after, event.told) := by
  induction actions generalizing state past with
  | nil => exact absurd h.symm (by simp [trace])
  | cons action actions ih =>
      cases hfirst : step? state action with
      | none => exact absurd h.symm (by simp [trace, hfirst])
      | some reply =>
          rw [trace_cons step? hfirst] at h
          cases past with
          | nil =>
              obtain ⟨rfl, -⟩ := List.cons.inj h
              exact ⟨[], [], rfl, rfl, hfirst⟩
          | cons first past =>
              obtain ⟨rfl, hrest⟩ := List.cons.inj h
              obtain ⟨earlier, told, hrun, htrace, hevent⟩ := ih hrest
              refine ⟨action :: earlier, reply.2 ++ told, ?_, ?_, hevent⟩
              · rw [run?_cons_eq_some]
                exact ⟨_, _, _, hfirst, hrun, rfl⟩
              · rw [trace_cons step? hfirst, htrace]

/-- What every step keeps whose action is allowed, every history of such actions keeps. -/
theorem run?_keeps_of_forall {P : σ → Prop} {A : α → Prop}
    (hstep : ∀ state action next told, A action → P state →
      step? state action = some (next, told) → P next)
    {state final : σ} {actions : List α} {told : List β}
    (hrun : run? step? state actions = some (final, told))
    (hactions : ∀ action ∈ actions, A action) (hstate : P state) : P final := by
  induction actions generalizing state told with
  | nil =>
      cases hrun
      exact hstate
  | cons action actions ih =>
      obtain ⟨next, first, later, hfirst, hlater, -⟩ := (run?_cons_eq_some step?).1 hrun
      obtain ⟨hallowed, hrest⟩ := List.forall_mem_cons.1 hactions
      exact ih hlater hrest (hstep _ _ _ _ hallowed hstate hfirst)

/-- A relation between the past and the present that every step keeps holds after every
history. -/
theorem run?_trace_keeps {P : List (Event σ α β) → σ → Prop}
    (hstep : ∀ past state action next told, P past state →
      step? state action = some (next, told) → P (past ++ [⟨state, action, next, told⟩]) next)
    {state final : σ} {actions : List α} {told : List β} {past : List (Event σ α β)}
    (hrun : run? step? state actions = some (final, told)) (hstate : P past state) :
    P (past ++ trace step? state actions) final := by
  -- The past grows with every action, so the induction is for any past.
  induction actions generalizing state told past with
  | nil =>
      cases hrun
      simpa only [trace, List.append_nil] using hstate
  | cons action actions ih =>
      obtain ⟨next, first, later, hfirst, hlater, -⟩ := (run?_cons_eq_some step?).1 hrun
      rw [trace_cons step? hfirst, List.append_cons]
      exact ih hlater (hstep _ _ _ _ _ hstate hfirst)

/-- A relation that holds before any event holds after every history, when each step keeps it. -/
theorem run?_trace_invariant {P : List (Event σ α β) → σ → Prop}
    (hstep : ∀ past state action next told, P past state →
      step? state action = some (next, told) → P (past ++ [⟨state, action, next, told⟩]) next)
    {state final : σ} {actions : List α} {told : List β}
    (hrun : run? step? state actions = some (final, told)) (hstate : P [] state) :
    P (trace step? state actions) final :=
  run?_trace_keeps step? hstep hrun hstate

/-- A relation between the actions so far, what they told and the state holds after every history,
when it holds before the first action and each step keeps it. -/
theorem run?_history_invariant {P : List α → List β → σ → Prop}
    (hstep : ∀ past said state action next told, P past said state →
      step? state action = some (next, told) → P (past ++ [action]) (said ++ told) next)
    {state final : σ} {actions : List α} {told : List β}
    (hrun : run? step? state actions = some (final, told)) (hstate : P [] [] state) :
    P actions told final := by
  suffices hkeeps : ∀ past said, P past said state → P (past ++ actions) (said ++ told) final from
    hkeeps [] [] hstate
  intro past said hpast
  clear hstate
  induction actions generalizing state told past said with
  | nil =>
      cases hrun
      simpa only [List.append_nil] using hpast
  | cons action actions ih =>
      obtain ⟨next, first, later, hfirst, hlater, rfl⟩ := (run?_cons_eq_some step?).1 hrun
      rw [List.append_cons, ← List.append_assoc]
      exact ih hlater _ _ (hstep _ _ _ _ _ _ hpast hfirst)

/-- Every event of a history is a step from a state in which what every step keeps still holds. -/
theorem of_mem_trace {P : σ → Prop}
    (hkeep : ∀ state action next told, P state → step? state action = some (next, told) → P next)
    {state : σ} {actions : List α} {event : Event σ α β} (hstate : P state)
    (h : event ∈ trace step? state actions) :
    P event.before ∧ step? event.before event.action = some (event.after, event.told) := by
  induction actions generalizing state with
  | nil => exact absurd h List.not_mem_nil
  | cons action actions ih =>
      cases hfirst : step? state action with
      | none => simp [trace, hfirst] at h
      | some reply =>
          rw [trace_cons step? hfirst] at h
          rcases List.mem_cons.1 h with rfl | hlater
          · exact ⟨hstate, hfirst⟩
          · exact ih (hkeep _ _ _ _ hstate hfirst) hlater

/-- What a history told is what its events told, in order. -/
theorem told_eq_flatMap_trace {state final : σ} {actions : List α} {told : List β}
    (hrun : run? step? state actions = some (final, told)) :
    told = (trace step? state actions).flatMap Event.told := by
  induction actions generalizing state told with
  | nil =>
      cases hrun
      rfl
  | cons action actions ih =>
      obtain ⟨next, first, later, hfirst, hlater, rfl⟩ := (run?_cons_eq_some step?).1 hrun
      rw [trace_cons step? hfirst, List.flatMap_cons, ← ih hlater]

/-- The actions of a history are those of its events. -/
theorem map_action_trace {state final : σ} {actions : List α} {told : List β}
    (hrun : run? step? state actions = some (final, told)) :
    (trace step? state actions).map Event.action = actions := by
  induction actions generalizing state told with
  | nil => rfl
  | cons action actions ih =>
      obtain ⟨next, first, later, hfirst, hlater, -⟩ := (run?_cons_eq_some step?).1 hrun
      rw [trace_cons step? hfirst, List.map_cons, ih hlater]

/-! ## What actions leave behind

A property of the state may be the mark of some actions: `run?_mark` says that it is there when one
of them was done, `run?_mark_iff` that it is there only then, and `run?_event_mark` that it may as
well depend on the states around the action. They may use what every step keeps. -/

section Marks

variable {P Q : σ → Prop} {M : α → Prop}
  (hkeep : ∀ state action next told, P state → step? state action = some (next, told) → P next)
include hkeep

/-- The mark is there after every history with such an action, when no step takes it away. -/
theorem run?_mark
    (hmark : ∀ state action next told, P state → step? state action = some (next, told) →
      Q state ∨ M action → Q next)
    {state final : σ} {actions : List α} {told : List β}
    (hrun : run? step? state actions = some (final, told)) (hstate : P state)
    (h : Q state ∨ ∃ action ∈ actions, M action) : Q final := by
  induction actions generalizing state told with
  | nil =>
      cases hrun
      exact h.resolve_right (by simp)
  | cons action actions ih =>
      obtain ⟨next, first, later, hfirst, hlater, -⟩ := (run?_cons_eq_some step?).1 hrun
      refine ih hlater (hkeep _ _ _ _ hstate hfirst) ?_
      simp only [List.mem_cons, exists_eq_or_imp] at h
      rcases h with hold | hnow | hthen
      · exact .inl (hmark _ _ _ _ hstate hfirst (.inl hold))
      · exact .inl (hmark _ _ _ _ hstate hfirst (.inr hnow))
      · exact .inr hthen

/-- The mark is there exactly after the histories with such an action, when no other step leaves
it or takes it away. -/
theorem run?_mark_iff
    (hmark : ∀ state action next told, P state → step? state action = some (next, told) →
      (Q next ↔ Q state ∨ M action))
    {state final : σ} {actions : List α} {told : List β}
    (hrun : run? step? state actions = some (final, told)) (hstate : P state) :
    Q final ↔ Q state ∨ ∃ action ∈ actions, M action := by
  induction actions generalizing state told with
  | nil =>
      cases hrun
      simp
  | cons action actions ih =>
      obtain ⟨next, first, later, hfirst, hlater, -⟩ := (run?_cons_eq_some step?).1 hrun
      rw [ih hlater (hkeep _ _ _ _ hstate hfirst), hmark _ _ _ _ hstate hfirst, or_assoc]
      simp only [List.mem_cons, exists_eq_or_imp]

/-- The mark is there after every history with such an event, when no step takes it away. -/
theorem run?_event_mark {E : Event σ α β → Prop}
    (hmark : ∀ state action next told, P state → step? state action = some (next, told) →
      Q state ∨ E ⟨state, action, next, told⟩ → Q next)
    {state final : σ} {actions : List α} {told : List β}
    (hrun : run? step? state actions = some (final, told)) (hstate : P state)
    (h : Q state ∨ ∃ event ∈ trace step? state actions, E event) : Q final := by
  induction actions generalizing state told with
  | nil =>
      cases hrun
      exact h.resolve_right (by simp [trace])
  | cons action actions ih =>
      obtain ⟨next, first, later, hfirst, hlater, -⟩ := (run?_cons_eq_some step?).1 hrun
      refine ih hlater (hkeep _ _ _ _ hstate hfirst) ?_
      simp only [trace_cons step? hfirst, List.mem_cons, exists_eq_or_imp] at h
      rcases h with hold | hnow | hthen
      · exact .inl (hmark _ _ _ _ hstate hfirst (.inl hold))
      · exact .inl (hmark _ _ _ _ hstate hfirst (.inr hnow))
      · exact .inr hthen

end Marks

end Toolbench.Machine
