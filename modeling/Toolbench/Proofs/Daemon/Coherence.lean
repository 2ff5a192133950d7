import Mathlib.Data.List.Nodup
import Toolbench.Proofs.Daemon.Step

/-!
# How status, session, generation and timers of a client fit together

`Coherent` is what holds of a client whenever nobody holds its lock: it runs exactly when it has a
session, the session is that of the newest process, and a crash of the newest process has either
its timer or a call on its way that the timer has begun. `Coherent.step` says that every step keeps
this.
-/

namespace Toolbench.DaemonClient

variable {client next : DaemonClient} {action : Action} {told : List Output}

/-- The generations of the processes that were started, in order. -/
def generations (client : DaemonClient) : List Nat :=
  client.links.map (·.generation)

@[simp] theorem generations_setLink (client : DaemonClient) (link : Link) :
    (client.setLink link).generations = client.generations := by
  show (client.links.map _).map _ = client.links.map _
  rw [List.map_map]
  refine List.map_congr_left fun other _ => ?_
  by_cases hsame : other.generation = link.generation <;> simp [hsame]

@[simp] theorem generations_dismissLink (client : DaemonClient) (generation : Nat) :
    (client.dismissLink generation).generations = client.generations := by
  show (client.links.map _).map _ = client.links.map _
  rw [List.map_map]
  refine List.map_congr_left fun other _ => ?_
  by_cases hsame : other.generation = generation <;> simp [hsame]

theorem generations_dismissLink_setLink (client : DaemonClient) (link : Link) (generation : Nat) :
    ((client.setLink link).dismissLink generation).generations = client.generations := by
  rw [generations_dismissLink, generations_setLink]

/-- What holds of a client whenever nobody holds its lock. -/
structure Coherent (client : DaemonClient) : Prop where
  not_starting : client.status ≠ .starting
  running_iff : client.status = .running ↔ client.session.isSome = true
  current : ∀ session, client.session = some session → session.generation = client.generation
  generations_le : ∀ generation ∈ client.generations, generation ≤ client.generation
  timers_le : ∀ timer ∈ client.timers, timer ≤ client.generation
  timers_old : client.status = .running → client.generation ∉ client.timers
  timers_nodup : client.timers.Nodup
  /-- A crash has its timer, or a timer has begun to start the daemon again. -/
  due : client.status = .crashed → client.generation ∈ client.timers ∨ 0 < client.restarting

namespace Coherent

/-- Before the first call nothing was started. -/
theorem initial (settings : DaemonSettings) : Coherent (ofSettings settings) where
  not_starting := nofun
  running_iff := by simp [ofSettings]
  current := nofun
  generations_le _ h := absurd h List.not_mem_nil
  timers_le _ h := absurd h List.not_mem_nil
  timers_old := nofun
  timers_nodup := List.nodup_nil
  due := nofun

/-- A client that is not up has no session. -/
theorem session_of_not_isUp (h : client.Coherent) (hdown : ¬ client.IsUp) :
    client.session = none := by
  by_contra hsome
  have hrunning := h.running_iff.2 (Option.isSome_iff_ne_none.2 hsome)
  exact hdown (.inr hrunning)

/-- A client with a session runs. -/
theorem status_of_session (h : client.Coherent) {session : Session}
    (hsession : client.session = some session) : client.status = .running :=
  h.running_iff.2 (by rw [hsession]; rfl)

/-- While the client runs, every timer is of an older generation. -/
theorem timers_lt (h : client.Coherent) (hrunning : client.status = .running) {timer : Nat}
    (htimer : timer ∈ client.timers) : timer < client.generation := by
  have hle := h.timers_le timer htimer
  have hne : timer ≠ client.generation := fun heq => h.timers_old hrunning (heq ▸ htimer)
  omega

/-- A step that touches at most the requests of the session and the insides of links. -/
theorem congr (h : client.Coherent) (hstatus : next.status = client.status)
    (hgeneration : next.generation = client.generation)
    (hsession : next.session.map (·.generation) = client.session.map (·.generation))
    (hgenerations : next.generations = client.generations) (htimers : next.timers = client.timers)
    (hrestarting : next.restarting = client.restarting) : next.Coherent where
  not_starting := hstatus ▸ h.not_starting
  running_iff := by
    rw [hstatus, h.running_iff, ← Option.isSome_map (f := fun s : Session => s.generation), ← hsession,
      Option.isSome_map]
  current session hs := by
    rw [hs, Option.map_some] at hsession
    obtain ⟨old, hold, heq⟩ := Option.map_eq_some_iff.1 hsession.symm
    rw [hgeneration, ← h.current old hold, heq]
  generations_le := by
    rw [hgenerations, hgeneration]
    exact h.generations_le
  timers_le := by
    rw [htimers, hgeneration]
    exact h.timers_le
  timers_old := by
    rw [hstatus, htimers, hgeneration]
    exact h.timers_old
  timers_nodup := htimers ▸ h.timers_nodup
  due := by
    rw [hstatus, htimers, hgeneration, hrestarting]
    exact h.due

/-- The session is over, and the daemon is not going to be started again. -/
theorem stopped (h : client.Coherent) (hstatus : next.status = .stopped)
    (hsession : next.session = none) (hgeneration : next.generation = client.generation)
    (hgenerations : next.generations = client.generations)
    (htimers : next.timers = client.timers) : next.Coherent where
  not_starting := by simp [hstatus]
  running_iff := by simp [hstatus, hsession]
  current session hs := nomatch hsession.symm.trans hs
  generations_le := by
    rw [hgenerations, hgeneration]
    exact h.generations_le
  timers_le := by
    rw [htimers, hgeneration]
    exact h.timers_le
  timers_old hrunning := nomatch hstatus.symm.trans hrunning
  timers_nodup := htimers ▸ h.timers_nodup
  due hcrashed := nomatch hstatus.symm.trans hcrashed

/-- The session is over by a crash, and the newest generation gets its first timer. -/
theorem crashed (h : client.Coherent) (hnew : client.generation ∉ client.timers)
    (hstatus : next.status = .crashed) (hsession : next.session = none)
    (hgeneration : next.generation = client.generation)
    (hgenerations : next.generations = client.generations)
    (htimers : next.timers = client.timers ++ [client.generation]) : next.Coherent where
  not_starting := by simp [hstatus]
  running_iff := by simp [hstatus, hsession]
  current session hs := nomatch hsession.symm.trans hs
  generations_le := by
    rw [hgenerations, hgeneration]
    exact h.generations_le
  timers_le := by
    rw [htimers, hgeneration]
    intro timer htimer
    rcases List.mem_append.1 htimer with hold | hmem
    · exact h.timers_le timer hold
    · exact Nat.le_of_eq (List.mem_singleton.1 hmem)
  timers_old hrunning := nomatch hstatus.symm.trans hrunning
  timers_nodup := by
    rw [htimers, List.nodup_append]
    refine ⟨h.timers_nodup, List.nodup_singleton _, ?_⟩
    intro timer htimer new hmem heq
    rw [heq, List.mem_singleton.1 hmem] at htimer
    exact hnew htimer
  due _ := by
    rw [htimers, hgeneration]
    exact .inl (List.mem_append_right _ (List.mem_singleton_self _))

/-- A new generation has begun, and nothing has come of it yet. -/
theorem begun (h : client.Coherent) (hsession : client.session = none) (restarting : Nat) :
    Coherent
      { client with status := .stopped, generation := client.generation + 1, restarting } where
  not_starting := nofun
  running_iff := by simp [hsession]
  current session hs := nomatch hsession.symm.trans hs
  generations_le generation hmem := Nat.le_succ_of_le (h.generations_le generation hmem)
  timers_le timer htimer := Nat.le_succ_of_le (h.timers_le timer htimer)
  timers_old := nofun
  timers_nodup := h.timers_nodup
  due := nofun

/-- A generation that has not begun has no timer. -/
theorem succ_not_mem_timers (h : client.Coherent) : client.generation + 1 ∉ client.timers := by
  intro htimer
  have hle := h.timers_le _ htimer
  omega

/-- An attempt to start a process while none is running, of a caller or of a timer. -/
theorem attempt (h : client.Coherent) (hdown : ¬ client.IsUp) (restarting : Nat)
    (result : Except SystemError Unit) :
    ({ client with restarting }.attempt result).Coherent := by
  have hbegun := h.begun (h.session_of_not_isUp hdown) restarting
  rcases { client with restarting }.attempt_cases result with ⟨-, -, heq⟩ | ⟨-, -, heq⟩ | ⟨-, -, heq⟩
  · rw [heq]
    exact {
      not_starting := nofun
      running_iff := by simp
      current := by
        intro session hs
        cases hs
        rfl
      generations_le := by
        show ∀ generation ∈ (client.links ++ [Link.fresh (client.generation + 1)]).map Link.generation,
          generation ≤ client.generation + 1
        intro generation hmem
        rw [List.map_append] at hmem
        rcases List.mem_append.1 hmem with hold | hnew
        · exact hbegun.generations_le generation hold
        · exact Nat.le_of_eq (List.mem_singleton.1 hnew)
      timers_le := hbegun.timers_le
      timers_old := fun _ => h.succ_not_mem_timers
      timers_nodup := h.timers_nodup
      due := nofun }
  · rw [heq]
    exact hbegun
  · rw [heq]
    exact hbegun.crashed h.succ_not_mem_timers rfl (h.session_of_not_isUp hdown) rfl rfl rfl

/-- A timer that is gone was not needed, or has begun to start the daemon. -/
theorem erase (h : client.Coherent) (timer restarting : Nat) (hmore : client.restarting ≤ restarting)
    (hdue : client.status = .crashed → client.generation = timer → 0 < restarting) :
    Coherent { client with timers := client.timers.erase timer, restarting } where
  not_starting := h.not_starting
  running_iff := h.running_iff
  current := h.current
  generations_le := h.generations_le
  timers_le other hmem := h.timers_le other (List.mem_of_mem_erase hmem)
  timers_old hrunning hmem := h.timers_old hrunning (List.mem_of_mem_erase hmem)
  timers_nodup := h.timers_nodup.erase timer
  due hcrashed := by
    by_cases hsame : client.generation = timer
    · exact .inr (hdue hcrashed hsame)
    · rcases h.due hcrashed with hmem | hwaiting
      · exact .inl ((List.mem_erase_of_ne hsame).2 hmem)
      · exact .inr (Nat.lt_of_lt_of_le hwaiting hmore)

/-- A timer that has begun to start the daemon is done with it, and the daemon is not crashed. -/
theorem restarted (h : client.Coherent) (restarting : Nat) (hstatus : client.status ≠ .crashed) :
    Coherent { client with restarting } where
  not_starting := h.not_starting
  running_iff := h.running_iff
  current := h.current
  generations_le := h.generations_le
  timers_le := h.timers_le
  timers_old := h.timers_old
  timers_nodup := h.timers_nodup
  due hcrashed := absurd hcrashed hstatus

/-- Every step keeps status, session, generation and timers in agreement. -/
theorem step (h : client.Coherent) (hstep : Step client action next told) : next.Coherent := by
  cases hstep with
  | startUp => exact h
  | start result hdown => exact h.attempt hdown client.restarting result
  | stopNothing | stop => exact h.stopped rfl rfl rfl rfl rfl
  | dismiss index session =>
      exact h.congr rfl rfl rfl (generations_dismissLink client session.generation) rfl rfl
  | stopReturns | refuse => exact h.congr rfl rfl rfl rfl rfl rfl
  | accept fields session link hstatus hsession =>
      exact h.congr rfl rfl (by simp [hsession]) (generations_setLink client _) rfl rfl
  | abandon request =>
      refine h.congr rfl rfl ?_ rfl rfl rfl
      show (client.session.map _).map _ = _
      rw [Option.map_map]
      rfl
  | timerDue timer => exact h.erase timer _ (Nat.le_succ _) fun _ _ => Nat.succ_pos _
  | timerLate timer _ hlate =>
      exact h.erase timer _ (Nat.le_refl _) fun hcrashed hsame => absurd ⟨hcrashed, hsame⟩ hlate
  | restartUp result _ hup =>
      refine h.restarted _ ?_
      rcases hup with hstarting | hrunning
      · exact absurd hstarting h.not_starting
      · simp [hrunning]
  | restart result _ hdown => exact h.attempt hdown _ result
  | link | unasked => exact h.congr rfl rfl rfl (generations_setLink client _) rfl rfl
  | answer generation link changed batch session _ _ _ _ hsession =>
      exact h.congr rfl rfl (by simp [hsession]) (generations_setLink client changed) rfl rfl
  | exit => exact h.stopped rfl rfl rfl (generations_dismissLink_setLink client _ _) rfl
  | crash generation link waited session _ _ _ hsession hsame =>
      have hcurrent : generation = client.generation := hsame ▸ h.current session hsession
      refine h.crashed (h.timers_old (h.status_of_session hsession)) rfl rfl rfl
        (generations_dismissLink_setLink client _ _) ?_
      show client.timers ++ [generation] = client.timers ++ [client.generation]
      rw [hcurrent]

/-- Every state that a client comes to is coherent. -/
theorem of_run {settings : DaemonSettings} {actions : List Action}
    (hrun : (ofSettings settings).run? actions = some (client, told)) : client.Coherent :=
  Machine.run?_keeps step? (fun _ _ _ _ h hstep => h.step (.of_step? hstep)) hrun
    (initial settings)

end Coherent

end Toolbench.DaemonClient
