import Toolbench.Proofs.Daemon.Turn

/-!
# The life of a daemon

A client that is told to start keeps one process of the daemon going. `LifeCycle` says what is true
of it between the turns of its callers, its timers and its processes and what each turn does to it,
and `restarts_after_crashes` that every history of turns comes to such a client. `stays_stopped`
is about histories of single actions: a stopped daemon that no timer is about to start stays
stopped until a caller starts it. The timer has to be ruled out, as `restarted_after_stop` shows.
-/

namespace Toolbench.DaemonClient

variable {client next final : DaemonClient} {turn : Turn} {turns : List Turn} {action : Action}
  {actions : List Action} {told : List Output}

/-! ## Attempts to start a process -/

/-- The attempt to start a process that a turn makes, with its result. -/
def Turn.attempt? (client : DaemonClient) : Turn → Option (Except SystemError Unit)
  | .start result => if client.status = .running then none else some result
  | .timer generation result => if client.IsDue generation then some result else none
  | _ => none

/-- A process that was started has the new generation. -/
theorem generations_attempt_ok (client : DaemonClient) :
    (client.attempt (.ok ())).generations = client.generations ++ [client.generation + 1] := by
  show (client.links ++ [Link.fresh (client.generation + 1)]).map Link.generation = _
  rw [List.map_append]
  rfl

/-- An attempt that fails adds no process. -/
theorem generations_attempt_of_ne {result : Except SystemError Unit} (h : result ≠ .ok ()) :
    (client.attempt result).generations = client.generations := by
  rcases client.attempt_cases result with ⟨hok, -, -⟩ | ⟨-, -, heq⟩ | ⟨-, -, heq⟩
  · exact absurd hok h
  · rw [heq]
    rfl
  · rw [heq]
    rfl

/-- Only attempts begin generations and start processes. -/
theorem Step.generations_eq (h : Step client action next told)
    (hstart : ∀ result, action ≠ .start result) (hrestart : ∀ result, action ≠ .restart result) :
    next.generation = client.generation ∧ next.generations = client.generations := by
  cases h with
  | startUp result | start result => exact absurd rfl (hstart result)
  | restartUp result | restart result => exact absurd rfl (hrestart result)
  | dismiss index session => exact ⟨rfl, generations_dismissLink client session.generation⟩
  | accept | link | answer | unasked => exact ⟨rfl, generations_setLink client _⟩
  | exit | crash => exact ⟨rfl, generations_dismissLink_setLink client _ _⟩
  | stopNothing | stop | stopReturns | refuse | abandon | timerDue | timerLate =>
      exact ⟨rfl, rfl⟩

/-- A turn makes the attempt that `Turn.attempt?` says, or begins no generation. -/
theorem turn?_cases (hclient : client.Coherent) (h : client.turn? turn = some (next, told)) :
    (turn.attempt? client = none ∧ next.generation = client.generation ∧
      next.generations = client.generations) ∨
    ∃ result base, turn.attempt? client = some result ∧ next = attempt base result ∧
      base.generation = client.generation ∧ base.generations = client.generations := by
  cases turn with
  | start result =>
      rw [turn?, Turn.actions, run?, Machine.run?_singleton] at h
      cases Step.of_step? h with
      | startUp _ hup =>
          exact .inl ⟨if_pos (hup.resolve_left hclient.not_starting), rfl, rfl⟩
      | start _ hdown =>
          exact .inr ⟨result, client, if_neg fun hrunning => hdown (.inr hrunning), rfl, rfl, rfl⟩
  | stop =>
      cases hsession : client.session with
      | none =>
          cases (turn?_stop_of_none hsession).symm.trans h
          exact .inl ⟨rfl, rfl, rfl⟩
      | some session =>
          cases (turn?_stop hsession).symm.trans h
          exact .inl ⟨rfl, rfl, generations_dismissLink client session.generation⟩
  | timer generation result =>
      have htimer := mem_timers_of_turn? h
      by_cases hdue : client.IsDue generation
      · cases (turn?_timer_of_isDue htimer hdue result).symm.trans h
        exact .inr ⟨result, _, if_pos hdue, rfl, rfl, rfl⟩
      · cases (turn?_timer_of_not_isDue htimer hdue result).symm.trans h
        exact .inl ⟨if_neg hdue, rfl, rfl⟩
  | stopReturns | request | abandon | link =>
      rw [turn?, Turn.actions, run?, Machine.run?_singleton] at h
      exact .inl ⟨rfl, (Step.of_step? h).generations_eq (by rintro _ ⟨⟩) (by rintro _ ⟨⟩)⟩

/-! ## A stopped daemon -/

/-- A stopped daemon that no timer is about to start. -/
structure Idle (client : DaemonClient) : Prop where
  status : client.status = .stopped
  session : client.session = none
  restarting : client.restarting = 0

/-- Only a call to start the daemon wakes it. -/
theorem Idle.step (h : client.Idle) (hstep : Step client action next told)
    (hstart : ∀ result, action ≠ .start result) :
    next.Idle ∧ next.generation = client.generation ∧ next.generations = client.generations := by
  have hrestart : ∀ result, action ≠ .restart result := by
    rintro result rfl
    cases hstep with
    | restartUp _ hdue | restart _ hdue =>
        rw [h.restarting] at hdue
        exact absurd hdue (Nat.lt_irrefl 0)
  refine ⟨?_, hstep.generations_eq hstart hrestart⟩
  cases hstep with
  | startUp result | start result => exact absurd rfl (hstart result)
  | restartUp result | restart result => exact absurd rfl (hrestart result)
  | stopNothing => exact ⟨rfl, rfl, h.restarting⟩
  | timerDue _ _ hstatus => exact nomatch h.status.symm.trans hstatus
  | stop _ hsession | accept _ _ _ _ hsession | answer _ _ _ _ _ _ _ _ _ hsession
  | unasked _ _ _ _ _ _ _ hsession | exit _ _ _ _ _ hsession | crash _ _ _ _ _ _ _ hsession =>
      exact nomatch h.session.symm.trans hsession
  | abandon =>
      refine ⟨h.status, ?_, h.restarting⟩
      show client.session.map _ = none
      rw [h.session]
      rfl
  | dismiss | stopReturns | refuse | timerLate | link =>
      exact ⟨h.status, h.session, h.restarting⟩

/-- A stopped daemon that no timer is about to start stays stopped until a caller starts it, and
no process is started. -/
theorem stays_stopped (h : client.Idle) (hrun : client.run? actions = some (final, told))
    (hstart : ∀ result, .start result ∉ actions) :
    final.Idle ∧ final.generation = client.generation ∧
      final.generations = client.generations := by
  refine Machine.run?_keeps_of_forall step?
    (P := fun state => state.Idle ∧ state.generation = client.generation ∧
      state.generations = client.generations)
    (A := fun action => ∀ result, action ≠ .start result) ?_ hrun ?_ ⟨h, rfl, rfl⟩
  · rintro state action next told haction ⟨hidle, hgeneration, hgenerations⟩ hstep
    obtain ⟨hnext, hsame, hsames⟩ := hidle.step (.of_step? hstep) haction
    exact ⟨hnext, hsame.trans hgeneration, hsames.trans hgenerations⟩
  · rintro action hmem result rfl
    exact hstart result hmem

/-- A timer that has seen the crash starts the daemon after a call has stopped it and returned. -/
theorem restarted_after_stop :
    let before : List Action :=
      [.start (.ok ()), .link 1 (.childEnds none), .link 1 .observeEnd, .link 1 .report, .timer 1]
    ∃ stopped final, (ofSettings .standard).run? (before ++ [.stop]) = some stopped ∧
      stopped.1.status = .stopped ∧ stopped.1.stops = [.returned] ∧
      stopped.1.run? [.restart (.ok ())] = some final ∧
      final.1.status = .running ∧ final.1.generations = [1, 2] :=
  ⟨_, _, rfl, rfl, rfl, rfl, rfl, rfl⟩

/-! ## Histories of turns -/

/-- What is true of a client between turns, and what each turn does to it. -/
structure LifeCycle (client : DaemonClient) : Prop where
  not_starting : client.status ≠ .starting
  running_iff : client.status = .running ↔ client.session.isSome = true
  /-- The session is that of the newest generation, and the timers are of older ones. -/
  newest : ∀ session, client.session = some session →
    session.generation = client.generation ∧ ∀ timer ∈ client.timers, timer < client.generation
  /-- A crash has one timer. -/
  crashed : client.status = .crashed → client.timers.count client.generation = 1
  /-- It can run out. -/
  due : client.status = .crashed →
    ∀ result, ∃ next told, client.turn? (.timer client.generation result) = some (next, told)
  /-- When any other timer runs out, or any timer while there is no crash, nothing happens. -/
  late : ∀ timer result, timer ∈ client.timers →
    ¬ (client.status = .crashed ∧ client.generation = timer) →
    client.turn? (.timer timer result) =
      some ({ client with timers := client.timers.erase timer }, [])
  /-- An attempt to start a process begins a generation. -/
  attempted : ∀ turn next told, client.turn? turn = some (next, told) →
    turn.attempt? client ≠ none → next.generation = client.generation + 1
  /-- Nothing else does. -/
  kept : ∀ turn next told, client.turn? turn = some (next, told) →
    turn.attempt? client = none → next.generation = client.generation
  started : ∀ turn next told, client.turn? turn = some (next, told) →
    turn.attempt? client = some (.ok ()) →
    next.status = .running ∧ next.generations = client.generations ++ [next.generation]
  not_started : ∀ turn next told, client.turn? turn = some (next, told) →
    turn.attempt? client ≠ some (.ok ()) → next.generations = client.generations
  not_installed : ∀ turn next told, client.turn? turn = some (next, told) →
    turn.attempt? client = some (.error .notFound) → next.status = .stopped
  spawn_failed : ∀ turn next told cause, client.turn? turn = some (next, told) →
    turn.attempt? client = some (.error cause) → cause ≠ .notFound → next.status = .crashed
  /-- A call to start a daemon that runs changes nothing. -/
  start_running : client.status = .running →
    ∀ result, client.turn? (.start result) = some (client, [.started (.ok ())])
  /-- A process that ends with the code zero stops the daemon; any other end is a crash. -/
  exited : ∀ session link waited, client.session = some session →
    client.link? session.generation = some link → link.watch = .ended waited →
    ∃ next told, client.turn? (.link session.generation .report) = some (next, told) ∧
      (waited = .ok (some 0) → next.status = .stopped) ∧
      (waited ≠ .ok (some 0) → next.status = .crashed)
  stop : ∃ next told, client.turn? .stop = some (next, told) ∧ next.status = .stopped
  /-- A stopped daemon is not started again until a caller does so. -/
  stopped : client.status = .stopped →
    ∀ turns final told, client.turns? turns = some (final, told) →
      (∀ result, .start result ∉ turns) →
      final.status = .stopped ∧ final.generation = client.generation ∧
        final.generations = client.generations

/-- However callers, timers and processes take their turns, a client lives as `LifeCycle` says. -/
theorem restarts_after_crashes {settings : DaemonSettings} {client : DaemonClient}
    (hrun : (ofSettings settings).turns? turns = some (client, told)) : LifeCycle client := by
  have hclient : client.Coherent := .of_run (run?_actionsOf hrun)
  have hrested : client.Rested := .of_turns hrun
  have htimer : client.status = .crashed → client.generation ∈ client.timers := by
    intro hcrashed
    rcases hclient.due hcrashed with hmem | hwaiting
    · exact hmem
    · rw [hrested.restarting] at hwaiting
      exact absurd hwaiting (Nat.lt_irrefl 0)
  constructor
  case not_starting => exact hclient.not_starting
  case running_iff => exact hclient.running_iff
  case newest =>
    intro session hsession
    exact ⟨hclient.current session hsession, fun timer hmem =>
      hclient.timers_lt (hclient.status_of_session hsession) hmem⟩
  case crashed =>
    intro hcrashed
    exact List.count_eq_one_of_mem hclient.timers_nodup (htimer hcrashed)
  case due =>
    intro hcrashed result
    exact ⟨_, _, turn?_timer_of_isDue (htimer hcrashed) ⟨hcrashed, rfl⟩ result⟩
  case late =>
    intro timer result hmem hlate
    exact turn?_timer_of_not_isDue hmem hlate result
  case attempted =>
    intro turn next told hturn hsome
    rcases turn?_cases hclient hturn with ⟨hnone, -⟩ | ⟨result, base, -, rfl, hgeneration, -⟩
    · exact absurd hnone hsome
    · rw [attempt_generation, hgeneration]
  case kept =>
    intro turn next told hturn hnone
    rcases turn?_cases hclient hturn with ⟨-, hgeneration, -⟩ | ⟨result, base, hsome, -⟩
    · exact hgeneration
    · cases hnone.symm.trans hsome
  case started =>
    intro turn next told hturn hok
    rcases turn?_cases hclient hturn with ⟨hnone, -⟩ | ⟨result, base, hsome, rfl, hbase, hbases⟩
    · cases hnone.symm.trans hok
    · cases hsome.symm.trans hok
      refine ⟨attempt_status base _, ?_⟩
      rw [generations_attempt_ok, attempt_generation, hbases]
  case not_started =>
    intro turn next told hturn hnot
    rcases turn?_cases hclient hturn with ⟨-, -, hsame⟩ | ⟨result, base, hsome, rfl, -, hbases⟩
    · exact hsame
    · have hfails : result ≠ .ok () := fun hok => hnot (hok ▸ hsome)
      rw [generations_attempt_of_ne hfails, hbases]
  case not_installed =>
    intro turn next told hturn hmissing
    rcases turn?_cases hclient hturn with ⟨hnone, -⟩ | ⟨result, base, hsome, rfl, -⟩
    · cases hnone.symm.trans hmissing
    · cases hsome.symm.trans hmissing
      exact attempt_status base _
  case spawn_failed =>
    intro turn next told cause hturn hfailed hcause
    rcases turn?_cases hclient hturn with ⟨hnone, -⟩ | ⟨result, base, hsome, rfl, -⟩
    · cases hnone.symm.trans hfailed
    · cases hsome.symm.trans hfailed
      rw [attempt_status]
      cases cause with
      | notFound => exact absurd rfl hcause
      | _ => rfl
  case start_running =>
    intro hrunning result
    rw [turn?, Turn.actions, run?, Machine.run?_singleton]
    simp only [step?, start_of_isUp (.inr hrunning)]
  case exited =>
    intro session link waited hsession hlink hwatch
    have hreport := turn?_report hlink hwatch
    have hkept : (client.setLink { link with watch := .reported }).session = some session :=
      hsession
    by_cases hclean : waited = .ok (some 0)
    · subst hclean
      exact ⟨_, _, hreport.trans (congrArg some (onExit_clean hkept)), fun _ => rfl,
        fun hother => absurd rfl hother⟩
    · exact ⟨_, _, hreport.trans (congrArg some (onExit_crash hkept hclean)),
        fun hzero => absurd hzero hclean, fun _ => rfl⟩
  case stop =>
    cases hsession : client.session with
    | none => exact ⟨_, _, turn?_stop_of_none hsession, rfl⟩
    | some session => exact ⟨_, _, turn?_stop hsession, rfl⟩
  case stopped =>
    intro hstatus turns final told hturns hstart
    have hsession : client.session = none := by
      refine hclient.session_of_not_isUp fun hup => ?_
      rcases hup with hup | hup <;> cases hstatus.symm.trans hup
    obtain ⟨hidle, hkept⟩ := stays_stopped ⟨hstatus, hsession, hrested.restarting⟩
      (run?_actionsOf hturns) (start_not_mem_actionsOf client hstart)
    exact ⟨hidle.status, hkept⟩

/-- A process crashes, the next one cannot be started, and there is one timer for that. -/
theorem restarts_after_crashes_twice :
    let turns : List Turn :=
      [.start (.ok ()), .link 1 (.childEnds (some 3)), .link 1 .observeEnd, .link 1 .report,
        .timer 1 (.error .permissionDenied)]
    ∃ client told, (ofSettings .standard).turns? turns = some (client, told) ∧
      client.status = .crashed ∧ client.generation = 2 ∧ client.timers = [2] ∧
      client.generations = [1] ∧ LifeCycle client := by
  intro turns
  have hlife := restarts_after_crashes
    (rfl : (ofSettings .standard).turns? turns = some (_, _))
  exact ⟨_, _, rfl, rfl, rfl, rfl, rfl, hlife⟩

end Toolbench.DaemonClient
