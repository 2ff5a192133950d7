import Toolbench.Proofs.Daemon.Coherence
import Toolbench.Proofs.Trace

/-!
# Whole calls

A call to stop the daemon and a timer that starts it again lock the client twice, and others may
act in between. A `Turn` is what a caller, a timer or a party of a link does as a whole, and
`turns?` follows histories in which nothing comes between the parts of one. They are histories of
actions (`run?_actionsOf`) in which no call is halfway when a turn ends (`Rested.of_turns`).
-/

namespace Toolbench.DaemonClient

/-- What a caller, a timer or a party of a link does as a whole. -/
inductive Turn where
  | start (result : Except SystemError Unit)
  /-- A call to stop the daemon, up to where it waits for the end of the process. -/
  | stop
  | stopReturns (index : Nat)
  | request (fields : List String)
  | abandon (request : Nat)
  /-- A timer runs out; `result` says whether a process can be started then. -/
  | timer (generation : Nat) (result : Except SystemError Unit)
  | link (generation : Nat) (action : Link.Action)

variable {client next final : DaemonClient} {turn : Turn} {turns : List Turn}
  {action : Action} {told later : List Output}

/-- A timer of this generation starts the daemon again when it runs out. -/
def IsDue (client : DaemonClient) (generation : Nat) : Prop :=
  client.status = .crashed ∧ client.generation = generation

instance (client : DaemonClient) (generation : Nat) : Decidable (client.IsDue generation) :=
  inferInstanceAs (Decidable (_ ∧ _))

/-- The actions of a turn. -/
def Turn.actions (client : DaemonClient) : Turn → List Action
  | .start result => [.start result]
  | .stop => .stop :: if client.session.isSome then [.dismiss client.stops.length] else []
  | .stopReturns index => [.stopReturns index]
  | .request fields => [.request fields]
  | .abandon id => [.abandon id]
  | .timer generation result =>
      .timer generation :: if client.IsDue generation then [.restart result] else []
  | .link generation action => [.link generation action]

/-- What a turn does to a client and what others see of it, if the turn is possible. -/
def turn? (client : DaemonClient) (turn : Turn) : Option (DaemonClient × List Output) :=
  client.run? (turn.actions client)

/-- Do turns one after the other, if each is possible. -/
def turns? (client : DaemonClient) (turns : List Turn) : Option (DaemonClient × List Output) :=
  Machine.run? turn? client turns

/-- The actions of turns that are done one after the other. -/
def actionsOf (client : DaemonClient) : List Turn → List Action
  | [] => []
  | turn :: turns =>
      turn.actions client ++
        match client.turn? turn with
        | some (next, _) => actionsOf next turns
        | none => []

/-- A history of turns is a history of their actions. -/
theorem run?_actionsOf (h : client.turns? turns = some (final, told)) :
    client.run? (actionsOf client turns) = some (final, told) := by
  induction turns generalizing client told with
  | nil => exact h
  | cons turn turns ih =>
      obtain ⟨next, first, later, hfirst, hlater, rfl⟩ := (Machine.run?_cons_eq_some turn?).1 h
      rw [actionsOf, hfirst]
      exact Machine.run?_append step? hfirst (ih hlater)

/-- No call to start the daemon is among the actions when none is among the turns. -/
theorem start_not_mem_actionsOf (client : DaemonClient)
    (h : ∀ result, .start result ∉ turns) (result : Except SystemError Unit) :
    Action.start result ∉ actionsOf client turns := by
  induction turns generalizing client with
  | nil => exact List.not_mem_nil
  | cons turn turns ih =>
      have hrest : ∀ result, .start result ∉ turns := fun result hmem =>
        h result (List.mem_cons_of_mem turn hmem)
      have hturn : Action.start result ∉ turn.actions client := by
        cases turn with
        | start other => exact absurd List.mem_cons_self (h other)
        | stop | timer =>
            simp only [Turn.actions]
            split <;> simp
        | _ => simp [Turn.actions]
      rw [actionsOf, List.mem_append, not_or]
      refine ⟨hturn, ?_⟩
      split
      · exact ih _ hrest
      · exact List.not_mem_nil

/-! ## The turns of several actions -/

/-- A call to stop the daemon ends the session and answers its requests. -/
theorem turn?_stop {session : Session} (hsession : client.session = some session) :
    client.turn? .stop =
      some ({ client.dismissLink session.generation with
          status := .stopped
          session := none
          stops := client.stops ++ [.awaiting session.generation] }, session.drained) := by
  simp [turn?, Turn.actions, run?, Machine.run?, step?, DaemonClient.stop, stopStep?, hsession,
    dismissLink, setStop]

/-- A call to stop a daemon without a session returns at once. -/
theorem turn?_stop_of_none (hsession : client.session = none) :
    client.turn? .stop =
      some ({ client with
          status := .stopped
          session := none
          stops := client.stops ++ [.returned] }, []) := by
  simp [turn?, Turn.actions, run?, Machine.run?, step?, DaemonClient.stop, hsession]

/-- The timer of a crash starts the daemon again. -/
theorem turn?_timer_of_isDue {generation : Nat} (htimer : generation ∈ client.timers)
    (hdue : client.IsDue generation) (result : Except SystemError Unit) :
    client.turn? (.timer generation result) =
      some ({ client with timers := client.timers.erase generation }.attempt result, []) := by
  have hdown : ¬ { client with timers := client.timers.erase generation }.IsUp := by
    rintro (hup | hup) <;> exact nomatch hdue.1.symm.trans hup
  have hfire : client.fire generation
      = { client with
          timers := client.timers.erase generation
          restarting := client.restarting + 1 } := if_pos hdue
  have hactions : (Turn.timer generation result).actions client
      = [.timer generation, .restart result] := by
    simp only [Turn.actions, if_pos hdue]
  have htimer' : client.step? (.timer generation) = some (client.fire generation, []) := by
    simp only [step?, htimer, if_true]
  rw [turn?, hactions, run?, Machine.run?_cons_eq_some]
  refine ⟨_, [], [], htimer', ?_, rfl⟩
  rw [hfire, Machine.run?_singleton]
  simp only [step?, Nat.zero_lt_succ, if_true, Nat.add_sub_cancel]
  rw [start_of_not_isUp hdown]

/-- Any other timer is gone, and nothing else has changed. -/
theorem turn?_timer_of_not_isDue {generation : Nat} (htimer : generation ∈ client.timers)
    (hlate : ¬ client.IsDue generation) (result : Except SystemError Unit) :
    client.turn? (.timer generation result) =
      some ({ client with timers := client.timers.erase generation }, []) := by
  have hfire : client.fire generation
      = { client with timers := client.timers.erase generation } := if_neg hlate
  have hactions : (Turn.timer generation result).actions client = [.timer generation] := by
    simp only [Turn.actions, if_neg hlate]
  rw [turn?, hactions, run?, Machine.run?_singleton]
  simp only [step?, htimer, if_true, hfire]

/-- Only a timer that is set can run out. -/
theorem mem_timers_of_turn? {generation : Nat} {result : Except SystemError Unit}
    (h : client.turn? (.timer generation result) = some (next, told)) :
    generation ∈ client.timers := by
  obtain ⟨_, _, _, hfirst, -, -⟩ := (Machine.run?_cons_eq_some step?).1 h
  exact (Option.ite_none_right_eq_some.1 hfirst).1

/-- The watch reports the end of a process to the client. -/
theorem turn?_report {generation : Nat} {link : Link} {waited : Job.Waited}
    (hlink : client.link? generation = some link) (hwatch : link.watch = .ended waited) :
    client.turn? (.link generation .report) =
      some ((client.setLink { link with watch := .reported }).onExit generation waited) := by
  rw [turn?, Turn.actions, run?, Machine.run?_singleton]
  simp [step?, hlink, Link.step?_report hwatch, hear]

/-! ## Between turns -/

/-- No call is halfway. -/
structure Rested (client : DaemonClient) : Prop where
  restarting : client.restarting = 0
  taken : ∀ session, .taken session ∉ client.stops

namespace Rested

/-- Before the first call nothing is halfway. -/
theorem initial (settings : DaemonSettings) : Rested (ofSettings settings) :=
  ⟨rfl, fun _ => List.not_mem_nil⟩

theorem congr (h : client.Rested) (hrestarting : next.restarting = client.restarting)
    (hstops : next.stops = client.stops) : next.Rested :=
  ⟨hrestarting.trans h.restarting, hstops ▸ h.taken⟩

/-- An attempt to start a process leaves no call halfway. -/
theorem attempt (h : client.Rested) (result : Except SystemError Unit) :
    (client.attempt result).Rested := by
  rcases client.attempt_cases result with ⟨-, -, heq⟩ | ⟨-, -, heq⟩ | ⟨-, -, heq⟩
  all_goals
    rw [heq]
    exact h.congr rfl rfl

/-- A turn of one action leaves no call halfway. -/
theorem step (h : client.Rested) (hstep : Step client action next told) (hstop : action ≠ .stop)
    (htimer : ∀ generation, action ≠ .timer generation)
    (hrestart : ∀ result, action ≠ .restart result) : next.Rested := by
  cases hstep with
  | stopNothing | stop => exact absurd rfl hstop
  | timerDue generation | timerLate generation => exact absurd rfl (htimer generation)
  | restartUp result | restart result => exact absurd rfl (hrestart result)
  | dismiss index session hpoint => exact absurd (List.mem_of_getElem? hpoint) (h.taken session)
  | stopReturns index =>
      refine ⟨h.restarting, fun session hmem => ?_⟩
      rcases List.mem_or_eq_of_mem_set hmem with hold | hnew
      · exact h.taken session hold
      · exact nomatch hnew
  | abandon request =>
      refine ⟨h.restarting, fun session hmem => ?_⟩
      obtain ⟨point, hpoint, heq⟩ := List.mem_map.1 hmem
      split at heq
      · exact h.taken _ hpoint
      · exact h.taken session (heq ▸ hpoint)
  | start result => exact h.attempt result
  | _ => exact h.congr rfl rfl

/-- A whole turn leaves no call halfway. -/
theorem turn? (h : client.Rested) (hturn : client.turn? turn = some (next, told)) :
    next.Rested := by
  cases turn with
  | stop =>
      cases hsession : client.session with
      | none =>
          cases (turn?_stop_of_none hsession).symm.trans hturn
          refine ⟨h.restarting, fun session hmem => ?_⟩
          exact h.taken session (by simpa using hmem)
      | some taken =>
          cases (turn?_stop hsession).symm.trans hturn
          refine ⟨h.restarting, fun session hmem => ?_⟩
          exact h.taken session (by simpa using hmem)
  | timer generation result =>
      have htimer := mem_timers_of_turn? hturn
      by_cases hdue : client.IsDue generation
      · cases (turn?_timer_of_isDue htimer hdue result).symm.trans hturn
        have hfired : Rested { client with timers := client.timers.erase generation } :=
          h.congr rfl rfl
        exact hfired.attempt result
      · cases (turn?_timer_of_not_isDue htimer hdue result).symm.trans hturn
        exact h.congr rfl rfl
  | start | stopReturns | request | abandon | link =>
      rw [turn?, Turn.actions, run?, Machine.run?_singleton] at hturn
      exact h.step (.of_step? hturn) nofun nofun nofun

/-- When turns are done, no call is halfway. -/
theorem of_turns {settings : DaemonSettings}
    (hrun : (ofSettings settings).turns? turns = some (client, told)) : client.Rested :=
  Machine.run?_keeps DaemonClient.turn? (fun _ _ _ _ h hturn => h.turn? hturn) hrun
    (initial settings)

end Rested

end Toolbench.DaemonClient
