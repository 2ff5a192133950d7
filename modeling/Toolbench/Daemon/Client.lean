import Toolbench.Daemon.Link
import Toolbench.Daemon.Pending
import Toolbench.Daemon.Request
import Toolbench.Job.Command
import Toolbench.Machine
import Toolbench.Settings.Basic
import Toolbench.Settings.Expansion

/-!
# The client of a completion daemon

The client keeps one process of the daemon running and pairs its answers with requests. Status,
generation and session lie under one lock. A session belongs to the process of one generation and
holds the requests that wait; each start of a process begins a new generation. When a process
crashes or cannot be started, a timer is set, and when it runs out the daemon is started again,
unless something else has happened in the meantime.

Each `Action` is what one call does while it holds the lock, what one party of a link does, or
what a timer does; a history of the client is any sequence of enabled actions. A timer that has run
out looks at the status first and starts the daemon later, and a call that stops the daemon takes
the session first and answers its requests later; other calls may act in between.
-/

namespace Toolbench

/-- Why the client could not do what it was asked. -/
inductive DaemonError where
  /-- The program is not there. -/
  | notInstalled (program : String)
  | notRunning
  | spawn (program : String) (cause : SystemError)
  /-- The input of the process is closed. -/
  | write
deriving DecidableEq, Repr

/-- What is said about an error. -/
def DaemonError.message : DaemonError → String
  | .notInstalled program => "`" ++ program ++ "` is not installed or not on PATH"
  | .notRunning => "completion daemon is not running"
  | .spawn program cause => "failed to spawn `" ++ program ++ "`: " ++ cause.message
  | .write => "failed to send request to the completion daemon"

namespace DaemonClient

/-- Where the daemon stands. -/
inductive Status where
  | stopped
  /-- Only while a call holds the lock. -/
  | starting
  | running
  /-- It ended unexpectedly and is going to be started again. -/
  | crashed
deriving DecidableEq, Repr

/-- What belongs to the process that is running. -/
structure Session where
  generation : Nat
  pending : Pending Nat
deriving DecidableEq, Repr

/-- How far a call to stop the daemon has come. -/
inductive StopPoint where
  /-- It took this session. -/
  | taken (session : Session)
  /-- It waits for the end of the process of this generation. -/
  | awaiting (generation : Nat)
  | returned
deriving DecidableEq, Repr

/-- What the client lets others see. -/
inductive Output where
  /-- A call to start the daemon returns. -/
  | started (result : Except DaemonError Unit)
  /-- A request is not accepted. -/
  | refused (request : Nat) (error : DaemonError)
  /-- A request is answered. -/
  | answered (answer : Answer Nat)
  /-- An answer that no request waits for is dropped. -/
  | unasked (batch : Batch)
deriving Repr

/-- What one party does at once. -/
inductive Action where
  /-- A call to start the daemon; `result` says whether a process can be started. -/
  | start (result : Except SystemError Unit)
  /-- A call to stop the daemon takes the session. -/
  | stop
  /-- A call to stop answers the requests of the session it took and lets the process end. -/
  | dismiss (index : Nat)
  /-- A call to stop sees the end of the process. -/
  | stopReturns (index : Nat)
  /-- A call to send a request. Calls are numbered. -/
  | request (fields : List String)
  /-- The caller of a request stops waiting. -/
  | abandon (request : Nat)
  /-- A timer runs out and looks at the status. -/
  | timer (generation : Nat)
  /-- A timer that found the daemon crashed starts it again. -/
  | restart (result : Except SystemError Unit)
  /-- A party of the link of a generation acts. -/
  | link (generation : Nat) (action : Link.Action)
deriving Repr

end DaemonClient

/-- A client of a completion daemon. -/
structure DaemonClient where
  settings : DaemonSettings
  status : DaemonClient.Status
  generation : Nat
  session : Option DaemonClient.Session
  /-- The links to all processes so far. -/
  links : List Link
  /-- The generations whose timers have not run out. -/
  timers : List Nat
  /-- How many timers have found the daemon crashed and not started it yet. -/
  restarting : Nat
  /-- All calls to stop the daemon so far. -/
  stops : List DaemonClient.StopPoint
  /-- The number of the next request. -/
  nextRequest : Nat
deriving Repr

namespace DaemonClient

/-- A client before its first call. -/
def ofSettings (settings : DaemonSettings) : DaemonClient :=
  ⟨settings, .stopped, 0, none, [], [], 0, [], 0⟩

/-- The command that starts the daemon, given the environment. -/
def command (client : DaemonClient) (env : String → Option String) : Command where
  program := client.settings.program
  arguments := client.settings.arguments
  directory := client.settings.directory
  env := Settings.expandAll env client.settings.env

/-- How many requests wait. -/
def pendingCount (client : DaemonClient) : Nat :=
  (client.session.map (·.pending.size)).getD 0

/-- The link of a generation. -/
def link? (client : DaemonClient) (generation : Nat) : Option Link :=
  client.links.find? (·.generation = generation)

/-- The client with the link of a generation replaced. -/
def setLink (client : DaemonClient) (link : Link) : DaemonClient :=
  { client with
    links := client.links.map fun other =>
      if other.generation = link.generation then link else other }

/-- The client with no more requests for the process of a generation. -/
def dismissLink (client : DaemonClient) (generation : Nat) : DaemonClient :=
  { client with
    links := client.links.map fun link =>
      if link.generation = generation then { link with dismissed := true } else link }

/-- Set a timer for the current generation. -/
def crash (client : DaemonClient) : DaemonClient :=
  { client with status := .crashed, timers := client.timers ++ [client.generation] }

/-- Start the daemon, unless it is running. -/
def start (client : DaemonClient) (result : Except SystemError Unit) :
    Except DaemonError Unit × DaemonClient :=
  if client.status = .starting ∨ client.status = .running then (.ok (), client)
  else
    let client := { client with status := .starting, generation := client.generation + 1 }
    match result with
    | .ok () =>
        (.ok (), { client with
          status := .running
          session := some ⟨client.generation, .empty⟩
          links := client.links ++ [.fresh client.generation] })
    | .error .notFound =>
        (.error (.notInstalled client.settings.program), { client with status := .stopped })
    | .error cause => (.error (.spawn client.settings.program cause), client.crash)

/-- Give a request to the writer and put it into the queue. -/
def request (client : DaemonClient) (fields : List String) : DaemonClient × List Output :=
  let id := client.nextRequest
  let client := { client with nextRequest := id + 1 }
  match client.status, client.session with
  | .running, some session =>
      match client.link? session.generation with
      | some link =>
          if link.writing then
            ({ client.setLink (link.send id (encodeRequest fields)) with
              session := some { session with pending := session.pending.enqueue id } }, [])
          else (client, [.refused id .write])
      | none => (client, [.refused id .write])
  | _, _ => (client, [.refused id .notRunning])

/-- The session with a caller that stops waiting. -/
def Session.abandon (session : Session) (request : Nat) : Session :=
  { session with pending := session.pending.abandon request }

/-- The caller of a request stops waiting, wherever the request is. -/
def abandon (client : DaemonClient) (request : Nat) : DaemonClient :=
  { client with
    session := client.session.map (·.abandon request)
    stops := client.stops.map fun
      | .taken session => .taken (session.abandon request)
      | point => point }

/-- Give an answer that came from the process of a generation to the request that has waited
longest. Nothing happens when the process has no session any more. -/
def resolve (client : DaemonClient) (generation : Nat) (batch : Batch) :
    DaemonClient × List Output :=
  match client.session with
  | none => (client, [])
  | some session =>
      if session.generation = generation then
        match session.pending.resolveNext batch with
        | some (answer, pending) =>
            ({ client with session := some { session with pending } }, [.answered answer])
        | none => (client, [.unasked batch])
      else (client, [])

/-- Give every request of a session an empty answer. -/
def Session.drained (session : Session) : List Output :=
  session.pending.drain.1.map .answered

/-- The process of a generation has ended. Nothing happens when it has no session any more. -/
def onExit (client : DaemonClient) (generation : Nat) (waited : Job.Waited) :
    DaemonClient × List Output :=
  match client.session with
  | none => (client, [])
  | some session =>
      if session.generation = generation then
        let client := { client.dismissLink generation with session := none }
        let client := match waited with
          | .ok (some 0) => { client with status := .stopped }
          | _ =>
              { client with status := .crashed, timers := client.timers ++ [generation] }
        (client, session.drained)
      else (client, [])

/-- Carry out what a link of a generation has for the client. -/
def hear (client : DaemonClient) (generation : Nat) :
    Option Link.Notice → DaemonClient × List Output
  | none => (client, [])
  | some (.answered batch) => client.resolve generation batch
  | some (.exited waited) => client.onExit generation waited

/-- The client with a call to stop at another point. -/
def setStop (client : DaemonClient) (index : Nat) (point : StopPoint) : DaemonClient :=
  { client with stops := client.stops.set index point }

/-- A call to stop the daemon takes the session, if there is one. -/
def stop (client : DaemonClient) : DaemonClient :=
  let point := match client.session with
    | some session => StopPoint.taken session
    | none => .returned
  { client with status := .stopped, session := none, stops := client.stops ++ [point] }

/-- Further steps of a call to stop the daemon. -/
def stopStep? (client : DaemonClient) (index : Nat) (action : Action) :
    Option (DaemonClient × List Output) := do
  match ← client.stops[index]?, action with
  | .taken session, .dismiss _ =>
      let client := client.dismissLink session.generation
      pure (client.setStop index (.awaiting session.generation), session.drained)
  | .awaiting generation, .stopReturns _ =>
      let link ← client.link? generation
      if link.isReported then pure (client.setStop index .returned, []) else none
  | _, _ => none

/-- A timer runs out. -/
def fire (client : DaemonClient) (generation : Nat) : DaemonClient :=
  let client := { client with timers := client.timers.erase generation }
  if client.status = .crashed ∧ client.generation = generation then
    { client with restarting := client.restarting + 1 }
  else client

/-- What an action does to a client and what others see of it, if the action is possible. -/
def step? (client : DaemonClient) (action : Action) : Option (DaemonClient × List Output) :=
  match action with
  | .start result =>
      let (result, client) := client.start result
      some (client, [.started result])
  | .stop => some (client.stop, [])
  | .dismiss index | .stopReturns index => client.stopStep? index action
  | .request fields => some (client.request fields)
  | .abandon request => some (client.abandon request, [])
  | .timer generation =>
      if generation ∈ client.timers then some (client.fire generation, []) else none
  | .restart result =>
      if 0 < client.restarting then
        let client := { client with restarting := client.restarting - 1 }
        some ((client.start result).2, [])
      else none
  | .link generation action => do
      let (link, notice) ← (← client.link? generation).step? action
      pure ((client.setLink link).hear generation notice)

/-- Do actions one after the other, if each is possible in its turn. -/
def run? (client : DaemonClient) (actions : List Action) : Option (DaemonClient × List Output) :=
  Machine.run? step? client actions

/-- Do those actions that are possible in their turn, and leave out the others. -/
def advance (client : DaemonClient) (actions : List Action) : DaemonClient × List Output :=
  Machine.advance step? client actions

end DaemonClient

end Toolbench
