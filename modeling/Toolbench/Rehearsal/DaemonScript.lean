import Toolbench.Daemon.Client
import Toolbench.Daemon.Match
import Toolbench.Rehearsal.Schedule

/-!
# Rehearsing the client of a daemon

A rehearsal of a client: one process of the daemon at a time does what the script says, and time
passes only where the script says so. Callers are known by numbers of their own.
-/

namespace Toolbench.Rehearsal

open DaemonClient (Output)

/-- What a caller asks the daemon. -/
inductive Wish where
  /-- Any request; the caller gets the lines of the answer. -/
  | lines (fields : List String)
  /-- A question; the caller gets what was found. -/
  | question (request : Request)
deriving DecidableEq, Repr

/-- What a caller gets. -/
inductive Reply where
  | lines (batch : Batch)
  | found (results : List Match)
  | foundFirst (result : Option Match)
  | refused (error : DaemonError)
deriving DecidableEq, Repr

namespace Wish

/-- The fields of the request that is sent. -/
def fields : Wish → List String
  | .lines fields => fields
  | .question request => request.fields

/-- What a caller makes of an answer. Of definitions only the first counts. -/
def reply (batch : Batch) : Wish → Reply
  | .lines _ => .lines batch
  | .question request =>
      match request.question with
      | .findDefinition => .foundFirst (Match.ofBatch batch).head?
      | _ => .found (Match.ofBatch batch)

end Wish

/-- A request of a caller. -/
structure Call where
  /-- The number of the caller. -/
  caller : Int
  /-- The number of the request. -/
  request : Nat
  wish : Wish
deriving DecidableEq, Repr

/-- What the process of the daemon was told. -/
structure Servant where
  standin : Standin
  /-- How many lines of its input it has taken. -/
  linesTaken : Nat
  closedInput : Bool
  /-- It discards its input, and at the end of it ends with this code. An input that it has closed
  is at its end. -/
  drains : Option Int
deriving DecidableEq, Repr

/-- A process that was told nothing. -/
def Servant.fresh : Servant :=
  ⟨.fresh, 0, false, none⟩

/-- A client with the process of its daemon. -/
structure StagedDaemon where
  client : DaemonClient
  servant : Servant
  /-- The time in milliseconds. -/
  clock : Nat
  /-- The generations whose timers are set, with the times when they run out. -/
  due : List (Nat × Nat)
  calls : List Call
deriving Repr

/-- A step of the script of a client. -/
inductive DaemonStep where
  | start
  | stop
  | ask (caller : Int) (wish : Wish)
  | abandon (caller : Int)
  | cue (cue : Cue)
  /-- The process takes the next line of its input. -/
  | takeLine
  | closeInput
  | drainThenExit (code : Int)
  /-- The process ends. `restarts` waits until the daemon was started again. -/
  | exit (code : Option Int) (restarts : Bool)
  | sleep (duration : Nat)
deriving DecidableEq, Repr

/-- What a step of the script of a client comes to. -/
inductive DaemonAnswer where
  | nothing
  | started (result : Except DaemonError Unit)
  | input (line : Option String)
  /-- Time has passed; a process was started in the meantime or not. -/
  | slept (restarted : Bool)
deriving Repr

namespace StagedDaemon

/-- A client before its first call. -/
def ofSettings (settings : DaemonSettings) : StagedDaemon :=
  ⟨.ofSettings settings, .fresh, 0, [], []⟩

/-- The command that starts the daemon. -/
def command (host : Host) (staged : StagedDaemon) : Command :=
  staged.client.command host.environment.value?

/-- Carry out actions, as far as they are possible. Timers that were set get a time to run out,
and a new process was told nothing. -/
def act (staged : StagedDaemon) (actions : List DaemonClient.Action) :
    StagedDaemon × List Output :=
  let (client, outputs) := staged.client.advance actions
  let kept := staged.due.filter fun (generation, _) => generation ∈ client.timers
  let set := client.timers.filter fun generation => !(kept.map (·.1)).contains generation
  let due := kept ++ set.map fun generation =>
    (generation, staged.clock + staged.client.settings.restartDelay)
  let servant :=
    if staged.client.links.length < client.links.length then .fresh else staged.servant
  ({ staged with client, due, servant }, outputs)

/-- Carry out actions of the link to the current process. -/
def actLink (staged : StagedDaemon) (actions : List Link.Action) : StagedDaemon × List Output :=
  staged.act (actions.map (.link staged.client.generation))

/-- Whether a process can be started. -/
def launch (host : Host) (staged : StagedDaemon) : Except SystemError Unit :=
  (host.start (staged.command host)).map fun _ => ()

/-- The process writes, and the answers that it completes are handed on. -/
def produce (bytes : List UInt8) : List Link.Action :=
  let lines := List.replicate (bytes.count LineBuffer.feedByte) Link.Action.push
  .produce bytes
    :: (List.replicate (bytes.length / Job.readSize + 1) (.read Job.readSize :: lines)).flatten

/-- The output of the process is at its end and is read to it. -/
def readOut : List Link.Action :=
  [.closeOutput, .readEnd, .push]

/-- The process ends while nobody asked it to. -/
def exitActions (servant : Servant) (code : Option Int) : List Link.Action :=
  .childEnds (code.map keptCode) :: (if servant.standin.holds then [] else readOut)
    ++ [.observeEnd, .report]

/-- The process is asked to end. Only one that discards its input ends by itself. -/
def stopActions (servant : Servant) : List Link.Action :=
  let ends := match servant.drains with
    | some code => [.closeInput, .childEnds (some (keptCode code))]
        ++ if servant.standin.holds then [] else readOut
    | none => .graceOver :: .childEnds none :: readOut
  .notice :: ends ++ [.observeEnd, .report]

/-- Let time pass until `limit`, and let each timer run out in its turn. The first argument bounds
how many do. -/
def pass (host : Host) : Nat → Nat → StagedDaemon → StagedDaemon × List Output
  | 0, limit, staged => ({ staged with clock := max staged.clock limit }, [])
  | fuel + 1, limit, staged =>
      match (staged.due.filter (·.2 ≤ limit)).mergeSort (fun a b => a.2 ≤ b.2) with
      | [] => ({ staged with clock := max staged.clock limit }, [])
      | (generation, time) :: _ =>
          let staged := { staged with clock := max staged.clock time }
          let (staged, outputs) := staged.act [.timer generation, .restart (staged.launch host)]
          let (staged, later) := staged.pass host fuel limit
          (staged, outputs ++ later)

/-- Let time pass. -/
def wait (host : Host) (duration : Nat) (staged : StagedDaemon) : StagedDaemon × List Output :=
  staged.pass host (duration + staged.due.length) (staged.clock + duration)

/-- The next line of the input of the current process. What it has not taken when it closes its
input is lost. -/
def nextLine? (staged : StagedDaemon) : Option String := do
  guard !staged.servant.closedInput
  let link ← staged.client.link? staged.client.generation
  let line ← (link.input.toList.splitOn '\n').dropLast[staged.servant.linesTaken]?
  pure (String.ofList line)

/-- Change what the current process was told. -/
def tell (staged : StagedDaemon) (change : Servant → Servant) : StagedDaemon :=
  { staged with servant := change staged.servant }

/-- What the call to start the daemon returned. -/
def startResult (outputs : List Output) : DaemonAnswer :=
  match outputs with
  | .started result :: _ => .started result
  | _ => .nothing

/-- Do a step of a script. -/
def step (host : Host) (staged : StagedDaemon) :
    DaemonStep → DaemonAnswer × StagedDaemon × List Output
  | .start =>
      let (staged, outputs) := staged.act [.start (staged.launch host)]
      (startResult outputs, staged, outputs)
  | .stop =>
      let index := staged.client.stops.length
      let (staged, outputs) := staged.act [.stop, .dismiss index]
      let (staged, later) := staged.actLink (stopActions staged.servant)
      let (staged, _) := staged.act [.stopReturns index]
      (.nothing, staged, outputs ++ later)
  | .ask caller wish =>
      let call : Call := ⟨caller, staged.client.nextRequest, wish⟩
      let staged := { staged with calls := call :: staged.calls }
      let (staged, outputs) := staged.act [.request wish.fields]
      let (staged, _) :=
        staged.actLink [if staged.servant.closedInput then .writeFails else .write]
      (.nothing, staged, outputs)
  | .abandon caller =>
      match staged.calls.find? (·.caller = caller) with
      | some call =>
          let (staged, outputs) := staged.act [.abandon call.request]
          (.nothing, staged, outputs)
      | none => (.nothing, staged, [])
  | .cue cue =>
      let staged := staged.tell fun servant =>
        { servant with standin := cue.prepare servant.standin }
      match cue.written host (staged.command host) with
      | some (.out, text) =>
          let (staged, outputs) := staged.actLink (produce (Text.Utf8.encode text))
          (.nothing, staged, outputs)
      | _ => (.nothing, staged, [])
  | .takeLine =>
      (.input staged.nextLine?,
        staged.tell fun servant => { servant with linesTaken := servant.linesTaken + 1 }, [])
  | .closeInput =>
      (.nothing, staged.tell fun servant => { servant with closedInput := true }, [])
  | .drainThenExit code =>
      let staged := staged.tell fun servant => { servant with drains := some code }
      let (staged, outputs) := staged.actLink
        (if staged.servant.closedInput then exitActions staged.servant (some code) else [])
      (.nothing, staged, outputs)
  | .exit code restarts =>
      let (staged, outputs) := staged.actLink (exitActions staged.servant code)
      let (staged, later) :=
        if restarts then staged.wait host staged.client.settings.restartDelay else (staged, [])
      (.nothing, staged, outputs ++ later)
  | .sleep duration =>
      let count := staged.client.links.length
      let (staged, outputs) := staged.wait host duration
      (.slept (count < staged.client.links.length), staged, outputs)

/-- What a caller gets from an output of the client, with the number of the caller. -/
def reply? (staged : StagedDaemon) : Output → Option (Int × Reply)
  | .answered answer => do
      let call ← staged.calls.find? (·.request = answer.id)
      if answer.heard then some (call.caller, call.wish.reply answer.batch) else none
  | .refused request error => do
      let call ← staged.calls.find? (·.request = request)
      some (call.caller, .refused error)
  | _ => none

/-- What callers get from outputs of the client, by the numbers of the callers. -/
def replies (staged : StagedDaemon) (outputs : List Output) : List (Int × Reply) :=
  (outputs.filterMap staged.reply?).mergeSort fun a b => a.1 ≤ b.1

end StagedDaemon

end Toolbench.Rehearsal
