import Toolbench.Proofs.Build.Forwarding
import Toolbench.Proofs.Diagnostic.Contents
import Toolbench.Proofs.Path.Joining

/-!
# The paths that builds publish

A manager's collection is the history of what the observers of its builds asked of it:
`recorded_run` says so of every history of a manager, and that each diagnostic is seen from the
directory in which the tool of its build runs. So a published path is the reported one seen from
there, and it is absolute exactly when one of the two is (`published_paths`).
-/

namespace Toolbench

namespace Build

/-- The change that an editor is told of. -/
def Output.update? : Output → Option EditorUpdate
  | .update told => some told
  | .event _ => none

/-- What a report asks of the collection, for paths seen from a directory. -/
def Report.call? (directory : Path) : Report → Option Collection.Call
  | .clear => some .clear
  | .publish ds => some (.publishAll directory ds)
  | .emit _ => none

/-- Where the tool runs. -/
def workingDirectory (settings : BuildSettings) (invocation : Invocation) : Path :=
  settings.projectDirectory.getD invocation.directory

namespace Observer

@[simp] theorem setPending_directory (observer : Observer) (stream : Job.Stream)
    (lines : List String) : (observer.setPending stream lines).directory = observer.directory := by
  cases stream <;> rfl

@[simp] theorem flush_directory (observer : Observer) (stream : Job.Stream) :
    (observer.flush stream).1.directory = observer.directory := by
  unfold flush
  split
  · rfl
  · exact setPending_directory observer stream []

/-- What a job tells does not change where paths start. -/
theorem observe_directory (observer : Observer) (callback : Job.Callback) :
    (observer.observe callback).1.directory = observer.directory := by
  cases callback with
  | started => rfl
  | exited outcome =>
      show ((observer.flush .out).1.flush .err).1.directory = observer.directory
      rw [flush_directory, flush_directory]
  | line stream text =>
      show (observer.line stream text).1.directory = observer.directory
      unfold line
      split
      · rfl
      · rfl
      · split
        · exact flush_directory observer stream
        · exact setPending_directory observer stream _

@[simp] theorem observeAll_directory (observer : Observer) (callbacks : List Job.Callback) :
    (observer.observeAll callbacks).1.directory = observer.directory := by
  induction callbacks generalizing observer with
  | nil => rfl
  | cons callback callbacks ih => exact (ih _).trans (observe_directory observer callback)

end Observer

end Build

namespace BuildManager

open Build Collection

variable {settings : BuildSettings} {manager next : BuildManager} {action : Action}
  {outputs : List Output} {past : List (Machine.Event BuildManager Action Output)}

/-! ## What is asked of the collection -/

/-- What an observer asks of the collection is done, and the editor is told of it. -/
theorem reportAll_eq_callAll (directory : Path) (manager : BuildManager) (reports : List Report) :
    (manager.reportAll directory reports).1.collection
        = (manager.collection.callAll (reports.filterMap (Report.call? directory))).1 ∧
      (manager.reportAll directory reports).2.filterMap Output.update?
        = (manager.collection.callAll (reports.filterMap (Report.call? directory))).2 := by
  induction reports generalizing manager with
  | nil => exact ⟨rfl, rfl⟩
  | cons report reports ih =>
      obtain ⟨hcollection, hupdates⟩ := ih (manager.report directory report).1
      cases report with
      | emit event => exact ⟨hcollection, hupdates⟩
      | clear => exact ⟨hcollection, congrArg (EditorUpdate.clear :: ·) hupdates⟩
      | publish ds =>
          refine ⟨hcollection, ?_⟩
          show (((manager.collection.publishAll directory ds).2.map Output.update)
            ++ ((manager.report directory (.publish ds)).1.reportAll directory reports).2).filterMap
              Output.update? = _
          rw [List.filterMap_append, hupdates, List.filterMap_map]
          exact congrArg (· ++ _) List.filterMap_some

/-- The call whose job has acted at an event, and what the job told its observer. -/
def tellingAt (event : Machine.Event BuildManager Action Output) :
    Option (Run × List Job.Callback) :=
  match event.action with
  | .job id action =>
      (event.before.findRun? id).bind fun run =>
        (run.job.step? action).map fun reply => (run, reply.2)
  | _ => none

/-- What an event asks of the collection. -/
def callsAt (event : Machine.Event BuildManager Action Output) : List Call :=
  ((tellingAt event).map fun (run, told) =>
    (run.observer.observeAll told).2.filterMap (Report.call? run.observer.directory)).getD []

/-- When a job tells something, what its observer asks for is done. -/
theorem Step.telling (h : Step manager action next outputs) :
    (tellingAt ⟨manager, action, next, outputs⟩ = none ∧ next.collection = manager.collection ∧
        outputs.filterMap Output.update? = []) ∨
      ∃ run told job, tellingAt ⟨manager, action, next, outputs⟩ = some (run, told) ∧
        run ∈ manager.runs ∧
        (next, outputs) = (manager.setRun { run with
            job, observer := (run.observer.observeAll told).1 }).reportAll
          run.observer.directory (run.observer.observeAll told).2 := by
  cases h with
  | job run action job told hrun _ _ hstep =>
      refine .inr ⟨run, told, job, ?_, (mem_of_findRun? hrun).1, ?_⟩
      · simp only [tellingAt, hrun, hstep, Option.bind_some, Option.map_some]
      · rw [Observer.observeAll_directory]
  | replace run target | stop index target =>
      rcases manager.kill_cases target with heq | ⟨asked, -, -, -, heq⟩
      all_goals
        rw [heq]
        exact .inl ⟨rfl, rfl, rfl⟩
  | _ => exact .inl ⟨rfl, rfl, rfl⟩

/-- A step changes the collection by what is asked of it, and tells the editor so. -/
theorem Step.calls (h : Step manager action next outputs) :
    next.collection = (manager.collection.callAll (callsAt ⟨manager, action, next, outputs⟩)).1 ∧
      outputs.filterMap Output.update?
        = (manager.collection.callAll (callsAt ⟨manager, action, next, outputs⟩)).2 := by
  unfold callsAt
  rcases h.telling with ⟨hnone, hcollection, hupdates⟩ | ⟨run, told, job, hsome, -, heq⟩
  · rw [hnone]
    exact ⟨hcollection, hupdates⟩
  · have hnext := congrArg Prod.fst heq
    have houtputs := congrArg Prod.snd heq
    dsimp only at hnext houtputs
    rw [hsome, hnext, houtputs]
    exact reportAll_eq_callAll _ _ _

/-- What is asked of the collection in a history. -/
def callsOf (past : List (Machine.Event BuildManager Action Output)) : List Call :=
  past.flatMap callsAt

/-! ## Where paths start -/

section Directories

variable {D : Path → Prop} {run : Run}

/-- When one call changes and its observer sees paths from a place of a kind, all do. -/
theorem directory_setRun (h : ∀ run ∈ manager.runs, D run.observer.directory)
    (hrun : D run.observer.directory) :
    ∀ other ∈ (manager.setRun run).runs, D other.observer.directory := by
  intro other hother
  rcases mem_setRun_iff.1 hother with ⟨rfl, -⟩ | ⟨hold, -⟩
  · exact hrun
  · exact h other hold

/-- To ask a build to end does not change where paths start. -/
theorem directory_kill (h : ∀ run ∈ manager.runs, D run.observer.directory) (target : Nat) :
    ∀ run ∈ (manager.kill target).2.runs, D run.observer.directory := by
  rcases manager.kill_cases target with heq | ⟨asked, hasked, -, -, heq⟩
  · rw [heq]
    exact h
  · rw [heq]
    exact directory_setRun h (h asked (mem_of_findRun? hasked).1)

/-- The observer of a call sees paths from where the tool is going to run, and goes on to. -/
theorem Step.directory (h : ∀ run ∈ manager.runs, D run.observer.directory)
    (hcall : ∀ invocation, action = .call invocation →
      D (workingDirectory manager.settings invocation))
    (hstep : Step manager action next outputs) : ∀ run ∈ next.runs, D run.observer.directory := by
  cases hstep with
  | call invocation =>
      intro run hrun
      rcases List.mem_append.1 hrun with hold | hnew
      · exact h run hold
      · rw [List.mem_singleton.1 hnew]
        exact hcall invocation rfl
  | take run hrun | skip run _ hrun | refuse run _ hrun | stopOther run _ hrun | resume run _ hrun
  | conclude run _ hrun | concludeMissing run _ _ hrun | finish run _ hrun | leave run _ hrun =>
      exact directory_setRun h (h run (mem_of_findRun? hrun).1)
  | job run action job told hrun =>
      rw [runs_reportAll]
      refine directory_setRun h ?_
      rw [Observer.observeAll_directory]
      exact h run (mem_of_findRun? hrun).1
  | replace run target hrun =>
      exact directory_setRun (directory_kill h target) (h run (mem_of_findRun? hrun).1)
  | callStop | look | stopReturns => exact h
  | stop index target => exact directory_kill h target

/-- What is handed in at an event is seen from where an observer sees paths. -/
theorem Step.directory_of_mem_callsAt (h : ∀ run ∈ manager.runs, D run.observer.directory)
    (hstep : Step manager action next outputs) {offer : Path × Diagnostic}
    (hoffer : offer ∈ (callsAt ⟨manager, action, next, outputs⟩).flatMap Call.offers) :
    D offer.1 := by
  obtain ⟨asked, hasked, hmem⟩ := List.mem_flatMap.1 hoffer
  have hdirectory := Call.directory_of_mem_offers hmem
  unfold callsAt at hasked
  rcases hstep.telling with ⟨hnone, -⟩ | ⟨run, told, job, hsome, hrun, -⟩
  · rw [hnone] at hasked
    exact absurd hasked List.not_mem_nil
  · rw [hsome] at hasked
    obtain ⟨report, -, hcall⟩ := List.mem_filterMap.1 hasked
    have hsame : offer.1 = run.observer.directory := by
      cases report with
      | emit => exact nomatch hcall
      | clear =>
          rw [← Option.some.inj hcall] at hdirectory
          exact nomatch hdirectory
      | publish ds =>
          rw [← Option.some.inj hcall] at hdirectory
          exact (Option.some.inj hdirectory).symm
    rw [hsame]
    exact h run hrun

end Directories

/-! ## Histories -/

/-- The directory is the one that the tool of a call of the history runs in. -/
def RunsIn (settings : BuildSettings) (past : List (Machine.Event BuildManager Action Output))
    (directory : Path) : Prop :=
  ∃ invocation, .call invocation ∈ past.map Machine.Event.action ∧
    directory = workingDirectory settings invocation

/-- The directories of a history are those of a longer one. -/
theorem RunsIn.concat {directory : Path} (h : RunsIn settings past directory)
    (event : Machine.Event BuildManager Action Output) :
    RunsIn settings (past ++ [event]) directory := by
  obtain ⟨invocation, hcall, heq⟩ := h
  refine ⟨invocation, ?_, heq⟩
  rw [List.map_append]
  exact List.mem_append_left _ hcall

/-- What holds of the collection of a manager after the events of a history. -/
structure Recorded (settings : BuildSettings)
    (past : List (Machine.Event BuildManager Action Output)) (manager : BuildManager) : Prop where
  configured : manager.settings = settings
  collection_eq : manager.collection = (empty.callAll (callsOf past)).1
  updates_eq : (past.flatMap Machine.Event.told).filterMap Output.update?
    = (empty.callAll (callsOf past)).2
  observers : ∀ run ∈ manager.runs, RunsIn settings past run.observer.directory
  offers : ∀ offer ∈ (callsOf past).flatMap Call.offers, RunsIn settings past offer.1

/-- Every step keeps what holds of the collection. -/
theorem Recorded.step (h : Recorded settings past manager)
    (hstep : Step manager action next outputs) :
    Recorded settings (past ++ [⟨manager, action, next, outputs⟩]) next := by
  obtain ⟨hcollection, hupdates⟩ := hstep.calls
  have hcalls : callsOf (past ++ [⟨manager, action, next, outputs⟩])
      = callsOf past ++ callsAt ⟨manager, action, next, outputs⟩ := by
    rw [callsOf, List.flatMap_append, List.flatMap_singleton]
    rfl
  have hobservers : ∀ run ∈ manager.runs,
      RunsIn settings (past ++ [⟨manager, action, next, outputs⟩]) run.observer.directory :=
    fun run hrun => (h.observers run hrun).concat _
  refine ⟨hstep.settings_nextId.1.trans h.configured, ?_, ?_, ?_, ?_⟩
  · rw [hcalls, callAll_append, hcollection, h.collection_eq]
  · rw [List.flatMap_append, List.filterMap_append, h.updates_eq, hcalls, callAll_append,
      ← h.collection_eq, List.flatMap_singleton, hupdates]
  · refine hstep.directory hobservers fun invocation hcall => ⟨invocation, ?_, ?_⟩
    · simp [hcall]
    · rw [h.configured]
  · intro offer hoffer
    rw [hcalls, List.flatMap_append] at hoffer
    rcases List.mem_append.1 hoffer with hold | hnow
    · exact (h.offers offer hold).concat _
    · exact hstep.directory_of_mem_callsAt hobservers hnow

/-- The collection of a manager is the history of what was asked of it, and so is what the editor
was told. -/
theorem recorded_run {env : Environment} {actions : List Action}
    (hrun : (ofSettings settings env).run? actions = some (manager, outputs)) :
    Recorded settings (Machine.trace step? (ofSettings settings env) actions) manager :=
  Machine.run?_trace_invariant step? (fun _ _ _ _ _ h hstep => h.step (.of_step? hstep)) hrun
    ⟨rfl, rfl, rfl, fun _ hmem => absurd hmem List.not_mem_nil,
      fun _ hmem => absurd hmem List.not_mem_nil⟩

/-- A path that the collection has as a key, or that the editor was told of, is the path of a
diagnostic that was handed in, as seen from where the tool of a call runs, normalized. It never has
a `.`, and it is absolute and without `..` exactly when the tool runs in an absolute directory or
the diagnostic's own path is absolute. Where builds are asked for in absolute directories, only a
relative project directory makes the first one fail. -/
theorem published_paths {env : Environment} {actions : List Action} {path : Path}
    (hrun : (ofSettings settings env).run? actions = some (manager, outputs))
    (hasked : ∀ invocation, .call invocation ∈ actions → invocation.directory.isAbsolute = true)
    (hpath : path ∈ manager.collection.files.map (·.1) ∨ ∃ ds, .update (.set path ds) ∈ outputs) :
    ∃ offer ∈ (callsOf (Machine.trace step? (ofSettings settings env) actions)).flatMap Call.offers,
      (∃ invocation, .call invocation ∈ actions ∧
        offer.1 = workingDirectory settings invocation) ∧
      path = (offer.1.join offer.2.path).normalize ∧ .current ∉ path.components ∧
      (path.isAbsolute = true ∧ .parent ∉ path.components ↔
        (∀ project ∈ settings.projectDirectory, project.isAbsolute = true) ∨
          offer.2.path.isAbsolute = true) := by
  have hrecorded := recorded_run hrun
  obtain ⟨offer, hoffer, heq⟩ : ∃ offer ∈ (callsOf (Machine.trace step?
      (ofSettings settings env) actions)).flatMap Call.offers,
      path = (offer.2.resolvedIn offer.1).path := by
    rcases hpath with hkey | ⟨ds, hupdate⟩
    · obtain ⟨entry, hentry, rfl⟩ := List.mem_map.1 hkey
      rw [hrecorded.collection_eq] at hentry
      exact exists_offer_of_mem_files hentry
    · have htold : EditorUpdate.set path ds ∈ (empty.callAll (callsOf
          (Machine.trace step? (ofSettings settings env) actions))).2 := by
        rw [← hrecorded.updates_eq, ← Machine.told_eq_flatMap_trace step? hrun]
        exact List.mem_filterMap.2 ⟨_, hupdate, rfl⟩
      exact exists_offer_of_update htold
  obtain ⟨invocation, hcall, hdirectory⟩ := hrecorded.offers offer hoffer
  rw [Machine.map_action_trace step? hrun] at hcall
  have hworking : offer.1.isAbsolute = true ↔
      ∀ project ∈ settings.projectDirectory, project.isAbsolute = true := by
    rw [hdirectory, workingDirectory]
    cases settings.projectDirectory with
    | none => simpa using hasked invocation hcall
    | some project => simp
  refine ⟨offer, hoffer, ⟨invocation, hcall, hdirectory⟩, heq, ?_, ?_⟩
  · rw [heq]
    exact Path.current_not_mem_components_normalize _
  · rw [← hworking, ← Bool.or_eq_true, ← Path.isAbsolute_join_eq, heq]
    constructor
    · rintro ⟨habsolute, -⟩
      exact (Path.isAbsolute_normalize _).symm.trans habsolute
    · intro habsolute
      obtain ⟨hnormal, names, hcomponents, hnames⟩ :=
        (Path.isNormal_normalize habsolute).components_eq
      refine ⟨hnormal, fun hparent => ?_⟩
      rw [Diagnostic.resolvedIn, hcomponents] at hparent
      rcases List.mem_cons.1 hparent with hroot | hname
      · cases hroot
      · exact (hnames _ hname).2 rfl

/-- The history of a build that is asked for in `/w/src` and of which one line is read. -/
def oneLine (line : String) : List Action :=
  [.call ⟨"check", [], ⟨"/w/src"⟩⟩, .choose 1, .job 1 .execute, .job 1 .announce,
    .job 1 (.spawn (.ok 7)), .job 1 .recordPid, .job 1 (.takePipes none),
    .job 1 (.write .out (Text.Utf8.encode line.toList)), .job 1 (.read .out 64), .job 1 .dispatch]

/-- The build of that history is asked for in an absolute directory. -/
theorem isAbsolute_of_mem_oneLine {line : String} {invocation : Invocation}
    (h : .call invocation ∈ oneLine line) : invocation.directory.isAbsolute = true := by
  simp only [oneLine, List.mem_cons, Action.call.injEq, reduceCtorEq, List.not_mem_nil,
    or_false] at h
  rw [h]
  decide

/-- A file above the directory in which the tool runs. -/
theorem published_paths_above :
    let settings := { BuildSettings.standard with outputMode := .legacy }
    let actions := oneLine "../b.rs:1:1: 1:2 error: e\n"
    ∃ manager outputs, (ofSettings settings []).run? actions = some (manager, outputs) ∧
      manager.collection.files.map (·.1) = [⟨"/w/b.rs"⟩] ∧
      .current ∉ (Path.mk "/w/b.rs").components ∧ .parent ∉ (Path.mk "/w/b.rs").components := by
  intro settings actions
  have hhistory : (((ofSettings settings []).run? actions).map fun reply =>
      reply.1.collection.files.map (·.1)) = some [⟨"/w/b.rs"⟩] := by
    decide +kernel
  obtain ⟨⟨manager, outputs⟩, hrun, hkeys⟩ := Option.map_eq_some_iff.1 hhistory
  have hpath : Path.mk "/w/b.rs" ∈ manager.collection.files.map (·.1) := by
    rw [hkeys]
    exact List.mem_singleton_self _
  obtain ⟨offer, -, -, -, hcurrent, hnormal⟩ :=
    published_paths hrun (fun _ => isAbsolute_of_mem_oneLine) (.inl hpath)
  exact ⟨manager, outputs, hrun, hkeys, hcurrent, (hnormal.2 (.inl nofun)).2⟩

/-- A relative project directory, and a file that is reported as seen from there. -/
theorem published_relative :
    ¬ ∀ (settings : BuildSettings) (actions : List Action) (manager : BuildManager)
      (outputs : List Output), (ofSettings settings []).run? actions = some (manager, outputs) →
      (∀ invocation, .call invocation ∈ actions → invocation.directory.isAbsolute = true) →
      ∀ path, path ∈ manager.collection.files.map (·.1) ∨
          (∃ ds, .update (.set path ds) ∈ outputs) →
        path.isAbsolute = true ∧ .current ∉ path.components ∧ .parent ∉ path.components := by
  intro h
  let settings :=
    { BuildSettings.standard with outputMode := .legacy, projectDirectory := some ⟨"lib"⟩ }
  let actions := oneLine "src/a.rs:1:1: 1:2 error: e\n"
  have hhistory : (((ofSettings settings []).run? actions).map fun reply =>
      reply.1.collection.files.map (·.1)) = some [⟨"lib/src/a.rs"⟩] := by
    decide +kernel
  obtain ⟨⟨manager, outputs⟩, hrun, hkeys⟩ := Option.map_eq_some_iff.1 hhistory
  have hkey : Path.mk "lib/src/a.rs" ∈ manager.collection.files.map (·.1) := by
    rw [hkeys]
    exact List.mem_singleton_self _
  have habsolute := (h settings actions manager outputs hrun
    (fun _ => isAbsolute_of_mem_oneLine) _ (.inl hkey)).1
  exact absurd habsolute (by decide)

end BuildManager

end Toolbench
