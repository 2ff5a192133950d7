import Toolbench.Daemon.Request
import Toolbench.Diagnostic.OutputMode
import Toolbench.Text.Decimal

/-!
# The options of the command line

The words of the command line name a task: a build, or a question about a place in a file.
`Options.parse` reads them. Options may stand before the name of the task and anywhere among its
words. The words of a build after the first that is for the tool itself all go to the tool,
whatever they look like; `--` begins them too, and is dropped there.
-/

namespace Toolbench

/-- What the command line is asked for. -/
inductive Task where
  /-- Run the build tool; a mode or a project directory takes the place of that of the settings. -/
  | build (mode : Option OutputMode) (projectDirectory : Option Path) (subcommand : String)
      (arguments : List String)
  /-- Ask the daemon about a place. -/
  | query (question : Question) (file : Path) (line column : UInt32)
deriving DecidableEq, Repr

/-- The words of the command line, read. -/
structure Options where
  /-- The file that holds the settings, unless it is the one in the home directory. -/
  config : Option Path
  task : Task
deriving DecidableEq, Repr

namespace Options

/-- Why words name no task. -/
inductive Refusal where
  | misuse
  /-- Help is asked for. -/
  | help
deriving DecidableEq, Repr

/-- What a word looks like. -/
inductive Word where
  /-- The word `--`. -/
  | escape
  /-- An option by its name, perhaps with a value after an equals sign. -/
  | long (name : String) (value : Option String)
  /-- Options by their letters. -/
  | short (letters : List Char)
  | plain
deriving DecidableEq, Repr

/-- What a word looks like. A single hyphen is not an option. -/
def Word.ofText (text : String) : Word :=
  match text.toList with
  | ['-', '-'] => .escape
  | '-' :: '-' :: name =>
      match name.span (· ≠ '=') with
      | (name, '=' :: value) => .long (String.ofList name) (some (String.ofList value))
      | (name, _) => .long (String.ofList name) none
  | '-' :: letter :: letters => .short (letter :: letters)
  | _ => .plain

/-- The options of a build, as far as they were given. -/
structure BuildOptions where
  config : Option Path
  mode : Option OutputMode
  projectDirectory : Option Path
deriving DecidableEq, Repr

/-- No option was given. -/
def BuildOptions.none : BuildOptions :=
  ⟨.none, .none, .none⟩

/-- A path that is given as a value; it is not empty. -/
def path? (text : String) : Except Refusal Path :=
  if text = "" then .error .misuse else .ok ⟨text⟩

/-- Give an option its value; it has none so far. -/
def fill {α : Type} (slot : Option α) (value : Except Refusal α) : Except Refusal (Option α) :=
  match slot with
  | some _ => .error .misuse
  | none => value.map some

/-- An option of a build with its value. `none` when there is no option of this name. -/
def BuildOptions.set? (options : BuildOptions) (name value : String) :
    Option (Except Refusal BuildOptions) :=
  match name with
  | "config" =>
      some ((fill options.config (path? value)).map fun config => { options with config })
  | "project-dir" =>
      some ((fill options.projectDirectory (path? value)).map fun projectDirectory =>
        { options with projectDirectory })
  | "mode" =>
      let mode := match OutputMode.read value with
        | .ok mode => Except.ok mode
        | .error _ => .error .misuse
      some ((fill options.mode mode).map fun mode => { options with mode })
  | _ => Option.none

/-- There is an option of a build with this name that takes a value. -/
def isBuildOption (name : String) : Bool :=
  ["config", "project-dir", "mode"].contains name

/-- The word after an option can be its value. Among words that may be for the tool, a word that
looks like an option without being one can. -/
def canBeValue (forTool : Bool) (text : String) : Bool :=
  match Word.ofText text with
  | .plain => true
  | .escape => false
  | .long name _ => forTool && !isBuildOption name && name ≠ "help"
  | .short letters => forTool && letters.any (· ≠ 'h')

/-- Letters before any word for the tool. -/
def refuseLetters (letters : List Char) : Refusal :=
  if letters.head? = some 'h' then .help else .misuse

/-- Read the words of a build after its subcommand. -/
def buildWords (subcommand : String) :
    BuildOptions → List String → Except Refusal (BuildOptions × String × List String)
  | options, [] => .ok (options, subcommand, [])
  | options, text :: texts =>
      match Word.ofText text with
      | .escape => .ok (options, subcommand, texts)
      | .plain => .ok (options, subcommand, text :: texts)
      | .short letters =>
          if letters.all (· = 'h') then .error .help else .ok (options, subcommand, text :: texts)
      | .long "help" none => .error .help
      | .long "help" (some _) => .error .misuse
      | .long name (some value) =>
          match options.set? name value with
          | some result => result >>= fun options => buildWords subcommand options texts
          | none => .ok (options, subcommand, text :: texts)
      | .long name none =>
          if isBuildOption name then
            match texts with
            | [] => .error .misuse
            | value :: texts =>
                if canBeValue true value then
                  match options.set? name value with
                  | some result => result >>= fun options => buildWords subcommand options texts
                  | none => .error .misuse
                else .error .misuse
          else .ok (options, subcommand, text :: texts)

/-- Read the words of a build. -/
def build : BuildOptions → List String → Except Refusal (BuildOptions × String × List String)
  | _, [] => .error .misuse
  | options, text :: texts =>
      match Word.ofText text with
      | .escape =>
          match texts with
          | [] => .error .misuse
          | subcommand :: arguments => .ok (options, subcommand, arguments)
      | .plain => buildWords text options texts
      | .short letters => .error (refuseLetters letters)
      | .long "help" none => .error .help
      | .long name (some value) =>
          match options.set? name value with
          | some result => result >>= fun options => build options texts
          | none => .error .misuse
      | .long name none =>
          match texts with
          | [] => .error .misuse
          | value :: texts =>
              if canBeValue false value then
                match options.set? name value with
                | some result => result >>= fun options => build options texts
                | none => .error .misuse
              else .error .misuse

/-- Read a line or a column. A sign is allowed, also before zero. -/
def number? (text : String) : Except Refusal UInt32 :=
  let read := match text.toList with
    | '-' :: digits => (Text.Decimal.readWord32? digits).filter (· = 0)
    | cs => Text.Decimal.readSignedWord32? cs
  match read with
  | some number => .ok number
  | none => .error .misuse

/-- The words of a question, as far as they were read. -/
inductive Spot where
  | nothing
  | file (file : Path)
  | line (file : Path) (line : UInt32)
  | whole (file : Path) (line column : UInt32)
deriving DecidableEq, Repr

/-- Take the next word of a question. -/
def Spot.push (spot : Spot) (text : String) : Except Refusal Spot :=
  match spot with
  | .nothing => (path? text).map .file
  | .file path => (number? text).map (.line path)
  | .line path row => (number? text).map (.whole path row)
  | .whole _ _ _ => .error .misuse

/-- Read the words of a question. -/
def query (question : Question) :
    Option Path → Spot → List String → Except Refusal (Option Path × Task)
  | config, .whole file line column, [] => .ok (config, .query question file line column)
  | _, _, [] => .error .misuse
  | config, spot, text :: texts =>
      match Word.ofText text with
      | .escape =>
          match texts.foldlM Spot.push spot with
          | .ok (.whole file line column) => .ok (config, .query question file line column)
          | .ok _ => .error .misuse
          | .error refusal => .error refusal
      | .plain => spot.push text >>= fun spot => query question config spot texts
      | .short letters => .error (refuseLetters letters)
      | .long "help" none => .error .help
      | .long "config" (some value) =>
          fill config (path? value) >>= fun config => query question config spot texts
      | .long "config" none =>
          match texts with
          | [] => .error .misuse
          | value :: texts =>
              if canBeValue false value then
                fill config (path? value) >>= fun config => query question config spot texts
              else .error .misuse
      | .long _ _ => .error .misuse

/-- Read the words of a question about a place. The settings that are named there count. -/
def queryTask (config : Option Path) (question : Question) (texts : List String) :
    Except Refusal Options := do
  let (own, task) ← query question none .nothing texts
  pure ⟨own.or config, task⟩

/-- What help can be asked about: everything, one task, or help itself. -/
def isTopic : List String → Bool
  | [] => true
  | [topic] => ["build", "complete", "definition", "help"].contains topic
  | _ => false

/-- Read the words of the command line after the settings that were named so far. -/
def words : Option Path → List String → Except Refusal Options
  | _, [] => .error .misuse
  | config, "build" :: texts => do
      let (options, subcommand, arguments) ← build .none texts
      pure ⟨options.config.or config,
        .build options.mode options.projectDirectory subcommand arguments⟩
  | config, "complete" :: texts => queryTask config .completeWithSnippet texts
  | config, "definition" :: texts => queryTask config .findDefinition texts
  | _, "help" :: topics => .error (if isTopic topics then .help else .misuse)
  | config, text :: texts =>
      match Word.ofText text with
      | .long "help" none => .error .help
      | .long "config" (some value) =>
          fill config (path? value) >>= fun config => words config texts
      | .long "config" none =>
          match texts with
          | [] => .error .misuse
          | value :: texts =>
              if canBeValue false value then
                fill config (path? value) >>= fun config => words config texts
              else .error .misuse
      | .short letters => .error (refuseLetters letters)
      | _ => .error .misuse

/-- Read the words of the command line. -/
def parse (texts : List String) : Except Refusal Options :=
  words none texts

example : parse ["build", "test", "--", "-q"] =
    .ok ⟨none, .build none none "test" ["-q"]⟩ := by rfl
example : parse ["build", "--mode"] = .error .misuse := by rfl

end Options

end Toolbench
