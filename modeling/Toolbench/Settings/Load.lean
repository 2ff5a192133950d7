import Toolbench.Settings.Reader
import Toolbench.System
import Toolbench.Text.Utf8

/-!
# Loading settings from a file

Settings lie in a file of the home directory, or in a file that is named. A missing file in the
home directory means that nothing is set; a missing file that was named is an error.
-/

namespace Toolbench

/-- What stands at a path. -/
inductive FileContent where
  /-- Nothing, for this reason. -/
  | absent (cause : SystemError)
  | directory
  | bytes (content : List UInt8)
deriving DecidableEq, Repr

namespace FileContent

/-- The text of a file. -/
def text : FileContent → Except SystemError String
  | .absent cause => .error cause
  | .directory => .error .isADirectory
  | .bytes content =>
      match Text.Utf8.decodeExact? content with
      | some cs => .ok (String.ofList cs)
      | none => .error .notText

end FileContent

namespace Settings

/-- Why settings could not be loaded. -/
inductive LoadError where
  | read (path : Path) (cause : SystemError)
  | parse (path : Path)
deriving DecidableEq, Repr

namespace LoadError

/-- The file that could not be loaded. -/
def path : LoadError → Path
  | .read path _ => path
  | .parse path => path

/-- What is said about the cause of an error. Of a document that cannot be used, the faults would
follow. -/
def causeMessage : LoadError → String
  | .read _ cause => cause.message
  | .parse _ => "TOML parse error"

/-- What is said about an error. -/
def message (error : LoadError) : String :=
  let deed := match error with
    | .read _ _ => "read"
    | .parse _ => "parse"
  "failed to " ++ deed ++ " config at " ++ error.path.text ++ ": " ++ error.causeMessage

end LoadError

/-- Where the settings lie in a home directory. -/
def pathIn (home : Path) : Path :=
  home.join ⟨".anvil/config.toml"⟩

/-- Load settings from a file that is named. -/
def loadFrom (path : Path) (content : FileContent) : Except LoadError Settings :=
  match content.text with
  | .error cause => .error (.read path cause)
  | .ok text =>
      match read? text with
      | some settings => .ok settings
      | none => .error (.parse path)

/-- Load settings from the file of a home directory, if it is there. -/
def load (home : Path) (content : FileContent) : Except LoadError (Option Settings) :=
  match content with
  | .absent _ => .ok none
  | content => (loadFrom (pathIn home) content).map some

end Settings

end Toolbench
