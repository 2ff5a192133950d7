import Toolbench.Environment
import Toolbench.Job.Command
import Toolbench.Settings.Load
import Toolbench.System

/-!
# The machine of a rehearsal

Rehearsals run commands on a small imagined machine: an environment, a few directories and a few
files, some of which are programs. `Site.start` says whether a command can be started there, in
the order in which a system finds out: texts that no system takes, then the working directory,
then the program, then what is too long for it. A program that is given by its name alone is
looked for in the directories that the variable `PATH` of its own environment lists.
-/

namespace Toolbench.Rehearsal

/-- The names on the way from the root to a directory or a file. -/
abbrev Place := List String

/-- Where commands are started. -/
structure Host where
  /-- The variables that are there already. -/
  environment : Environment
  /-- In which directory a command then runs, or why it cannot be started. -/
  start : Command → Except SystemError Place

/-- The environment in which a command runs. -/
def Host.environmentOf (host : Host) (command : Command) : Environment :=
  host.environment.extend command.env

/-- What a program prints of a variable, when it runs a command. -/
def Host.variableText (host : Host) (command : Command) (name : String) : String :=
  name ++ "=" ++ ((host.environmentOf command).value? name).getD "(unset)" ++ "\n"

/-- A file. -/
structure File where
  content : List UInt8
  /-- It is a program that can be run. -/
  runnable : Bool
deriving DecidableEq, Repr

/-- What stands at a path. -/
inductive Entity where
  | directory (place : Place)
  | file (file : File)
deriving DecidableEq, Repr

/-- An imagined machine. -/
structure Site where
  environment : Environment
  directories : List Place
  files : List (Place × File)
  /-- The directory in which commands are started. -/
  base : Place
deriving DecidableEq, Repr

/-- The path of a directory. -/
def Place.text (place : Place) : String :=
  "/" ++ "/".intercalate place

namespace File

/-- A file that is no program. -/
def plain (content : List UInt8) : File :=
  ⟨content, false⟩

/-- A program, which is a script, and can be run or not. -/
def program (runnable : Bool) : File :=
  ⟨"#!/bin/sh\nexit 0\n".toUTF8.toList, runnable⟩

end File

namespace Site

/-- A machine with the usual directories and files, seen from the root. Programs lie in a
directory of their own, `programs`, and are found there. -/
def usual (programs : Place) (runnable notRunnable : List String) : Site where
  environment := [("PATH", programs.text)]
  directories :=
    [[], ["usr"], ["usr", "bin"], ["usr", "lib"], ["tmp"], ["etc"], ["dev"], programs]
  files :=
    runnable.map (fun name => (programs ++ [name], .program true))
      ++ notRunnable.map (fun name => (programs ++ [name], .program false))
      ++ [(["etc", "passwd"], .plain "root:x:0:0:root:/root:/bin/sh\n".toUTF8.toList),
        (["dev", "null"], .plain [])]
  base := []

/-- The longest name in a directory, in bytes. -/
def nameLimit : Nat :=
  255

/-- The longest path, in bytes. -/
def pathLimit : Nat :=
  4095

/-- Follow names from what has been found so far. An empty name or a dot stays in place. -/
def walk (site : Site) : Entity → List String → Except SystemError Entity
  | found, [] => .ok found
  | .file _, _ :: _ => .error .notADirectory
  | .directory place, name :: names =>
      if name = "" ∨ name = "." then site.walk (.directory place) names
      else if name = ".." then site.walk (.directory place.dropLast) names
      else if nameLimit < name.utf8ByteSize then .error .nameTooLong
      else
        let place := place ++ [name]
        if site.directories.contains place then site.walk (.directory place) names
        else
          match site.files.lookup place with
          | some file => site.walk (.file file) names
          | none => .error .notFound

/-- What stands at a path as seen from a directory. -/
def find (site : Site) (directory : Place) (path : Path) : Except SystemError Entity :=
  if path.text = "" then .error .notFound
  else if pathLimit < path.text.utf8ByteSize then .error .nameTooLong
  else site.walk (.directory (if path.isAbsolute then [] else directory)) path.pieces

/-- The content of the file at a path. -/
def content (site : Site) (path : Path) : FileContent :=
  match site.find site.base path with
  | .ok (.directory _) => .directory
  | .ok (.file file) => .bytes file.content
  | .error cause => .absent cause

/-- The directory at a path. -/
def enter (site : Site) (path : Path) : Except SystemError Place :=
  match site.find site.base path with
  | .ok (.directory place) => .ok place
  | .ok (.file _) => .error .notADirectory
  | .error cause => .error cause

/-- A text that no system takes. -/
def holdsNul (text : String) : Bool :=
  text.toList.contains '\x00'

/-- Whether what stands at a path can be run from a directory. -/
def runFile (site : Site) (directory : Place) (path : Path) : Except SystemError Unit :=
  match site.find directory path with
  | .ok (.file file) => if file.runnable then .ok () else .error .permissionDenied
  | .ok (.directory _) => .error .permissionDenied
  | .error cause => .error cause

/-- Look for a program in directories, in turn, and return why it was not found. A directory that
is not there, or holds no such program, or one that cannot be run, is passed over; that something
cannot be run is remembered as the reason. -/
def search (site : Site) (directory : Place) (program : String) :
    SystemError → List String → Except SystemError Unit
  | reason, [] => .error reason
  | reason, listed :: others =>
      match site.runFile directory ((Path.mk listed).join ⟨program⟩) with
      | .ok () => .ok ()
      | .error cause =>
          if cause = .notFound ∨ cause = .notADirectory ∨ cause = .permissionDenied then
            site.search directory program
              (if reason = .permissionDenied then reason else cause) others
          else .error cause

/-- The directories where programs are looked for when none are listed. -/
def standardSearch : String :=
  "/bin:/usr/bin"

/-- Whether a program can be run from a directory: as the file that it names when it is given as
a path, or in one of the directories that a text lists with colons between them. An empty text in
the list stands for the directory itself. -/
def locate (site : Site) (directory : Place) (listed program : String) :
    Except SystemError Unit :=
  if program = "" then .error .notFound
  else if program.toList.contains '/' then site.runFile directory ⟨program⟩
  else
    site.search directory program .notFound ((listed.toList.splitOn ':').map String.ofList)

/-- The longest argument and the longest entry of an environment, in bytes. -/
def argumentLimit : Nat :=
  131071

/-- An argument, or an entry of the environment, is too long. -/
def isOverlong (environment : Environment) (arguments : List String) : Bool :=
  let entries := environment.map fun (name, value) =>
    String.ofList (Environment.entry name value)
  (arguments ++ entries).any fun text => argumentLimit < text.utf8ByteSize

/-- Start a command. -/
def start (site : Site) (command : Command) : Except SystemError Place := do
  let texts := command.program :: (command.directory.map Path.text).toList ++ command.arguments
    ++ command.env.flatMap fun (name, value) => [name, value]
  if texts.any holdsNul then throw .holdsNul
  let place ← (command.directory.map site.enter).getD (.ok site.base)
  let environment := site.environment.extend command.env
  site.locate place ((environment.value? "PATH").getD standardSearch) command.program
  if isOverlong environment command.arguments then throw .argumentsTooLong
  pure place

/-- The machine as a place where commands are started. -/
def host (site : Site) : Host :=
  ⟨site.environment, site.start⟩

end Site

end Toolbench.Rehearsal
