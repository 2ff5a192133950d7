import Toolbench.Diagnostic.Snapshot

/-!
# Collections of diagnostics

The diagnostics of a build, by file and in order of arrival. A diagnostic that repeats one of the
same file is not taken in. Every change is told to an editor, which can keep its own view from
what it is told; `EditorUpdate.apply` says how.
-/

namespace Toolbench

/-- A diagnostic as an editor shows it. -/
structure EditorDiagnostic where
  range : EditorRange
  severity : Severity
  message : String
  code : Option String
deriving DecidableEq, Repr

/-- The diagnostic as an editor shows it. -/
def Diagnostic.toEditor (d : Diagnostic) : EditorDiagnostic :=
  ⟨d.range.toEditor, d.severity, d.message, d.code⟩

/-- What an editor is told. -/
inductive EditorUpdate where
  /-- Show nothing any more. -/
  | clear
  /-- Show these diagnostics in a file, in place of those shown there. -/
  | set (path : Path) (diagnostics : List EditorDiagnostic)
deriving DecidableEq, Repr

/-- The lists of files, with the entry of one path replaced, or added behind the others. -/
def setEntry {α : Type} (path : Path) (value : α) : List (Path × α) → List (Path × α)
  | [] => [(path, value)]
  | (key, old) :: entries =>
      if key.same path then (key, value) :: entries else (key, old) :: setEntry path value entries

/-- The value at a path. -/
def entryAt? {α : Type} (path : Path) (entries : List (Path × α)) : Option α :=
  (entries.find? (·.1.same path)).map (·.2)

/-- The view of an editor after it was told of a change. -/
def EditorUpdate.apply (shown : List (Path × List EditorDiagnostic)) :
    EditorUpdate → List (Path × List EditorDiagnostic)
  | .clear => []
  | .set path diagnostics => setEntry path diagnostics shown

/-- Diagnostics by file. -/
structure Collection where
  files : List (Path × List Diagnostic)
deriving DecidableEq, Repr

namespace Collection

/-- The collection without diagnostics. -/
def empty : Collection :=
  ⟨[]⟩

/-- There are no diagnostics. -/
def isEmpty (c : Collection) : Bool :=
  c.files.isEmpty

/-- The diagnostics of a file in order of arrival. -/
def forPath (c : Collection) (path : Path) : List Diagnostic :=
  (entryAt? path c.files).getD []

/-- Take in a diagnostic whose path is as seen from `directory`. The update is missing when the
diagnostic repeats another one. -/
def publish (directory : Path) (d : Diagnostic) (c : Collection) :
    Collection × Option EditorUpdate :=
  let d := d.resolvedIn directory
  let ds := c.forPath d.path
  if ds.any (·.repeats d) then (c, none)
  else (⟨setEntry d.path (ds ++ [d]) c.files⟩,
    some (.set d.path ((ds ++ [d]).map Diagnostic.toEditor)))

/-- Take in diagnostics one after the other. There is one update for each that was new. -/
def publishAll (directory : Path) : List Diagnostic → Collection → Collection × List EditorUpdate
  | [], c => (c, [])
  | d :: ds, c =>
      let (c, update) := c.publish directory d
      let (c, updates) := c.publishAll directory ds
      (c, update.toList ++ updates)

/-- Drop all diagnostics. -/
def clear (_ : Collection) : Collection × EditorUpdate :=
  (empty, .clear)

/-- The collection in reading order. -/
def snapshot (c : Collection) : Snapshot :=
  Snapshot.ofFiles c.files

end Collection

end Toolbench
