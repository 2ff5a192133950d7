import Toolbench.Diagnostic.Basic

/-!
# Diagnostics in reading order

A tool reports diagnostics in the order of its own work. For reading, files with errors come
first, then the others, each group by path; within a file diagnostics stand by start position,
and those that start at one position in the order in which they arrived.
-/

namespace Toolbench

/-- How many diagnostics there are of each severity. -/
structure SeverityCounts where
  errors : Nat
  warnings : Nat
  infos : Nat
  hints : Nat
deriving DecidableEq, Repr

namespace SeverityCounts

/-- The counts of a list of diagnostics. -/
def ofList (ds : List Diagnostic) : SeverityCounts :=
  let count (severity : Severity) := ds.countP (·.severity == severity)
  ⟨count .error, count .warning, count .info, count .hint⟩

/-- The number of diagnostics of any severity. -/
def total (counts : SeverityCounts) : Nat :=
  counts.errors + counts.warnings + counts.infos + counts.hints

/-- A short text with the counts that matter most. -/
def display (counts : SeverityCounts) : String :=
  "E:" ++ String.ofList (Text.Decimal.write counts.errors) ++ " W:"
    ++ String.ofList (Text.Decimal.write counts.warnings)

end SeverityCounts

/-- Files with their diagnostics, all in reading order. -/
structure Snapshot where
  files : List (Path × List Diagnostic)
deriving DecidableEq, Repr

namespace Snapshot

/-- The first diagnostic starts no later than the second. -/
def startsBefore (d e : Diagnostic) : Bool :=
  d.range.startLine < e.range.startLine ||
    (d.range.startLine == e.range.startLine && d.range.startColumn ≤ e.range.startColumn)

/-- Some diagnostic is an error. -/
def hasErrors (ds : List Diagnostic) : Bool :=
  ds.any (·.severity == .error)

/-- The first file is read no later than the second. -/
def readBefore (f g : Path × List Diagnostic) : Bool :=
  match hasErrors f.2, hasErrors g.2 with
  | true, false => true
  | false, true => false
  | _, _ => (f.1.order g.1).isLE

/-- Put files and their diagnostics into reading order. Files without diagnostics are left
out. -/
def ofFiles (files : List (Path × List Diagnostic)) : Snapshot :=
  let sorted := (files.filter (!·.2.isEmpty)).map fun (path, ds) =>
    (path, ds.mergeSort startsBefore)
  ⟨sorted.mergeSort readBefore⟩

/-- All diagnostics in reading order. -/
def diagnostics (snapshot : Snapshot) : List Diagnostic :=
  snapshot.files.flatMap (·.2)

/-- The diagnostics of one file in reading order. -/
def forFile (snapshot : Snapshot) (path : Path) : List Diagnostic :=
  ((snapshot.files.find? (·.1.same path)).map (·.2)).getD []

/-- The error to look at first. -/
def firstError? (snapshot : Snapshot) : Option Diagnostic :=
  snapshot.diagnostics.find? (·.severity == .error)

/-- How many diagnostics there are of each severity. -/
def counts (snapshot : Snapshot) : SeverityCounts :=
  SeverityCounts.ofList snapshot.diagnostics

/-- There is nothing to report. -/
def isEmpty (snapshot : Snapshot) : Bool :=
  snapshot.files.isEmpty

/-- The counts that matter most, or nothing when there is nothing to report. -/
def status (snapshot : Snapshot) : String :=
  if snapshot.isEmpty then "" else snapshot.counts.display

end Snapshot

end Toolbench
