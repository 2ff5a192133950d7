import Toolbench.Toml.Value

/-!
# Tables under construction

While a document is read, each table is kept with the way in which it came to be, because that
decides how it may still grow: a header may open a table that earlier headers only passed
through, and a dotted key may add to a table that dotted keys or passing headers made, but not to
one that has a header or a value of its own. Once a dotted key has passed through a table, no
header may open it any more.
-/

namespace Toolbench.Toml

/-- How a table came to be. -/
inductive Origin where
  /-- A header names it, or it is an element of an array of tables. -/
  | header
  /-- A header passes through it. -/
  | passed
  /-- A dotted key passes through it. -/
  | dotted
deriving DecidableEq, Repr

/-- What stands under a key of a table under construction. -/
inductive Entry where
  /-- A finished value. -/
  | value (value : Toml)
  /-- A table that may still grow. -/
  | table (origin : Origin) (entries : List (String × Entry))
  /-- An array of tables, the last one first; only the last one may still grow. -/
  | tables (last : List (String × Entry)) (before : List (List (String × Entry)))
deriving Repr

/-- The entries of a table under construction. -/
abbrev Entries := List (String × Entry)

/-- Change what stands under a key, which may be nothing so far. -/
def Entries.alter? (key : String) (change : Option Entry → Option Entry) : Entries → Option Entries
  | [] => (change none).map fun entry => [(key, entry)]
  | (name, entry) :: entries =>
      if name = key then (change (some entry)).map fun entry => (name, entry) :: entries
      else (Entries.alter? key change entries).map ((name, entry) :: ·)

/-- Go from a table down a path of keys and change the table at its end. Missing tables are made
on the way. `made` is the origin of these. A dotted key may not pass through a table with a header
of its own, and every other table on its way becomes one that a dotted key passed through. -/
def Entries.within? (made : Origin) (change : Origin → Entries → Option (Origin × Entries)) :
    List String → Origin → Entries → Option (Origin × Entries)
  | [], origin, entries => change origin entries
  | key :: path, origin, entries =>
      let step : Option Entry → Option Entry
        | none => (Entries.within? made change path made []).map fun (origin, entries) =>
            .table origin entries
        | some (.value _) => none
        | some (.table origin entries) =>
            if made = .dotted ∧ origin = .header then none
            else
              let origin := if made = .dotted then made else origin
              (Entries.within? made change path origin entries).map fun (origin, entries) =>
                .table origin entries
        | some (.tables last before) =>
            (Entries.within? made change path .header last).map fun (_, last) =>
              .tables last before
      (Entries.alter? key step entries).map fun entries => (origin, entries)

/-- Put a value under a key that is still free. -/
def Entries.add? (key : String) (value : Toml) (entries : Entries) : Option Entries :=
  Entries.alter? key (fun | none => some (.value value) | some _ => none) entries

/-- Put a value under a dotted key, from the table in which the key is written. -/
def Entries.assign? (path : List String) (value : Toml) (origin : Origin) (entries : Entries) :
    Option (Origin × Entries) := do
  let key ← path.getLast?
  let place (origin : Origin) (entries : Entries) : Option (Origin × Entries) :=
    if path.length ≠ 1 ∧ origin = .header then none
    else (Entries.add? key value entries).map (origin, ·)
  Entries.within? .dotted place path.dropLast origin entries

/-- Open the table that a header names. -/
def Entries.openTable? (path : List String) (entries : Entries) : Option Entries := do
  let key ← path.getLast?
  let place (origin : Origin) (entries : Entries) : Option (Origin × Entries) :=
    (Entries.alter? key (fun
      | none => some (.table .header [])
      | some (.table .passed entries) => some (.table .header entries)
      | some _ => none) entries).map (origin, ·)
  (Entries.within? .passed place path.dropLast .header entries).map (·.2)

/-- Add a table to the array of tables that a header names. -/
def Entries.openElement? (path : List String) (entries : Entries) : Option Entries := do
  let key ← path.getLast?
  let place (origin : Origin) (entries : Entries) : Option (Origin × Entries) :=
    (Entries.alter? key (fun
      | none => some (.tables [] [])
      | some (.tables last before) => some (.tables [] (last :: before))
      | some _ => none) entries).map (origin, ·)
  (Entries.within? .passed place path.dropLast .header entries).map (·.2)

/-- Put a value under a dotted key that is written below a header. -/
def Entries.assignUnder? (header path : List String) (value : Toml) (entries : Entries) :
    Option Entries :=
  (Entries.within? .passed (Entries.assign? path value) header .header entries).map (·.2)

mutual
/-- The value of an entry that no longer grows. -/
def Entry.close : Entry → Toml
  | .value value => value
  | .table _ entries => .table (closeAll entries)
  | .tables last before => .array ((Toml.table (closeAll last) :: closeTables before).reverse)

/-- The values of entries that no longer grow. -/
def closeAll : List (String × Entry) → List (String × Toml)
  | [] => []
  | (key, entry) :: entries => (key, entry.close) :: closeAll entries

/-- The values of tables that no longer grow. -/
def closeTables : List (List (String × Entry)) → List Toml
  | [] => []
  | entries :: tables => .table (closeAll entries) :: closeTables tables
end

end Toolbench.Toml
