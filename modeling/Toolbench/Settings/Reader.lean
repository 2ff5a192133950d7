import Toolbench.Settings.Basic
import Toolbench.Toml.Reader

/-!
# Reading settings

Settings are read from a TOML document with the tables `build` and `daemon`. Missing keys take
their defaults, and a value of the wrong kind makes the document unusable. Keys that are not named
here are ignored, though the numbers under them must have values. A table of settings may also be
written as the array of its values in a fixed order; then the values that have no default must be
there, and what follows the last value is not looked at.
-/

namespace Toolbench

namespace Toml

/-- A table of settings, looked up by key: the values of a table, or those of an array under the
keys in order. In an array, the first `required` keys must have values. In a table, the numbers
under other keys must have values. -/
def settings? (keys : List String) (required : Nat) : Toml → Option (List (String × Toml))
  | .array items => if required ≤ items.length then some (keys.zip items) else none
  | value => do
      let entries ← value.entries?
      if entries.all fun (key, value) => keys.contains key || value.hasValue then some entries
      else none

/-- The value of a setting, or its default. -/
def settingOr {α : Type} (standard : α) (read : Toml → Option α) (key : String)
    (entries : List (String × Toml)) : Option α :=
  match entries.lookup key with
  | none => some standard
  | some value => read value

/-- A table of strings, sorted by key. -/
def environment? (value : Toml) : Option (List (String × String)) := do
  let entries ← value.entries?
  let named ← entries.mapM fun (name, value) => value.text?.map (name, ·)
  pure (named.mergeSort fun v w => (compare v.1 w.1).isLE)

/-- An array of strings. -/
def texts? (value : Toml) : Option (List String) := do
  (← value.items?).mapM Toml.text?

/-- A path. -/
def path? (value : Toml) : Option (Option Path) :=
  value.text?.map fun text => some ⟨text⟩

end Toml

/-- Read the settings of builds. -/
def BuildSettings.read? (value : Toml) : Option BuildSettings := do
  let standard := BuildSettings.standard
  let entries ← value.settings?
    ["tool", "project_dir", "output_mode", "on_busy", "env", "interrupt_grace_ms"] 2
  pure {
    tool := ← Toml.settingOr standard.tool Toml.text? "tool" entries
    projectDirectory := ← Toml.settingOr none Toml.path? "project_dir" entries
    outputMode := ← Toml.settingOr standard.outputMode
      (fun value => value.name?.bind OutputMode.ofName?) "output_mode" entries
    onBusy := ← Toml.settingOr standard.onBusy
      (fun value => value.name?.bind BusyPolicy.ofName?) "on_busy" entries
    env := ← Toml.settingOr [] Toml.environment? "env" entries
    interruptGrace := ← Toml.settingOr standard.interruptGrace Toml.natural?
      "interrupt_grace_ms" entries }

/-- Read the settings of the daemon. -/
def DaemonSettings.read? (value : Toml) : Option DaemonSettings := do
  let standard := DaemonSettings.standard
  let entries ← value.settings?
    ["program", "args", "cwd", "env", "restart_delay_ms", "stop_grace_ms"] 3
  pure {
    program := ← Toml.settingOr standard.program Toml.text? "program" entries
    arguments := ← Toml.settingOr standard.arguments Toml.texts? "args" entries
    directory := ← Toml.settingOr none Toml.path? "cwd" entries
    env := ← Toml.settingOr [] Toml.environment? "env" entries
    restartDelay := ← Toml.settingOr standard.restartDelay Toml.natural? "restart_delay_ms" entries
    stopGrace := ← Toml.settingOr standard.stopGrace Toml.natural? "stop_grace_ms" entries }

/-- Read settings from the text of a document. -/
def Settings.read? (text : String) : Option Settings := do
  let document := Toml.table (← Toml.document? text.toList)
  let entries ← document.settings? ["build", "daemon"] 0
  pure {
    build := ← Toml.settingOr .standard BuildSettings.read? "build" entries
    daemon := ← Toml.settingOr .standard DaemonSettings.read? "daemon" entries }

end Toolbench
