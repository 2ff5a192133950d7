import Toolbench.Build.Invocation
import Toolbench.Proofs.Path.Joining

/-!
# Where the build tool finds its manifest

A build with a project directory runs the tool in that directory and names the manifest to it. The
name is the project directory with the manifest's file name, and the tool reads it in the directory
that it runs in. Both are the project directory, so a relative one is followed twice:
`manifest_found_iff` says for which project directories the tool still finds the manifest.
-/

namespace Toolbench.Build

variable {settings : BuildSettings} {invocation : Invocation} {base project manifest : Path}

/-- The manifest of the project in a directory. -/
def manifestIn (directory : Path) : Path :=
  directory.join ⟨"Cargo.toml"⟩

/-- The manifests of two directories are the same exactly when the directories are. -/
theorem manifestIn_eq_iff {one two : Path} :
    (manifestIn one).normalize = (manifestIn two).normalize ↔ one.stack = two.stack := by
  have hstack : ∀ directory : Path,
      (manifestIn directory).stack = .name "Cargo.toml" :: directory.stack := by
    intro directory
    rw [manifestIn, Path.stack_join directory (by decide),
      show Path.steps ⟨"Cargo.toml"⟩ = [.name "Cargo.toml"] by decide]
    exact Path.resolveOnto_name _ _
  rw [Path.normalize_eq_iff, hstack, hstack, List.cons.injEq, and_iff_right rfl]

/-- A manifest that is named lies in the project directory. -/
theorem eq_manifestIn (h : manifestOverride? (some project) invocation.directory = some manifest) :
    manifest = manifestIn project.normalize := by
  simp only [manifestOverride?, Option.bind_eq_bind, Option.bind_some] at h
  split at h
  · exact nomatch h
  · exact (Option.some.inj h).symm

/-- Seen from any directory, a named manifest is the one of the project directory seen from
there. -/
theorem normalize_join_manifest (directory : Path)
    (h : manifestOverride? (some project) invocation.directory = some manifest) :
    (directory.join manifest).normalize = (manifestIn (directory.join project)).normalize := by
  have hdirectory : (directory.join project.normalize).stack = (directory.join project).stack :=
    Path.normalize_eq_iff.1 (Path.normalize_join_normalize directory project)
  calc
    (directory.join manifest).normalize
      = (directory.join (manifestIn project.normalize)).normalize := by rw [eq_manifestIn h]
    _ = (manifestIn (directory.join project.normalize)).normalize :=
          Path.normalize_eq_iff.2 (Path.stack_join_assoc _ _ _)
    _ = (manifestIn (directory.join project)).normalize := manifestIn_eq_iff.2 hdirectory

/-- The arguments of a command name the manifest right after the subcommand. -/
theorem commandFor_arguments (env : String → Option String)
    (h : manifestOverride? settings.projectDirectory invocation.directory = some manifest) :
    ∃ rest, (commandFor settings env invocation).arguments
      = invocation.subcommand :: "--manifest-path" :: manifest.text :: rest := by
  simp only [commandFor, arguments, h]
  exact ⟨_, rfl⟩

/-- A command that names a manifest runs in the project directory, and from there the tool follows
the project directory once more to the manifest. That is the manifest of the project exactly when
the project directory is absolute, leads down as often as up, or leads up to the root and down less
often. -/
theorem manifest_found_iff (env : String → Option String) (hbase : base.isAbsolute = true)
    (hproject : settings.projectDirectory = some project)
    (hmanifest : manifestOverride? settings.projectDirectory invocation.directory = some manifest) :
    let command := commandFor settings env invocation
    let directory := base.join project
    let found := (directory.join manifest).normalize
    command.directory = some project ∧
      (∃ rest, command.arguments
        = invocation.subcommand :: "--manifest-path" :: manifest.text :: rest) ∧
      found = (manifestIn (directory.join project)).normalize ∧
      (found = (manifestIn directory).normalize ↔
        project.isAbsolute = true ∨ project.downs = project.ups ∨
          project.downs < project.ups ∧ base.downs ≤ project.ups) := by
  intro command directory found
  have hfound : found = (manifestIn (directory.join project)).normalize :=
    normalize_join_manifest directory (hproject ▸ hmanifest)
  have hdirectory : command.directory = some project := by
    show some (settings.projectDirectory.getD invocation.directory) = some project
    rw [hproject, Option.getD_some]
  refine ⟨hdirectory, commandFor_arguments env hmanifest, hfound, ?_⟩
  rw [hfound, manifestIn_eq_iff]
  cases habsolute : project.isAbsolute with
  | true =>
      have hsame : directory.join project = directory :=
        (Path.join_of_isAbsolute _ habsolute).trans (Path.join_of_isAbsolute _ habsolute).symm
      simp [hsame]
  | false =>
      rw [Path.stack_join_join_iff hbase habsolute]
      simp

/-- A project beside the directory that a build is asked for in is found. -/
theorem manifest_found_beside :
    let directory := (Path.mk "/work/app").join ⟨"../lib"⟩
    (directory.join ⟨"../lib/Cargo.toml"⟩).normalize = (manifestIn directory).normalize := by
  intro directory
  let settings := { BuildSettings.standard with projectDirectory := some ⟨"../lib"⟩ }
  have hfound := @manifest_found_iff settings ⟨"check", [], ⟨"/work/app"⟩⟩ ⟨"/work/app"⟩
    ⟨"../lib"⟩ ⟨"../lib/Cargo.toml"⟩ (fun _ => none) (by decide) rfl (by decide)
  exact hfound.2.2.2.2 (.inr (.inl (by decide)))

/-- A project directory below the one that a build is asked for in: the tool looks for
`/usr/lib/lib/Cargo.toml`. -/
theorem manifest_missed :
    ¬ ∀ (settings : BuildSettings) (invocation : Invocation) (base project manifest : Path),
      base.isAbsolute = true → settings.projectDirectory = some project →
      manifestOverride? settings.projectDirectory invocation.directory = some manifest →
      ((base.join project).join manifest).normalize
        = (manifestIn (base.join project)).normalize := by
  intro h
  have hsame := h { BuildSettings.standard with projectDirectory := some ⟨"lib"⟩ }
    ⟨"check", [], ⟨"/usr"⟩⟩ ⟨"/usr"⟩ ⟨"lib"⟩ ⟨"lib/Cargo.toml"⟩ (by decide) rfl (by decide)
  exact absurd hsame (by decide)

end Toolbench.Build
