import TestRig.Job
import TestRig.Proofs.Layout.Sameness

/-! # Which paths of a layout fall together

    The file names of a layout come from URLs, so nothing keeps them from
    being empty, or `.`, or the name of the plugin directory. An archive then
    gets a path that another part of the layout has as well. This module
    says for which names that happens, and to which paths.

    All five paths start with the components of the root, so the root has no
    say in it, and it is enough to compare what each path has behind the root
    (`Part.below`). The list of all cases is `Collide`, and
    `paths_collide_iff` says that it is complete. The configuration is not in
    the list: its name is not that of the directory which all the other paths
    lead through. -/

namespace TestRig

/-! ## Section 1: Names behind a path -/

namespace Path

/-- A file name that leaves a path as it is, as far as comparing goes. -/
def AddsNothing (name : Bytes) : Prop := name = [] ∨ name = dot

instance (name : Bytes) : Decidable (AddsNothing name) := inferInstanceAs (Decidable (_ ∨ _))

theorem plain_of_not_addsNothing {name : Bytes} (h : ¬ AddsNothing name) : plain name = [name] :=
  if_neg h

theorem added_eq_nil_iff {name : Bytes} : added name = [] ↔ AddsNothing name := by
  unfold added plain AddsNothing
  by_cases h : name = [] ∨ name = dot
  · simp [h]
  · simp [h]

/-- An ordinary name is added by itself only, and with nothing behind it. -/
theorem added_eq_cons_iff {name n : Bytes} {rest : List Component} (hplain : ¬ AddsNothing n)
    (hparent : n ≠ dotDot) : added name = .name n :: rest ↔ name = n ∧ rest = [] := by
  by_cases h : AddsNothing name
  · have hne : name ≠ n := fun e => hplain (e ▸ h)
    rw [added_eq_nil_iff.mpr h]
    simp [hne]
  · have hname : Component.ofPlain name = .name n ↔ name = n := by
      unfold Component.ofPlain
      split
      · next hdots =>
        have hne : name ≠ n := fun e => hparent (e ▸ hdots)
        simp [hne]
      · simp
    rw [added, plain_of_not_addsNothing h, List.map_singleton, List.cons.injEq, hname,
      eq_comm (a := [])]

end Path

/-- The path that a step makes, or that it writes to. -/
def Step.target? : Step → Option Path
  | .makeDirectory path => some path
  | .request _ => none
  | .create dest => some dest
  | .write _ dest => some dest
  | .announce _ => none

namespace Layout

open TestRig.Path (Component added AddsNothing)

/-! ## Section 2: The parts of a layout -/

/-- What the five paths of a layout are for. -/
inductive Part where
  | installDir
  | pluginsDir
  | runnerJar
  | coverageJar
  | configFile
  deriving DecidableEq

/-- The path of a part. -/
def path (l : Layout) : Part → Path
  | .installDir => l.installDir
  | .pluginsDir => l.pluginsDir
  | .runnerJar => l.runnerJar
  | .coverageJar => l.coverageJar
  | .configFile => l.configFile

/-- The components of a part behind those of the root, where the archives
    have the file names `runner` and `coverage`. -/
def Part.below (runner coverage : Bytes) : Part → List Component
  | .installDir => [.name installName]
  | .pluginsDir => [.name installName, .name pluginsName]
  | .runnerJar => .name installName :: added runner
  | .coverageJar => .name installName :: .name pluginsName :: added coverage
  | .configFile => [.name configName]

theorem components_path (root : Path) (artifacts : Artifacts) (p : Part) :
    ((resolve root artifacts).path p).components
      = root.components ++ p.below (fileName artifacts.runner) (fileName artifacts.coverage) := by
  have hinstall : added installName = [.name installName] := by decide +kernel
  have hplugins : added pluginsName = [.name pluginsName] := by decide +kernel
  have hconfig : added configName = [.name configName] := by decide +kernel
  cases p with
  | installDir =>
    show (resolve root artifacts).installDir.components = _
    rw [components_installDir, hinstall]
    rfl
  | pluginsDir =>
    show (resolve root artifacts).pluginsDir.components = _
    rw [components_pluginsDir, components_installDir, hinstall, hplugins, List.append_assoc]
    rfl
  | runnerJar =>
    show (resolve root artifacts).runnerJar.components = _
    rw [components_runnerJar, components_installDir, hinstall, List.append_assoc]
    rfl
  | coverageJar =>
    show (resolve root artifacts).coverageJar.components = _
    rw [components_coverageJar, components_pluginsDir, components_installDir, hinstall, hplugins,
      List.append_assoc, List.append_assoc]
    rfl
  | configFile =>
    show (resolve root artifacts).configFile.components = _
    rw [components_configFile, hconfig]
    rfl

/-! ## Section 3: Collisions -/

/-- When two parts have the same path. The archive of the runner can fall
    together with either directory, that of the plugin with its own directory
    only, and the archives with each other only if both do. -/
def Collide (runner coverage : Bytes) : Part → Part → Prop
  | .runnerJar, .installDir => AddsNothing runner
  | .installDir, .runnerJar => AddsNothing runner
  | .runnerJar, .pluginsDir => runner = pluginsName
  | .pluginsDir, .runnerJar => runner = pluginsName
  | .coverageJar, .pluginsDir => AddsNothing coverage
  | .pluginsDir, .coverageJar => AddsNothing coverage
  | .runnerJar, .coverageJar => runner = pluginsName ∧ AddsNothing coverage
  | .coverageJar, .runnerJar => runner = pluginsName ∧ AddsNothing coverage
  -- no other two are ever the same
  | p, q => p = q

section collide

variable {runner coverage : Bytes} {p q : Part}

/-- The name of the plugin directory is an ordinary one. -/
theorem added_eq_pluginsName_iff {name : Bytes} {rest : List Component} :
    added name = .name pluginsName :: rest ↔ name = pluginsName ∧ rest = [] :=
  Path.added_eq_cons_iff (by decide +kernel) (by decide +kernel)

/-- Behind the root all is fixed but the names of the archives, so parts are
    the same where these names add nothing, or lead into the plugin
    directory. -/
theorem below_eq_iff : p.below runner coverage = q.below runner coverage ↔
    Collide runner coverage p q := by
  have hconfig : installName ≠ configName := by decide +kernel
  cases p <;> cases q <;>
    simp [Part.below, Collide, added_eq_pluginsName_iff, Path.added_eq_nil_iff, hconfig,
      hconfig.symm, eq_comm (b := added _)]

end collide

/-- Both archives are stored as the directory of the plugins. -/
example : Collide (text "plugins") [] .runnerJar .coverageJar := ⟨rfl, .inl rfl⟩

/-! ## Section 4: What an installation writes -/

section installation

variable {l : Layout} {artifacts : Artifacts}

/-- An installation makes or writes parts of its layout, and leaves the
    configuration alone. -/
theorem part_of_target {step : Step} {target : Path}
    (h : step ∈ (Job.installation l artifacts).pending) (htarget : step.target? = some target) :
    ∃ p : Part, p ≠ .configFile ∧ target = l.path p := by
  have hsteps : (Job.installation l artifacts).pending =
      [.makeDirectory l.installDir, .makeDirectory l.pluginsDir,
        .request artifacts.runner, .create l.runnerJar, .write artifacts.runner l.runnerJar,
        .request artifacts.coverage, .create l.coverageJar, .write artifacts.coverage l.coverageJar,
        .announce l.installDir] := rfl
  rw [hsteps] at h
  simp only [List.mem_cons, List.not_mem_nil, or_false] at h
  rcases h with rfl | rfl | rfl | rfl | rfl | rfl | rfl | rfl | rfl <;> cases htarget
  · exact ⟨.installDir, nofun, rfl⟩
  · exact ⟨.pluginsDir, nofun, rfl⟩
  · exact ⟨.runnerJar, nofun, rfl⟩
  · exact ⟨.runnerJar, nofun, rfl⟩
  · exact ⟨.coverageJar, nofun, rfl⟩
  · exact ⟨.coverageJar, nofun, rfl⟩

end installation

/-- Two paths of a layout are the same exactly in the cases of the list,
    whatever the root and the URLs are, and nothing that an installation
    makes or writes is the configuration. -/
theorem paths_collide_iff (root : Path) (artifacts : Artifacts) :
    let l := resolve root artifacts
    (∀ p q : Part, (l.path p).components = (l.path q).components ↔
      Collide (fileName artifacts.runner) (fileName artifacts.coverage) p q) ∧
    ∀ step ∈ (Job.installation l artifacts).pending, ∀ target, step.target? = some target →
      target.components ≠ l.configFile.components := by
  intro l
  have hpaths : ∀ p q : Part, (l.path p).components = (l.path q).components ↔
      Collide (fileName artifacts.runner) (fileName artifacts.coverage) p q := by
    intro p q
    rw [components_path, components_path, List.append_cancel_left_eq]
    exact below_eq_iff
  refine ⟨hpaths, ?_⟩
  intro step hstep target htarget hsame
  obtain ⟨p, hp, rfl⟩ := part_of_target hstep htarget
  -- the configuration collides with nothing but itself
  have hcollide := (hpaths p .configFile).mp hsame
  cases p with
  | configFile => exact hp rfl
  | _ => cases hcollide

end Layout

end TestRig
