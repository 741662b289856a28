import TestRig.Proofs.Layout.Paths
import TestRig.Proofs.Path.Components

/-! # When two layouts are the same

    Layouts compare by components. The root of a layout contributes its own
    components to all five paths, and each file name contributes at most one
    to the path of its archive, so a layout determines the components of its
    root and what the file names add, and is determined by them
    (`same_resolve_iff`). -/

namespace TestRig.Layout

open TestRig.Path (added plain)

/-! ## Section 1: The components of a layout -/

section components

variable (root : Path) (artifacts : Artifacts)

theorem components_installDir :
    (resolve root artifacts).installDir.components = root.components ++ added installName :=
  Path.components_join slash_not_mem_installName (.inr (by decide +kernel))

theorem components_configFile :
    (resolve root artifacts).configFile.components = root.components ++ added configName :=
  Path.components_join slash_not_mem_configName (.inr (by decide +kernel))

theorem installDir_ne_nil : (resolve root artifacts).installDir ≠ [] :=
  Path.join_ne_nil slash_not_mem_installName (by decide +kernel)

theorem pluginsDir_ne_nil : (resolve root artifacts).pluginsDir ≠ [] :=
  Path.join_ne_nil slash_not_mem_pluginsName (by decide +kernel)

theorem components_pluginsDir :
    (resolve root artifacts).pluginsDir.components
      = (resolve root artifacts).installDir.components ++ added pluginsName :=
  Path.components_join slash_not_mem_pluginsName (.inl (installDir_ne_nil root artifacts))

theorem components_runnerJar :
    (resolve root artifacts).runnerJar.components
      = (resolve root artifacts).installDir.components ++ added (fileName artifacts.runner) :=
  Path.components_join (slash_not_mem_fileName artifacts.runner)
    (.inl (installDir_ne_nil root artifacts))

theorem components_coverageJar :
    (resolve root artifacts).coverageJar.components
      = (resolve root artifacts).pluginsDir.components ++ added (fileName artifacts.coverage) :=
  Path.components_join (slash_not_mem_fileName artifacts.coverage)
    (.inl (pluginsDir_ne_nil root artifacts))

end components

/-! ## Section 2: Sameness -/

theorem same_iff {l m : Layout} :
    l.Same m ↔ l.installDir.components = m.installDir.components ∧
      l.pluginsDir.components = m.pluginsDir.components ∧
      l.runnerJar.components = m.runnerJar.components ∧
      l.coverageJar.components = m.coverageJar.components ∧
      l.configFile.components = m.configFile.components := by
  simp [Same, components]

/-- The layouts of two projects are the same exactly when the components of
    their roots are, and both file names of the one add what those of the
    other add. -/
theorem same_resolve_iff (r s : Path) (a b : Artifacts) :
    (resolve r a).Same (resolve s b) ↔
      r.components = s.components ∧
        plain (fileName a.runner) = plain (fileName b.runner) ∧
        plain (fileName a.coverage) = plain (fileName b.coverage) := by
  rw [same_iff, ← Path.added_eq_iff, ← Path.added_eq_iff]
  constructor
  · intro h
    obtain ⟨hinstall, hplugins, hrunner, hcoverage, -⟩ := h
    have hroot : r.components = s.components := by
      rw [components_installDir, components_installDir] at hinstall
      exact List.append_cancel_right hinstall
    rw [components_runnerJar, components_runnerJar, hinstall] at hrunner
    rw [components_coverageJar, components_coverageJar, hplugins] at hcoverage
    exact ⟨hroot, List.append_cancel_left hrunner, List.append_cancel_left hcoverage⟩
  · intro h
    obtain ⟨hroot, hrunner, hcoverage⟩ := h
    have hinstall : (resolve r a).installDir.components = (resolve s b).installDir.components := by
      rw [components_installDir, components_installDir, hroot]
    have hplugins : (resolve r a).pluginsDir.components = (resolve s b).pluginsDir.components := by
      rw [components_pluginsDir, components_pluginsDir, hinstall]
    refine ⟨hinstall, hplugins, ?runner, ?coverage, ?config⟩
    case runner =>
      rw [components_runnerJar, components_runnerJar, hinstall, hrunner]
    case coverage =>
      rw [components_coverageJar, components_coverageJar, hplugins, hcoverage]
    case config =>
      rw [components_configFile, components_configFile, hroot]

end TestRig.Layout
