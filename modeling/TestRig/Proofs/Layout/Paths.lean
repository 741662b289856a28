import TestRig.Proofs.Path.Join

/-! # The paths of a layout, byte for byte

    `Layout.resolve` joins its paths one name at a time. No name that it
    joins holds a separator, so each of the five paths is the root, seen as
    a directory, followed by fixed text and at most one file name.

    The equations are then read from right to left: the configuration tells
    the root, since its name is fixed, and with the root known the archive
    of the runner tells its own name (`paths_eq_iff`). -/

namespace TestRig

/-- A name after another name comes after one separator. -/
theorem Path.join_join {base m n : Bytes} (hm : slash ∉ m) (hne : m ≠ []) (hn : slash ∉ n) :
    join (join base m) n = join base m ++ slash :: n := by
  rw [join_eq hn, asDirectory_join hm hne, List.append_assoc]
  rfl

namespace Layout

theorem slash_not_mem_installName : slash ∉ installName := by decide +kernel

theorem slash_not_mem_pluginsName : slash ∉ pluginsName := by decide +kernel

theorem slash_not_mem_configName : slash ∉ configName := by decide +kernel

/-! ## Section 1: Equations -/

section equations

variable (root : Path) (artifacts : Artifacts)

theorem installDir_eq :
    (resolve root artifacts).installDir = root.asDirectory ++ installName :=
  Path.join_eq slash_not_mem_installName

theorem configFile_eq :
    (resolve root artifacts).configFile = root.asDirectory ++ configName :=
  Path.join_eq slash_not_mem_configName

/-- A name in the directory of an installation. -/
theorem join_installDir {name : Bytes} (h : slash ∉ name) :
    Path.join (resolve root artifacts).installDir name
      = root.asDirectory ++ (installName ++ slash :: name) := by
  have hne : installName ≠ [] := by decide +kernel
  show Path.join (Path.join root installName) name = _
  rw [Path.join_join slash_not_mem_installName hne h, Path.join_eq slash_not_mem_installName,
    List.append_assoc]

theorem pluginsDir_eq :
    (resolve root artifacts).pluginsDir
      = root.asDirectory ++ (installName ++ slash :: pluginsName) :=
  join_installDir root artifacts slash_not_mem_pluginsName

theorem runnerJar_eq :
    (resolve root artifacts).runnerJar
      = root.asDirectory ++ (installName ++ slash :: fileName artifacts.runner) :=
  join_installDir root artifacts (slash_not_mem_fileName artifacts.runner)

/-- The other archive is one directory further down. -/
theorem coverageJar_eq :
    (resolve root artifacts).coverageJar
      = (resolve root artifacts).pluginsDir ++ slash :: fileName artifacts.coverage := by
  have hne : pluginsName ≠ [] := by decide +kernel
  exact Path.join_join slash_not_mem_pluginsName hne (slash_not_mem_fileName artifacts.coverage)

end equations

/-! ## Section 2: What two layouts have in common -/

section common

variable {r s : Path} {a b : Artifacts}

/-- The two paths that the runner is given determine the root, up to a
    separator at its end, and the name of the archive. -/
theorem paths_eq_iff :
    (resolve r a).runnerJar = (resolve s b).runnerJar ∧
        (resolve r a).configFile = (resolve s b).configFile ↔
      r.asDirectory = s.asDirectory ∧ fileName a.runner = fileName b.runner := by
  rw [runnerJar_eq, runnerJar_eq, configFile_eq, configFile_eq]
  constructor
  · intro h
    obtain ⟨hrunner, hconfig⟩ := h
    have hroot := List.append_cancel_right hconfig
    rw [hroot] at hrunner
    have hname := List.append_cancel_left (List.append_cancel_left hrunner)
    exact ⟨hroot, (List.cons.inj hname).2⟩
  · intro h
    rw [h.1, h.2]
    exact ⟨rfl, rfl⟩

theorem directories_eq (h : r.asDirectory = s.asDirectory) :
    (resolve r a).installDir = (resolve s b).installDir ∧
      (resolve r a).pluginsDir = (resolve s b).pluginsDir := by
  rw [installDir_eq, installDir_eq, pluginsDir_eq, pluginsDir_eq, h]
  exact ⟨rfl, rfl⟩

end common

end Layout

end TestRig
