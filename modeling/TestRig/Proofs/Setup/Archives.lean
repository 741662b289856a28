import TestRig.Proofs.Setup.Success
import TestRig.Proofs.Tree.Stability

/-! # The archives of an installation

    An installation that succeeds leaves both archives, each of them whole
    (`Installed`), and one that fails does not: it leaves fewer than four
    new entries, or a plugin that was cut short. So the tree alone tells
    whether an installation succeeded (`setup_eq_ok_iff_installed`).

    The archive of the runner is then found at its path (`Installed.look`),
    which is what the command lines of the runner name. -/

namespace TestRig

open Layout

/-- Two whole archives are in the tree `t`, at their places in the directory
    at `d`. They are new, with their directories, and nothing else is. -/
structure Installed (w : World) (root : Path) (artifacts : Artifacts) (d : Place)
    (runner coverage : Response) (t : Tree) : Prop where
  place : w.tree.Denotes w.cwd root d
  gains : w.tree.Gains t (entries d artifacts runner.body coverage.body)
  runner : w.web.Delivers artifacts.runner runner ∧ runner.complete
  coverage : w.web.Delivers artifacts.coverage coverage ∧ coverage.complete

section installed

variable {w : World} {root : Path} {artifacts : Artifacts} {d : Place} {runner coverage : Response}
  {t : Tree}

/-! ## Section 1: An installation that succeeds -/

theorem Installs.installed (h : Installs w.site (resolve root artifacts) artifacts w.tree none t) :
    ∃ d runner coverage, Installed w root artifacts d runner coverage t := by
  cases h with
  | @complete _ _ t₃ _ h₁ h₂ hrunner hcoverage =>
    obtain ⟨d, runner, hd, hserved, hwhole, hgains, hplugins⟩ := gains_wholeRunner h₁ h₂ hrunner
    rcases hcoverage.into hplugins with ⟨-, f, hf, -⟩ | ⟨coverage, hcov, hname, rfl, hf⟩
    · cases hf
    · -- a download that did not fail got the whole body
      have hcomplete : coverage.complete := by
        split at hf
        · assumption
        · cases hf
      have hfree := hplugins.free_iff.mpr hname
      have hadmits : t₃.Admits (pluginsPlace d ++ [fileName artifacts.coverage])
          (.file coverage.body false) := Tree.admits_of_free hplugins.isDirectory hfree
      have hall := (hgains coverage.body).put hadmits hfree
      exact ⟨d, runner, coverage, hd, hall, ⟨hserved, hwhole⟩, ⟨hcov, hcomplete⟩⟩

/-- The path of the runner leads to its archive. -/
theorem Installed.look (h : Installed w root artifacts d runner coverage t)
    (hneeds : Installable w root artifacts) (hlimits : WithinLimits root artifacts) :
    t.look w.cwd (resolve root artifacts).runnerJar
      = .ok (installPlace d ++ [fileName artifacts.runner], .file runner.body false) := by
  have hname := isGoodName_installName
  obtain ⟨hne, hnul, hentry⟩ := hneeds.runnerName
  obtain ⟨-, hroot, -, hleads⟩ := Tree.denotes_iff.mp h.place
  -- what the new directory and the new file are in the tree
  have hdir : t.hasDirectory (installPlace d) :=
    (h.gains.mem_iff.mp (by simp [entries])).2
  have hfile : t.nodeAt (installPlace d ++ [fileName artifacts.runner])
      = some (.file runner.body false) :=
    (h.gains.mem_iff.mp (by simp [entries])).2
  have hinstall : t.LeadsTo w.cwd (resolve root artifacts).installDir (installPlace d) :=
    (hleads.mono h.gains.grows).join hname.noSlash hname.nonempty hname.entryName hname.short hdir
  have hnone : ¬ (nul ∈ (resolve root artifacts).installDir ∨ nul ∈ fileName artifacts.runner) := by
    have hbase : nul ∈ (resolve root artifacts).installDir ↔ nul ∈ root ∨ nul ∈ installName :=
      Path.nul_mem_join hname.noSlash
    rw [hbase]
    simp [hroot, hname.noNul, hnul]
  exact Tree.look_join (slash_not_mem_fileName _) hne hentry hinstall hnone hlimits.runner hfile

/-! ## Section 2: An installation that fails -/

/-- It leaves fewer than four new entries, or a plugin that is cut short. -/
theorem Installs.gains_of_some {f : Failure}
    (h : Installs w.site (resolve root artifacts) artifacts w.tree (some f) t) :
    (∃ added, w.tree.Gains t added ∧ added.length < 4) ∨
      ∃ coverage, w.web.Delivers artifacts.coverage coverage ∧ coverage.complete = false := by
  cases h with
  | noInstallDir => exact .inl ⟨[], .refl _, by decide⟩
  | noPluginsDir h₁ =>
    obtain ⟨d, -, hgains, -⟩ := gains_installDir h₁
    exact .inl ⟨_, hgains, by simp⟩
  | noRunner h₁ h₂ hrunner =>
    obtain ⟨d, -, hgains, hinstall, hplugins⟩ := gains_pluginsDir h₁ h₂
    rcases hrunner.into hinstall with ⟨rfl, -⟩ | ⟨runner, -, hname, ht, -⟩
    · exact .inl ⟨_, hgains, by simp⟩
    · obtain ⟨hgains', -⟩ := gains_runner hgains hinstall hplugins hname ht []
      exact .inl ⟨_, hgains', by simp [entries]⟩
  | noCoverage h₁ h₂ hrunner hcoverage =>
    obtain ⟨d, runner, -, -, -, hgains, hplugins⟩ := gains_wholeRunner h₁ h₂ hrunner
    rcases hcoverage.into hplugins with ⟨rfl, -⟩ | ⟨coverage, hcov, -, -, hf⟩
    · exact .inl ⟨_, hgains [], by simp [entries]⟩
    · refine .inr ⟨coverage, hcov, ?_⟩
      split at hf
      · cases hf
      · next hcut => simpa using hcut

theorem Installs.not_installed {f : Failure}
    (h : Installs w.site (resolve root artifacts) artifacts w.tree (some f) t) :
    ¬ Installed w root artifacts d runner coverage t := by
  intro hi
  rcases h.gains_of_some with ⟨added, hgains, hfew⟩ | ⟨coverage', ⟨hserved, -⟩, hcut⟩
  · -- the trees differ in four entries, and in fewer
    have hfour := hi.gains.length_eq hgains
    simp [entries] at hfour
    omega
  · -- one response cannot be whole and cut short
    obtain ⟨⟨hserved', -⟩, hcomplete⟩ := hi.coverage
    rw [hserved.unique hserved', hcomplete] at hcut
    cases hcut

/-! ## Section 3: What tells them apart -/

/-- An installation succeeds exactly if it leaves both archives. -/
theorem setup_eq_ok_iff_installed (w : World) (root : Path) (artifacts : Artifacts) :
    (w.setup (resolve root artifacts) artifacts).result = .ok () ↔
      ∃ d runner coverage, Installed w root artifacts d runner coverage
        (w.setup (resolve root artifacts) artifacts).world.tree := by
  obtain ⟨failure, h, hr⟩ := w.setup_installs (resolve root artifacts) artifacts
  rw [hr]
  cases failure with
  | none => exact ⟨fun _ => h.installed, fun _ => rfl⟩
  | some f =>
    constructor
    · intro hok
      cases hok
    · rintro ⟨d, runner, coverage, hi⟩
      exact absurd hi h.not_installed

/-- The archive that an installation leaves is found at its path. -/
theorem look_of_setup (h : (w.setup (resolve root artifacts) artifacts).result = .ok ()) :
    ∃ p r, w.web.Delivers artifacts.runner r ∧ r.complete ∧
      (w.setup (resolve root artifacts) artifacts).world.tree.look w.cwd
        (resolve root artifacts).runnerJar = .ok (p, .file r.body false) := by
  obtain ⟨d, runner, coverage, hi⟩ := (setup_eq_ok_iff_installed w root artifacts).mp h
  obtain ⟨failure, hinstalls, hr⟩ := w.setup_installs (resolve root artifacts) artifacts
  have hnone : failure = none := by
    cases failure with
    | none => rfl
    | some f =>
      rw [h] at hr
      cases hr
  subst hnone
  obtain ⟨hneeds, hlimits⟩ := hinstalls.needs
  exact ⟨_, runner, hi.runner.1, hi.runner.2, hi.look hneeds hlimits⟩

end installed

end TestRig
