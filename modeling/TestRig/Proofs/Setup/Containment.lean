import TestRig.Proofs.Layout.Paths
import TestRig.Proofs.Setup.Directories

/-! # What an installation leaves behind

    An installation can stop after each of its four entries: two
    directories and a file in each of them. Whatever the tree, the root,
    the URLs and the web are, it adds a prefix of these four to the tree
    and changes nothing else. The names of the files come unchecked out of
    URLs, so the proof has to rule out that such a name leads out of the
    directories that were just made.

    * `entries`: the four entries, in the order in which they are made.
    * `Adds`: how the tree ends, if so many of them are made.
    * `Reports`: how the result tells how many were made, and whether the
      last one holds its whole archive. -/

namespace TestRig.Layout

/-! ## Section 1: Prefixes of an installation -/

/-- What an installation makes in the directory at `d`, in the order in
    which it is made. -/
def entries (d : Place) (artifacts : Artifacts) (runner coverage : Bytes) : List (Place × Node) :=
  [(installPlace d, .directory),
    (pluginsPlace d, .directory),
    (installPlace d ++ [fileName artifacts.runner], .file runner false),
    (pluginsPlace d ++ [fileName artifacts.coverage], .file coverage false)]

/-- The tree `t` is that of the world with the first `made` entries of an
    installation at `root`. All of them are new, and the files hold what
    arrived of the responses that ended the exchanges for their URLs. -/
structure Adds (w : World) (root : Path) (artifacts : Artifacts) (d : Place)
    (runner coverage : Response) (made : Nat) (t : Tree) : Prop where
  place : 1 ≤ made → w.tree.Denotes w.cwd root d
  gains : w.tree.Gains t ((entries d artifacts runner.body coverage.body).take made)
  runner : 3 ≤ made → w.web.Delivers artifacts.runner runner
  coverage : 4 ≤ made → w.web.Delivers artifacts.coverage coverage

/-- The result fits the number of entries that were made, and tells
    whether the last file holds a whole archive. All files before the last
    one do. -/
structure Reports (l : Layout) (artifacts : Artifacts) (runner coverage : Response) (made : Nat)
    (result : Except Failure Unit) : Prop where
  atMost : made ≤ 4
  all : made = 4 ↔ result = .ok () ∨ result = .error (.write artifacts.coverage l.coverageJar)
  cutRunner :
    result = .error (.write artifacts.runner l.runnerJar) ↔ made = 3 ∧ runner.complete = false
  wholeRunner : 4 ≤ made → runner.complete
  cutCoverage :
    result = .error (.write artifacts.coverage l.coverageJar) ↔ made = 4 ∧ coverage.complete = false

/-! ## Section 2: The result -/

section reports

variable {l : Layout} {artifacts : Artifacts} {runner coverage : Response} {made : Nat}

/-- A failure other than that of a write. -/
theorem reports_of_not_write {f : Failure} (hmade : made ≤ 3) (hf : ∀ u p, f ≠ .write u p)
    (hwhole : made = 3 → runner.complete) :
    Reports l artifacts runner coverage made (.error f) := by
  have hne : ∀ u p, (.error f : Except Failure Unit) ≠ .error (.write u p) :=
    fun u p he => hf u p (Except.error.inj he)
  refine ⟨by omega, ?_, ?_, by omega, ?_⟩
  · refine ⟨by omega, fun h => ?_⟩
    rcases h with h | h
    · cases h
    · exact absurd h (hne _ _)
  · refine ⟨fun h => absurd h (hne _ _), ?_⟩
    rintro ⟨h, hcut⟩
    rw [hwhole h] at hcut
    cases hcut
  · exact ⟨fun h => absurd h (hne _ _), by omega⟩

/-- The runner is cut short. -/
theorem reports_cutRunner (hl : l.runnerJar ≠ l.coverageJar) (hcut : runner.complete = false) :
    Reports l artifacts runner coverage 3 (.error (.write artifacts.runner l.runnerJar)) := by
  have hne : (.error (.write artifacts.runner l.runnerJar) : Except Failure Unit)
      ≠ .error (.write artifacts.coverage l.coverageJar) := by
    intro he
    exact hl (Failure.write.inj (Except.error.inj he)).2
  refine ⟨by omega, ?_, ⟨fun _ => ⟨rfl, hcut⟩, fun _ => rfl⟩, by omega, ?_⟩
  · refine ⟨by omega, fun h => ?_⟩
    rcases h with h | h
    · cases h
    · exact absurd h hne
  · exact ⟨fun h => absurd h hne, by omega⟩

/-- Both files are made. -/
theorem reports_both {failure : Option Failure} (hl : l.runnerJar ≠ l.coverageJar)
    (hwhole : runner.complete)
    (hf : failure
      = if coverage.complete then none else some (.write artifacts.coverage l.coverageJar)) :
    Reports l artifacts runner coverage 4 (failure.elim (.ok ()) .error) := by
  have hne : (.error (.write artifacts.coverage l.coverageJar) : Except Failure Unit)
      ≠ .error (.write artifacts.runner l.runnerJar) := by
    intro he
    exact hl (Failure.write.inj (Except.error.inj he)).2.symm
  by_cases hc : coverage.complete
  · rw [if_pos hc] at hf
    subst hf
    exact ⟨by omega, by simp, by simp, fun _ => hwhole, by simp [hc]⟩
  · rw [if_neg hc] at hf
    subst hf
    refine ⟨by omega, by simp, ?_, fun _ => hwhole, by simp [hc]⟩
    exact ⟨fun h => absurd h hne, by omega⟩

end reports

/-! ## Section 3: The tree -/

/-- The two archives never share a path, since the name of the runner holds
    no separator. -/
theorem runnerJar_ne_coverageJar (root : Path) (artifacts : Artifacts) :
    (resolve root artifacts).runnerJar ≠ (resolve root artifacts).coverageJar := by
  intro h
  rw [coverageJar_eq, pluginsDir_eq, runnerJar_eq, List.append_assoc, List.append_assoc] at h
  have hname := (List.cons.inj (List.append_cancel_left (List.append_cancel_left h))).2
  exact slash_not_mem_fileName artifacts.runner (by simp [hname])

section stages

variable {w : World} {root : Path} {artifacts : Artifacts} {d : Place} {t₁ t₂ t₃ t' : Tree}
  {runner : Response} {failure : Option Failure}

/-- The first directory is made. -/
theorem gains_installDir
    (h : w.tree.makeDirectory w.cwd (resolve root artifacts).installDir = .ok t₁) :
    ∃ d, w.tree.Denotes w.cwd root d ∧ w.tree.Gains t₁ [(installPlace d, .directory)] ∧
      t₁.OpensTo w.cwd (resolve root artifacts).installDir (installPlace d) [] := by
  obtain ⟨d, hroom, rfl⟩ := hasRoom_of_makeDirectory h
  exact ⟨d, hroom.denotes, (Tree.Gains.refl w.tree).put (hroom.admits _) hroom.free, hroom.opensTo⟩

/-- Both directories are made. -/
theorem gains_pluginsDir
    (h₁ : w.tree.makeDirectory w.cwd (resolve root artifacts).installDir = .ok t₁)
    (h₂ : t₁.makeDirectory w.cwd (resolve root artifacts).pluginsDir = .ok t₂) :
    ∃ d, w.tree.Denotes w.cwd root d ∧
      w.tree.Gains t₂ [(installPlace d, .directory), (pluginsPlace d, .directory)] ∧
      t₂.OpensTo w.cwd (resolve root artifacts).installDir (installPlace d) [pluginsName] ∧
      t₂.OpensTo w.cwd (resolve root artifacts).pluginsDir (pluginsPlace d) [] := by
  obtain ⟨d, hd, hgains, hopen⟩ := gains_installDir h₁
  obtain ⟨hadmits, hfree, hinstall, hplugins⟩ := opensTo_both hopen
  obtain rfl : t₂ = t₁.put (pluginsPlace d) .directory := by
    rw [makeDirectory_pluginsDir hopen] at h₂
    split at h₂
    · cases h₂
    · exact (Except.ok.inj h₂).symm
  exact ⟨d, hd, hgains.put hadmits hfree, hinstall, hplugins⟩

/-- The file of the runner is made. -/
theorem gains_runner
    (hgains : w.tree.Gains t₂ [(installPlace d, .directory), (pluginsPlace d, .directory)])
    (hinstall : t₂.OpensTo w.cwd (resolve root artifacts).installDir (installPlace d) [pluginsName])
    (hplugins : t₂.OpensTo w.cwd (resolve root artifacts).pluginsDir (pluginsPlace d) [])
    (hname : fileName artifacts.runner ∉ [pluginsName])
    (ht : t₃ = t₂.put (installPlace d ++ [fileName artifacts.runner]) (.file runner.body false))
    (coverage : Bytes) :
    w.tree.Gains t₃ ((entries d artifacts runner.body coverage).take 3) ∧
      t₃.OpensTo w.cwd (resolve root artifacts).pluginsDir (pluginsPlace d) [] := by
  have hfree := hinstall.free_iff.mpr hname
  have hadmits :
      t₂.Admits (installPlace d ++ [fileName artifacts.runner]) (.file runner.body false) :=
    Tree.admits_of_free hinstall.isDirectory hfree
  subst ht
  refine ⟨hgains.put hadmits hfree, hplugins.put_file hadmits hfree fun name he => ?_⟩
  -- a file in the plugin directory lies one name deeper
  have hlen := congrArg List.length he
  simp [pluginsPlace] at hlen

/-- The archive of the runner is there as a whole. -/
theorem gains_wholeRunner
    (h₁ : w.tree.makeDirectory w.cwd (resolve root artifacts).installDir = .ok t₁)
    (h₂ : t₁.makeDirectory w.cwd (resolve root artifacts).pluginsDir = .ok t₂)
    (h : Downloads w.site artifacts.runner (resolve root artifacts).runnerJar t₂ none t₃) :
    ∃ d runner, w.tree.Denotes w.cwd root d ∧ w.web.Delivers artifacts.runner runner ∧
      runner.complete ∧
      (∀ coverage, w.tree.Gains t₃ ((entries d artifacts runner.body coverage).take 3)) ∧
      t₃.OpensTo w.cwd (resolve root artifacts).pluginsDir (pluginsPlace d) [] := by
  obtain ⟨d, hd, hgains, hinstall, hplugins⟩ := gains_pluginsDir h₁ h₂
  rcases h.into hinstall with ⟨-, f, hf, -⟩ | ⟨runner, hserved, hname, ht, hf⟩
  · cases hf
  · have hwhole : runner.complete := by
      split at hf
      · assumption
      · cases hf
    have hrunner := gains_runner hgains hinstall hplugins hname ht
    exact ⟨d, runner, hd, hserved, hwhole, fun coverage => (hrunner coverage).1, (hrunner []).2⟩

/-- With the runner in place, the end depends on the coverage plugin. -/
theorem adds_of_runner (hd : w.tree.Denotes w.cwd root d)
    (hgains : ∀ coverage, w.tree.Gains t₃ ((entries d artifacts runner.body coverage).take 3))
    (hplugins : t₃.OpensTo w.cwd (resolve root artifacts).pluginsDir (pluginsPlace d) [])
    (hrunner : w.web.Delivers artifacts.runner runner) (hwhole : runner.complete)
    (h : Downloads w.site artifacts.coverage (resolve root artifacts).coverageJar t₃ failure t') :
    ∃ coverage made, Adds w root artifacts d runner coverage made t' ∧
      Reports (resolve root artifacts) artifacts runner coverage made
        (failure.elim (.ok ()) .error) := by
  rcases h.into hplugins with ⟨rfl, f, rfl, hf⟩ | ⟨coverage, hcoverage, hname, rfl, hf⟩
  · refine ⟨default, 3, ⟨fun _ => hd, hgains _, fun _ => hrunner, by omega⟩, ?_⟩
    exact reports_of_not_write (Nat.le_refl 3) hf fun _ => hwhole
  · have hfree := hplugins.free_iff.mpr hname
    refine ⟨coverage, 4, ⟨fun _ => hd, ?_, fun _ => hrunner, fun _ => hcoverage⟩, ?_⟩
    · exact (hgains coverage.body).put (Tree.admits_of_free hplugins.isDirectory hfree) hfree
    · exact reports_both (runnerJar_ne_coverageJar root artifacts) hwhole hf

end stages

/-- An installation adds a prefix of its four entries to the tree, and its
    result says which one. Nothing else in the world changes. -/
theorem setup_adds_prefix (w : World) (root : Path) (artifacts : Artifacts) :
    ∃ d runner coverage made,
      Adds w root artifacts d runner coverage made
        (w.setup (resolve root artifacts) artifacts).world.tree ∧
      Reports (resolve root artifacts) artifacts runner coverage made
        (w.setup (resolve root artifacts) artifacts).result ∧
      (w.setup (resolve root artifacts) artifacts).world
        = { w with tree := (w.setup (resolve root artifacts) artifacts).world.tree } := by
  have hjars := runnerJar_ne_coverageJar root artifacts
  obtain ⟨failure, h, hr⟩ := w.setup_installs (resolve root artifacts) artifacts
  rw [hr]
  suffices hs : ∃ d runner coverage made,
      Adds w root artifacts d runner coverage made
        (w.setup (resolve root artifacts) artifacts).world.tree ∧
      Reports (resolve root artifacts) artifacts runner coverage made
        (failure.elim (.ok ()) .error) by
    obtain ⟨d, runner, coverage, made, hadds, hreports⟩ := hs
    exact ⟨d, runner, coverage, made, hadds, hreports, rfl⟩
  generalize (w.setup (resolve root artifacts) artifacts).world.tree = t' at h ⊢
  cases h with
  | noInstallDir h =>
    refine ⟨[], default, default, 0, ⟨by omega, .refl _, by omega, by omega⟩, ?_⟩
    exact reports_of_not_write (by omega) nofun (by omega)
  | noPluginsDir h₁ h₂ =>
    obtain ⟨d, hd, hgains, -⟩ := gains_installDir h₁
    refine ⟨d, default, default, 1, ⟨fun _ => hd, hgains, by omega, by omega⟩, ?_⟩
    exact reports_of_not_write (by omega) nofun (by omega)
  | noRunner h₁ h₂ hrunner =>
    obtain ⟨d, hd, hgains, hinstall, hplugins⟩ := gains_pluginsDir h₁ h₂
    rcases hrunner.into hinstall with ⟨rfl, f', hf', hf⟩ | ⟨runner, hserved, hname, ht, hfail⟩
    · cases hf'
      refine ⟨d, default, default, 2, ⟨fun _ => hd, hgains, by omega, by omega⟩, ?_⟩
      exact reports_of_not_write (by omega) hf (by omega)
    · obtain ⟨hgains', -⟩ := gains_runner hgains hinstall hplugins hname ht []
      refine ⟨d, runner, default, 3, ⟨fun _ => hd, hgains', fun _ => hserved, by omega⟩, ?_⟩
      split at hfail
      · cases hfail
      · next hcut =>
        cases hfail
        exact reports_cutRunner hjars (by simpa using hcut)
  | noCoverage h₁ h₂ hrunner hcoverage =>
    obtain ⟨d, runner, hd, hserved, hwhole, hgains, hplugins⟩ := gains_wholeRunner h₁ h₂ hrunner
    exact ⟨d, runner, adds_of_runner hd hgains hplugins hserved hwhole hcoverage⟩
  | complete h₁ h₂ hrunner hcoverage =>
    obtain ⟨d, runner, hd, hserved, hwhole, hgains, hplugins⟩ := gains_wholeRunner h₁ h₂ hrunner
    exact ⟨d, runner, adds_of_runner hd hgains hplugins hserved hwhole hcoverage⟩

end TestRig.Layout
