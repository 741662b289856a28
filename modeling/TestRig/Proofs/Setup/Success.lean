import TestRig.Proofs.Setup.Containment

/-! # When an installation succeeds

    What an installation needs is known before it starts: room for its
    directory, two archives that arrive in full, and two names that files
    can have. `setup_succeeds_iff` says that it needs nothing else but
    short enough names and paths, and that it says so if one is too long.

    Once the first directory is made, all of it is known (`OpensTo`), so
    each later step is decided by one equation. -/

namespace TestRig

/-! ## Section 1: A download that is served in full -/

/-- Can a file have the name? -/
def IsFileName (name : Name) : Prop := name ≠ [] ∧ nul ∉ name ∧ Tree.IsEntryName name

/-- The archive that the URL names arrives, and all of it. -/
def Web.DeliversAll (w : Web) (url : Url) : Prop := ∃ r, w.Delivers url r ∧ r.complete

/-- Neither the path nor the last name in it is too long. -/
def IsShort (path : Path) (name : Name) : Prop := path.length ≤ pathLimit ∧ name.length ≤ nameLimit

section into

variable {site : Site} {url : Url} {base : Path} {d : Place} {held : List Name} {t t' : Tree}
  {failure : Option Failure}

/-- What a download that did not fail had. -/
theorem Downloads.needs (h : Downloads site url (Path.join base (fileName url)) t none t')
    (ho : t.OpensTo site.cwd base d held) :
    site.web.DeliversAll url ∧ IsFileName (fileName url) ∧ fileName url ∉ held ∧
      IsShort (Path.join base (fileName url)) (fileName url) := by
  cases h with
  | @complete r p hs hok hp hcomplete =>
    obtain ⟨hname, hfree, hshort, -⟩ := (ho.filePlace_eq_ok_iff (slash_not_mem_fileName url)).mp hp
    exact ⟨⟨r, ⟨hs, hok⟩, hcomplete⟩, hname, hfree, hshort⟩

/-- A download that has all that it needs fails only if something is too
    long, and then that is the cause. -/
theorem Downloads.of_deliversAll
    (h : Downloads site url (Path.join base (fileName url)) t failure t')
    (ho : t.OpensTo site.cwd base d held) (hall : site.web.DeliversAll url)
    (hname : IsFileName (fileName url)) (hfree : fileName url ∉ held) :
    failure = none ∨
      ¬ IsShort (Path.join base (fileName url)) (fileName url) ∧
        failure = some (.create (Path.join base (fileName url)) (.os .nameTooLong)) := by
  obtain ⟨r, ⟨hs, hok⟩, hcomplete⟩ := hall
  obtain ⟨hne, hnul, hentry⟩ := hname
  cases h with
  | unanswered hno => exact absurd hs (hno r)
  | @unsuccessful r' hs' hbad =>
    rw [hs'.unique hs, hok] at hbad
    cases hbad
  | @uncreated r' e hs' hok' hp =>
    -- the name is free and can be a file's, so only the limits are left
    rw [Tree.filePlace_join (slash_not_mem_fileName url) hne hentry ho.leads ho.isDirectory
      (ho.free_iff.mpr hfree), if_neg (not_or.mpr ⟨ho.noNul, hnul⟩)] at hp
    split at hp
    · next hlong =>
      cases hp
      refine .inr ⟨fun hshort => ?_, rfl⟩
      rcases hlong with hlong | hlong
      · exact Nat.not_le.mpr hlong hshort.1
      · exact Nat.not_le.mpr hlong hshort.2
    · cases hp
  | @cut r' p hs' hok' hp hcut =>
    rw [hs'.unique hs, hcomplete] at hcut
    cases hcut
  | complete => exact .inl rfl

end into

namespace Layout

/-! ## Section 2: What an installation needs -/

/-- All that an installation at `root` needs, apart from short names and
    paths. -/
structure Installable (w : World) (root : Path) (artifacts : Artifacts) : Prop where
  room : ∃ d, HasRoom w.tree w.cwd root d
  runner : w.web.DeliversAll artifacts.runner
  coverage : w.web.DeliversAll artifacts.coverage
  runnerName : IsFileName (fileName artifacts.runner)
  coverageName : IsFileName (fileName artifacts.coverage)
  apart : fileName artifacts.runner ≠ text "plugins"

/-- No path and no name of an installation at `root` is too long. The paths
    of its directories are shorter than those of its files. -/
structure WithinLimits (root : Path) (artifacts : Artifacts) : Prop where
  runner : IsShort (resolve root artifacts).runnerJar (fileName artifacts.runner)
  coverage : IsShort (resolve root artifacts).coverageJar (fileName artifacts.coverage)

/-- The system refused something because it is too long. -/
def TooLong (failure : Option Failure) : Prop :=
  ∃ f, failure = some f ∧ f.cause? = some (.os .nameTooLong)

section limits

variable {root : Path} {artifacts : Artifacts}

theorem WithinLimits.pluginsDir (h : WithinLimits root artifacts) :
    (resolve root artifacts).pluginsDir.length ≤ pathLimit :=
  Nat.le_trans (Path.length_le_length_join (slash_not_mem_fileName _)) h.coverage.1

theorem WithinLimits.installDir (h : WithinLimits root artifacts) :
    (resolve root artifacts).installDir.length ≤ pathLimit :=
  Nat.le_trans (Path.length_le_length_join isGoodName_pluginsName.noSlash) h.pluginsDir

end limits

end Layout

open Layout

/-! ## Section 3: When an installation succeeds -/

section needs

variable {w : World} {root : Path} {artifacts : Artifacts} {t' : Tree} {failure : Option Failure}

/-- What an installation that did not fail had. -/
theorem Installs.needs
    (h : Installs w.site (resolve root artifacts) artifacts w.tree none t') :
    Installable w root artifacts ∧ WithinLimits root artifacts := by
  cases h with
  | complete h₁ h₂ hrunner hcoverage =>
    obtain ⟨d, hroom, -⟩ := hasRoom_of_makeDirectory h₁
    obtain ⟨_, -, -, hinstall, -⟩ := gains_pluginsDir h₁ h₂
    obtain ⟨_, _, -, -, -, -, hplugins⟩ := gains_wholeRunner h₁ h₂ hrunner
    obtain ⟨hr, hrname, hapart, hrshort⟩ := hrunner.needs hinstall
    obtain ⟨hc, hcname, -, hcshort⟩ := hcoverage.needs hplugins
    have hname : fileName artifacts.runner ≠ pluginsName :=
      fun h => hapart (List.mem_singleton.mpr h)
    exact ⟨⟨⟨d, hroom⟩, hr, hc, hrname, hcname, hname⟩, hrshort, hcshort⟩

/-- An installation that has all that it needs fails only if something is
    too long, and then that is the cause. -/
theorem Installs.of_installable
    (h : Installs w.site (resolve root artifacts) artifacts w.tree failure t')
    (hi : Installable w root artifacts) :
    failure = none ∨ ¬ WithinLimits root artifacts ∧ TooLong failure := by
  cases h with
  | noInstallDir h₁ =>
    -- there is room, so the path is too long
    obtain ⟨d, hroom⟩ := hi.room
    have hmake := hroom.makeDirectory.symm.trans h₁
    split at hmake
    · next hlong =>
      cases hmake
      exact .inr ⟨fun hl => Nat.not_le.mpr hlong hl.installDir, _, rfl, rfl⟩
    · cases hmake
  | noPluginsDir h₁ h₂ =>
    -- the new directory is empty, so again the path is too long
    obtain ⟨d, -, -, hopen⟩ := gains_installDir h₁
    have hmake := (makeDirectory_pluginsDir hopen).symm.trans h₂
    split at hmake
    · next hlong =>
      cases hmake
      exact .inr ⟨fun hl => Nat.not_le.mpr hlong hl.pluginsDir, _, rfl, rfl⟩
    · cases hmake
  | noRunner h₁ h₂ hrunner =>
    obtain ⟨_, -, -, hinstall, -⟩ := gains_pluginsDir h₁ h₂
    have hfree : fileName artifacts.runner ∉ [pluginsName] :=
      fun h => hi.apart (List.mem_singleton.mp h)
    rcases hrunner.of_deliversAll hinstall hi.runner hi.runnerName hfree with hnone | ⟨hlong, hf⟩
    · cases hnone
    · exact .inr ⟨fun hl => hlong hl.runner, _, hf, rfl⟩
  | noCoverage h₁ h₂ hrunner hcoverage =>
    obtain ⟨_, _, -, -, -, -, hplugins⟩ := gains_wholeRunner h₁ h₂ hrunner
    rcases hcoverage.of_deliversAll hplugins hi.coverage hi.coverageName (by simp) with
      hnone | ⟨hlong, hf⟩
    · cases hnone
    · exact .inr ⟨fun hl => hlong hl.coverage, _, hf, rfl⟩
  | complete => exact .inl rfl

end needs

/-- An installation succeeds exactly if it has all that it needs and
    nothing is too long. If only the limits are in the way, it says so. -/
theorem setup_succeeds_iff (w : World) (root : Path) (artifacts : Artifacts) :
    ((w.setup (resolve root artifacts) artifacts).result = .ok () ↔
      Installable w root artifacts ∧ WithinLimits root artifacts) ∧
    (Installable w root artifacts → ¬ WithinLimits root artifacts →
      ∃ f, (w.setup (resolve root artifacts) artifacts).result = .error f ∧
        f.cause? = some (.os .nameTooLong)) := by
  obtain ⟨failure, h, hr⟩ := w.setup_installs (resolve root artifacts) artifacts
  rw [hr]
  refine ⟨⟨fun hok => ?_, fun ⟨hi, hl⟩ => ?_⟩, fun hi hlong => ?_⟩
  · cases failure with
    | none => exact h.needs
    | some f => cases hok
  · rcases h.of_installable hi with rfl | ⟨hlong, -⟩
    · rfl
    · exact absurd hl hlong
  · rcases h.of_installable hi with rfl | ⟨-, f, rfl, hcause⟩
    · exact absurd h.needs.2 hlong
    · exact ⟨f, rfl, hcause⟩

end TestRig
