import TestRig.Proofs.Job.Sequence
import TestRig.Proofs.Web.Chain
import TestRig.World

/-! # How a job ends

    A download and an installation that run alone end in one of a few ways.
    `Downloads` and `Installs` list them, each with its failure, if any, and
    the tree that is left. `finish_downloadSteps` and `finish_installation` say
    that there are no other ways; all that is proved about single runs
    starts from a case split on these two relations. -/

namespace TestRig

/-! ## Section 1: The ways to end -/

/-- The ways a download can end: its failure and the tree that it leaves. -/
inductive Downloads (site : Site) (url : Url) (dest : Path) (t : Tree) :
    Option Failure → Tree → Prop where
  | unanswered : (∀ r, ¬ site.web.Serves url r) → Downloads site url dest t (some (.get url)) t
  | unsuccessful {r} :
      site.web.Serves url r → Status.isSuccess r.status = false →
      Downloads site url dest t (some (.status r.status url)) t
  | uncreated {r e} :
      site.web.Serves url r → Status.isSuccess r.status → t.filePlace site.cwd dest = .error e →
      Downloads site url dest t (some (.create dest e)) t
  | cut {r p} :
      site.web.Serves url r → Status.isSuccess r.status → t.filePlace site.cwd dest = .ok p →
      r.complete = false →
      Downloads site url dest t (some (.write url dest)) (t.put p (.file r.body (t.modeAt p)))
  | complete {r p} :
      site.web.Serves url r → Status.isSuccess r.status → t.filePlace site.cwd dest = .ok p →
      r.complete →
      Downloads site url dest t none (t.put p (.file r.body (t.modeAt p)))

/-- The ways an installation can end: its failure and the tree that it
    leaves. -/
inductive Installs (site : Site) (l : Layout) (artifacts : Artifacts) (t : Tree) :
    Option Failure → Tree → Prop where
  | noInstallDir {e} :
      t.makeDirectory site.cwd l.installDir = .error e →
      Installs site l artifacts t (some (.makeDirectory l.installDir e)) t
  | noPluginsDir {t₁ e} :
      t.makeDirectory site.cwd l.installDir = .ok t₁ →
      t₁.makeDirectory site.cwd l.pluginsDir = .error e →
      Installs site l artifacts t (some (.makeDirectory l.pluginsDir e)) t₁
  | noRunner {t₁ t₂ t₃ f} :
      t.makeDirectory site.cwd l.installDir = .ok t₁ →
      t₁.makeDirectory site.cwd l.pluginsDir = .ok t₂ →
      Downloads site artifacts.runner l.runnerJar t₂ (some f) t₃ →
      Installs site l artifacts t (some f) t₃
  | noCoverage {t₁ t₂ t₃ t₄ f} :
      t.makeDirectory site.cwd l.installDir = .ok t₁ →
      t₁.makeDirectory site.cwd l.pluginsDir = .ok t₂ →
      Downloads site artifacts.runner l.runnerJar t₂ none t₃ →
      Downloads site artifacts.coverage l.coverageJar t₃ (some f) t₄ →
      Installs site l artifacts t (some f) t₄
  | complete {t₁ t₂ t₃ t₄} :
      t.makeDirectory site.cwd l.installDir = .ok t₁ →
      t₁.makeDirectory site.cwd l.pluginsDir = .ok t₂ →
      Downloads site artifacts.runner l.runnerJar t₂ none t₃ →
      Downloads site artifacts.coverage l.coverageJar t₃ none t₄ →
      Installs site l artifacts t none t₄

namespace Job

/-! ## Section 2: A job that runs alone -/

/-- Making a directory first. -/
theorem finish_makeDirectory (site : Site) {j : Job} {path : Path} {rest : List Step} (t : Tree)
    (h : j.pending = .makeDirectory path :: rest) :
    finish site j t =
      match t.makeDirectory site.cwd path with
      | .error e => (j.fail (.makeDirectory path e), t)
      | .ok t' => finish site { j with pending := rest } t' := by
  rw [finish_cons site t h]
  simp only [perform]
  cases t.makeDirectory site.cwd path with
  | error e => exact finish_done site t rfl
  | ok t' => rfl

/-- A download first. It ends in one of its ways, and what is left of the
    job is finished if it did not fail. Either way the URL was announced and
    asked for. -/
theorem finish_downloadSteps (site : Site) {j : Job} {url : Url} {dest : Path} {rest : List Step}
    (t : Tree) (h : j.pending = downloadSteps url dest ++ rest) (hj : j.failure = none) :
    ∃ failure t', Downloads site url dest t failure t' ∧
      ∃ j', j'.failure = failure ∧ j'.pending = (if failure = none then rest else []) ∧
        j'.requests = j.requests ++ (site.web.exchange url).requests ∧
        j'.output = j.output ++ downloadLine url ∧
        finish site j t = finish site j' t' := by
  rw [finish_cons site t h]
  simp only [perform, request]
  cases hr : (site.web.exchange url).response with
  | none =>
    refine ⟨_, t, .unanswered fun r hs => ?_, _, rfl, rfl, rfl, rfl, rfl⟩
    rw [← Web.exchange_eq_some_iff, hr] at hs
    cases hs
  | some r =>
    have hs : site.web.Serves url r := (Web.exchange_eq_some_iff _ _ _).mp hr
    by_cases hok : Status.isSuccess r.status
    · simp only [hok, if_true]
      rw [finish_cons site t rfl]
      simp only [perform]
      -- a response that counts, so it is up to the tree whether it can be kept
      cases hp : t.filePlace site.cwd dest with
      | error e =>
        have hc : t.createFile site.cwd dest = .error e := by simp [Tree.createFile, hp, Except.map]
        rw [hc]
        exact ⟨_, t, .uncreated hs hok hp, _, rfl, rfl, rfl, rfl, rfl⟩
      | ok p =>
        have hc := Tree.createFile_eq_ok_iff.mpr ⟨hp, rfl⟩
        rw [hc]
        simp only
        rw [finish_cons site _ rfl]
        simp only [perform]
        rw [Tree.write_truncate (Tree.filePlace_spec hp)]
        -- what arrived is in the file either way
        by_cases hcomplete : r.complete
        · simp only [hcomplete, if_true]
          refine ⟨_, _, .complete hs hok hp hcomplete, _, ?_, ?_, rfl, rfl, rfl⟩
          · exact hj
          · rfl
        · simp only [hcomplete]
          exact ⟨_, _, .cut hs hok hp (by simpa using hcomplete), _, rfl, rfl, rfl, rfl, rfl⟩
    · simp only [hok]
      exact ⟨_, t, .unsuccessful hs (by simpa using hok), _, rfl, rfl, rfl, rfl, rfl⟩

/-- Once both directories are made, an installation ends as its downloads
    do. The second one is tried only if the first one did not fail. -/
theorem installs_of_directories {site : Site} {l : Layout} {artifacts : Artifacts}
    {t t₁ t₂ : Tree} (h₁ : t.makeDirectory site.cwd l.installDir = .ok t₁)
    (h₂ : t₁.makeDirectory site.cwd l.pluginsDir = .ok t₂) {j : Job}
    (h : j.pending = downloadSteps artifacts.runner l.runnerJar
      ++ (downloadSteps artifacts.coverage l.coverageJar ++ [.announce l.installDir]))
    (hj : j.failure = none) :
    Installs site l artifacts t (finish site j t₂).1.failure (finish site j t₂).2 := by
  obtain ⟨failure, t₃, hrunner, j₃, hfail, hpending, -, -, heq⟩ :=
    finish_downloadSteps site t₂ h hj
  rw [heq]
  cases failure with
  | some f =>
    rw [finish_done site t₃ (by simpa using hpending), hfail]
    exact .noRunner h₁ h₂ hrunner
  | none =>
    obtain ⟨failure, t₄, hcoverage, j₄, hfail', hpending', -, -, heq'⟩ :=
      finish_downloadSteps site t₃ (by simpa using hpending) hfail
    rw [heq']
    cases failure with
    | some f =>
      rw [finish_done site t₄ (by simpa using hpending'), hfail']
      exact .noCoverage h₁ h₂ hrunner hcoverage
    | none =>
      have hannounce : j₄.pending = [.announce l.installDir] := by simpa using hpending'
      rw [finish_cons site t₄ hannounce, finish_done site _ rfl]
      simp only [perform, hfail']
      exact .complete h₁ h₂ hrunner hcoverage

/-- An installation ends in one of its ways. -/
theorem finish_installation (site : Site) (l : Layout) (artifacts : Artifacts) (t : Tree) :
    Installs site l artifacts t (finish site (installation l artifacts) t).1.failure
      (finish site (installation l artifacts) t).2 := by
  rw [finish_makeDirectory site t rfl]
  cases h₁ : t.makeDirectory site.cwd l.installDir with
  | error e => exact .noInstallDir h₁
  | ok t₁ =>
    simp only
    rw [finish_makeDirectory site t₁ rfl]
    cases h₂ : t₁.makeDirectory site.cwd l.pluginsDir with
    | error e => exact .noPluginsDir h₁ h₂
    | ok t₂ => exact installs_of_directories h₁ h₂ rfl rfl

/-! ## Section 3: The first step of an installation -/

/-- Where the directory is refused, the first step ends the installation. -/
theorem advance_installation_of_refuses {site : Site} {l : Layout} {t : Tree}
    (h : t.Refuses site.cwd l.installDir) (artifacts : Artifacts) :
    ∃ e, advance site (installation l artifacts) t
      = ((installation l artifacts).fail (.makeDirectory l.installDir e), t) := by
  obtain ⟨e, he⟩ := h
  refine ⟨e, ?_⟩
  rw [advance_cons site t rfl]
  simp only [perform, he]
  rfl

/-- After the first step the directory is refused, however far the
    installation gets: it is there now, or it could not be made and nothing
    else was. -/
theorem refuses_advanceBy_installation (site : Site) (l : Layout) (artifacts : Artifacts) (t : Tree)
    (n : Nat) :
    (advanceBy site (n + 1) (installation l artifacts) t).2.Refuses site.cwd l.installDir := by
  rw [advanceBy_succ]
  cases h : t.makeDirectory site.cwd l.installDir with
  | error e =>
    have hrefuses : t.Refuses site.cwd l.installDir := ⟨e, h⟩
    obtain ⟨e', hfirst⟩ := advance_installation_of_refuses hrefuses artifacts
    rw [hfirst, advanceBy_done site n t rfl]
    exact hrefuses
  | ok t₁ =>
    have hfirst : (advance site (installation l artifacts) t).2 = t₁ := by
      rw [advance_cons site t rfl]
      simp only [perform, h]
    have hgrows := advanceBy_grows site n (advance site (installation l artifacts) t).1 t₁
    rw [hfirst]
    exact Tree.makeDirectory_refused_of_made h hgrows

end Job

namespace World

/-- The result of an installation and the tree after it. -/
theorem setup_installs (w : World) (l : Layout) (artifacts : Artifacts) :
    ∃ failure, Installs w.site l artifacts w.tree failure (w.setup l artifacts).world.tree ∧
      (w.setup l artifacts).result = failure.elim (.ok ()) .error := by
  refine ⟨_, Job.finish_installation w.site l artifacts w.tree, ?_⟩
  simp only [setup, doJob]
  cases (Job.finish w.site (.installation l artifacts) w.tree).1.failure <;> rfl

end World

end TestRig
