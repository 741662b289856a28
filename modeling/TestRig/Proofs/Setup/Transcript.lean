import TestRig.Proofs.Job.Parts
import TestRig.Proofs.Setup.Directories

/-! # What an installation asks for and prints

    An installation gets as far as its first part that fails: its two
    directories, the runner, the coverage plugin. How far it gets can be
    told from what it prints, and decides what it asks the web for. Nothing
    is asked for before both directories are made, and the plugin is not
    asked for before the whole runner is written.

    * `Extent`: how far an installation can get, and what it prints then.
    * `World.Reaches`: that an installation gets so far, told from its parts.
    * `Recorded`: how requests, output and result go together. -/

namespace TestRig

/-! ## Section 1: How far an installation gets -/

/-- How far an installation gets. -/
inductive Extent where
  /-- One of its directories cannot be made. -/
  | noDirectories
  /-- The runner cannot be downloaded. -/
  | noRunner
  /-- The coverage plugin cannot be downloaded. -/
  | noCoverage
  | complete
  deriving DecidableEq

namespace Extent

/-- The line for a URL that is about to be downloaded. -/
def announced (url : Url) : Bytes := text "📥 Downloading " ++ url ++ text "\n"

/-- What is printed on the way. -/
def output (l : Layout) (artifacts : Artifacts) : Extent → Bytes
  | .noDirectories => []
  | .noRunner => announced artifacts.runner
  | .noCoverage => announced artifacts.runner ++ announced artifacts.coverage
  | .complete =>
    announced artifacts.runner ++ announced artifacts.coverage
      ++ (text "\n✅ jstestdriver installed in " ++ lossy l.installDir ++ text "\n")

theorem downloadLine_eq_announced (url : Url) : Job.downloadLine url = announced url :=
  Job.downloadLine_eq url

theorem announced_ne_nil (url : Url) : announced url ≠ [] := by
  have hopens : text "📥 Downloading " ≠ [] := by decide +kernel
  simp [announced, hopens]

/-- The output tells how far the installation got: it grows with the
    extent, since no line is empty. -/
theorem output_injective {l : Layout} {artifacts : Artifacts} {e e' : Extent}
    (h : e.output l artifacts = e'.output l artifacts) : e = e' := by
  have hlength := congrArg List.length h
  have hrunner := List.length_pos_iff.mpr (announced_ne_nil artifacts.runner)
  have hcoverage := List.length_pos_iff.mpr (announced_ne_nil artifacts.coverage)
  have hlast : 0 < (text "\n✅ jstestdriver installed in ").length := by decide +kernel
  -- of two extents one prints all that the other does, and more
  cases e <;> cases e' <;>
    first
      | rfl
      | (simp only [output, List.length_append, List.length_nil] at hlength; omega)

end Extent

/-! ## Section 2: The parts of an installation -/

/-- A download succeeds exactly if all of the file arrives and there is a
    place for it, and then the file is there as a whole. -/
theorem World.fetch_isOk_iff (w : World) (url : Url) (dest : Path) :
    (w.fetch url dest).result.isOk ↔
      ∃ r p, w.web.Delivers url r ∧ r.complete ∧ w.tree.filePlace w.cwd dest = .ok p ∧
        (w.fetch url dest).world.tree.nodeAt p = some (.file r.body (w.tree.modeAt p)) := by
  obtain ⟨failure, t', h⟩ := w.fetch_downloads url dest
  obtain ⟨n, hfetch⟩ := fetch_eq_of_downloads h
  constructor
  · intro hok
    rw [hfetch] at hok
    cases h with
    | complete hs hstatus hp hcomplete =>
      refine ⟨_, _, ⟨hs, hstatus⟩, hcomplete, hp, ?_⟩
      rw [hfetch]
      exact Tree.nodeAt_put_self ((Tree.filePlace_spec hp).admits _)
    | _ => cases hok
  · rintro ⟨r, p, ⟨hs, hstatus⟩, hcomplete, hp, -⟩
    -- nothing else can come of a download that has all of this
    obtain ⟨rfl, -⟩ := h.unique (.complete hs hstatus hp hcomplete)
    rw [hfetch]
    rfl

namespace World

variable (w : World) (l : Layout) (artifacts : Artifacts)

/-- The download of the runner in the tree `t`. -/
def fetchRunner (t : Tree) : Outcome Nat :=
  { w with tree := t }.fetch artifacts.runner l.runnerJar

/-- The download of the coverage plugin after that of the runner. -/
def fetchCoverage (t : Tree) : Outcome Nat :=
  (w.fetchRunner l artifacts t).world.fetch artifacts.coverage l.coverageJar

/-- The parts of an installation succeed as far as the extent says, and the
    next one fails. -/
def Reaches : Extent → Prop
  | .noDirectories => ∀ t, ¬ w.MakesDirectories l t
  | .noRunner =>
    ∃ t f, w.MakesDirectories l t ∧ (w.fetchRunner l artifacts t).result = .error f
  | .noCoverage =>
    ∃ t n f, w.MakesDirectories l t ∧ (w.fetchRunner l artifacts t).result = .ok n ∧
      (w.fetchCoverage l artifacts t).result = .error f
  | .complete =>
    ∃ t n m, w.MakesDirectories l t ∧ (w.fetchRunner l artifacts t).result = .ok n ∧
      (w.fetchCoverage l artifacts t).result = .ok m

/-- The requests of an installation that gets so far. -/
def requestsOf : Extent → List Address
  | .noDirectories => []
  | .noRunner => (w.web.exchange artifacts.runner).requests
  | .noCoverage | .complete =>
    (w.web.exchange artifacts.runner).requests ++ (w.web.exchange artifacts.coverage).requests

variable {w l artifacts}

theorem fetchRunner_transcript (t : Tree) :
    (w.fetchRunner l artifacts t).transcript
      = ⟨(w.web.exchange artifacts.runner).requests, Extent.announced artifacts.runner, [], []⟩ := by
  obtain ⟨failure, t', h⟩ := { w with tree := t }.fetch_downloads artifacts.runner l.runnerJar
  obtain ⟨n, hfetch⟩ := fetch_eq_of_downloads h
  rw [fetchRunner, hfetch, Extent.downloadLine_eq_announced]

theorem fetchRunner_web (t : Tree) : (w.fetchRunner l artifacts t).world.web = w.web := rfl

theorem fetchCoverage_transcript (t : Tree) :
    (w.fetchCoverage l artifacts t).transcript
      = ⟨(w.web.exchange artifacts.coverage).requests,
          Extent.announced artifacts.coverage, [], []⟩ := by
  obtain ⟨failure, t', h⟩ :=
    (w.fetchRunner l artifacts t).world.fetch_downloads artifacts.coverage l.coverageJar
  obtain ⟨n, hfetch⟩ := fetch_eq_of_downloads h
  rw [fetchCoverage, hfetch, fetchRunner_web, Extent.downloadLine_eq_announced]

/-! ## Section 3: The transcript -/

/-- With the runner in place, the plugin decides. -/
theorem setup_of_fetchRunner {t : Tree} {n : Nat} (ht : w.MakesDirectories l t)
    (hrunner : (w.fetchRunner l artifacts t).result = .ok n) :
    let o := (w.fetchCoverage l artifacts t).andThen fun w₂ => w₂.announce l.installDir
    w.setup l artifacts
      = { o with transcript := (w.fetchRunner l artifacts t).transcript.andThen o.transcript } := by
  rw [setup_of_directories ht]
  exact Outcome.andThen_of_ok hrunner

/-- The transcript of an installation that gets so far, and what its result
    is. -/
theorem Reaches.setup {e : Extent} (h : w.Reaches l artifacts e) :
    (w.setup l artifacts).transcript = ⟨w.requestsOf artifacts e, e.output l artifacts, [], []⟩ ∧
      ((w.setup l artifacts).result = .ok () ↔ e = .complete) := by
  cases e with
  | noDirectories =>
    obtain ⟨f, t, hsetup⟩ := setup_of_no_directories h artifacts
    rw [hsetup]
    exact ⟨rfl, by simp⟩
  | noRunner =>
    obtain ⟨t, f, ht, hrunner⟩ := h
    have hsetup : w.setup l artifacts
        = ⟨.error f, (w.fetchRunner l artifacts t).world,
            (w.fetchRunner l artifacts t).transcript⟩ := by
      rw [setup_of_directories ht]
      exact Outcome.andThen_of_error hrunner
    rw [hsetup, fetchRunner_transcript]
    exact ⟨rfl, by simp⟩
  | noCoverage =>
    obtain ⟨t, n, f, ht, hrunner, hcoverage⟩ := h
    have hsetup := setup_of_fetchRunner ht hrunner
    rw [Outcome.andThen_of_error hcoverage] at hsetup
    rw [hsetup, fetchRunner_transcript, fetchCoverage_transcript]
    exact ⟨rfl, by simp⟩
  | complete =>
    obtain ⟨t, n, m, ht, hrunner, hcoverage⟩ := h
    have hsetup := setup_of_fetchRunner ht hrunner
    rw [Outcome.andThen_of_ok hcoverage] at hsetup
    rw [hsetup, fetchRunner_transcript, fetchCoverage_transcript]
    refine ⟨?_, by simp [announce]⟩
    simp [Transcript.andThen, announce, Transcript.printed, requestsOf, Extent.output,
      Job.installedLines_eq]

/-- Every installation gets somewhere. -/
theorem exists_reaches (w : World) (l : Layout) (artifacts : Artifacts) :
    ∃ e, w.Reaches l artifacts e := by
  by_cases hmade : ∃ t, w.MakesDirectories l t
  · obtain ⟨t, ht⟩ := hmade
    cases hrunner : (w.fetchRunner l artifacts t).result with
    | error f => exact ⟨.noRunner, t, f, ht, hrunner⟩
    | ok n =>
      cases hcoverage : (w.fetchCoverage l artifacts t).result with
      | error f => exact ⟨.noCoverage, t, n, f, ht, hrunner, hcoverage⟩
      | ok m => exact ⟨.complete, t, n, m, ht, hrunner, hcoverage⟩
  · refine ⟨.noDirectories, ?_⟩
    intro t ht
    exact hmade ⟨t, ht⟩

/-- What an installation prints tells how far it gets, and the other way
    round. -/
theorem stdout_eq_output_iff (w : World) (l : Layout) (artifacts : Artifacts) (e : Extent) :
    (w.setup l artifacts).transcript.stdout = e.output l artifacts ↔ w.Reaches l artifacts e := by
  constructor
  · intro h
    obtain ⟨e', he'⟩ := w.exists_reaches l artifacts
    have hprinted : (w.setup l artifacts).transcript.stdout = e'.output l artifacts := by
      rw [he'.setup.1]
    -- it got somewhere, and what it printed leaves no choice where
    have hsame : e = e' := Extent.output_injective (h.symm.trans hprinted)
    rw [hsame]
    exact he'
  · intro h
    rw [h.setup.1]

end World

/-! ## Section 4: Requests, output and result -/

/-- How the requests, the output and the result of an installation go
    together with what its parts came to. -/
structure Recorded (w : World) (l : Layout) (artifacts : Artifacts) (o : Outcome Unit) : Prop where
  /-- Without its directories it asks for nothing. -/
  silent : (∀ t, ¬ w.MakesDirectories l t) → o.transcript.requests = []
  /-- With them it asks for the runner, and for the plugin only once the
      runner is there. -/
  asks : ∀ t, w.MakesDirectories l t →
    ∃ runner coverage, w.web.RedirectChain artifacts.runner runner ∧
      w.web.RedirectChain artifacts.coverage coverage ∧
      o.transcript.requests
        = if (w.fetchRunner l artifacts t).result.isOk then runner ++ coverage else runner
  /-- The runner is there if all of it has arrived and is written. -/
  whole : ∀ t, w.MakesDirectories l t →
    ((w.fetchRunner l artifacts t).result.isOk ↔
      ∃ r p, w.web.Delivers artifacts.runner r ∧ r.complete ∧
        t.filePlace w.cwd l.runnerJar = .ok p ∧
        (w.fetchRunner l artifacts t).world.tree.nodeAt p = some (.file r.body (t.modeAt p)))
  /-- It prints one of four things, which are all different. -/
  prints : ∃ e : Extent, o.transcript.stdout = e.output l artifacts ∧
    ∀ e' : Extent, o.transcript.stdout = e'.output l artifacts → e' = e
  /-- What it prints says how far it got. -/
  prints_iff : ∀ e : Extent, o.transcript.stdout = e.output l artifacts ↔ w.Reaches l artifacts e
  /-- It succeeds if it got to the end. -/
  succeeds : o.transcript.stdout = Extent.complete.output l artifacts ↔ o.result = .ok ()

/-- The record of every installation is in order. -/
theorem World.setup_recorded (w : World) (l : Layout) (artifacts : Artifacts) :
    Recorded w l artifacts (w.setup l artifacts) where
  silent := by
    intro hnone
    have hreaches : w.Reaches l artifacts .noDirectories := hnone
    rw [hreaches.setup.1]
    rfl
  asks := by
    intro t ht
    refine ⟨_, _, (w.web.exchange_requests_eq_iff _ _).mp rfl,
      (w.web.exchange_requests_eq_iff _ _).mp rfl, ?_⟩
    cases hrunner : (w.fetchRunner l artifacts t).result with
    | error f =>
      have hreaches : w.Reaches l artifacts .noRunner := ⟨t, f, ht, hrunner⟩
      rw [hreaches.setup.1]
      rfl
    | ok n =>
      -- whatever comes of the plugin, it is asked for
      cases hcoverage : (w.fetchCoverage l artifacts t).result with
      | error f =>
        have hreaches : w.Reaches l artifacts .noCoverage := ⟨t, n, f, ht, hrunner, hcoverage⟩
        rw [hreaches.setup.1]
        rfl
      | ok m =>
        have hreaches : w.Reaches l artifacts .complete := ⟨t, n, m, ht, hrunner, hcoverage⟩
        rw [hreaches.setup.1]
        rfl
  whole := by
    intro t _
    exact fetch_isOk_iff { w with tree := t } artifacts.runner l.runnerJar
  prints := by
    obtain ⟨e, he⟩ := w.exists_reaches l artifacts
    have hprinted := (w.stdout_eq_output_iff l artifacts e).mpr he
    refine ⟨e, hprinted, ?_⟩
    intro e' he'
    exact Extent.output_injective (he'.symm.trans hprinted)
  prints_iff := w.stdout_eq_output_iff l artifacts
  succeeds := by
    rw [stdout_eq_output_iff]
    constructor
    · intro h
      exact h.setup.2.mpr rfl
    · intro hok
      obtain ⟨e, he⟩ := w.exists_reaches l artifacts
      have hcomplete : e = .complete := he.setup.2.mp hok
      rw [← hcomplete]
      exact he

end TestRig
