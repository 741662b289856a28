import TestRig.Proofs.Job.Ending

/-! # An installation is tried once

    After one attempt to install into a directory, whatever came of it, no
    further attempt gets past its first step. Either the directory is there
    now and stays, or it could not be made and still cannot: attempts that
    are refused add nothing, and downloads add nothing but files.

    The invariant is `Tree.Refuses`. The first attempt establishes it
    (`refuses_setup`), everything after it keeps it (`refuses_attempt`),
    and it decides every later attempt (`setup_of_refuses`). -/

namespace TestRig

/-! ## Section 1: Histories -/

/-- A layout whose first directory is `dir`. -/
def LayoutAt (dir : Path) : Type := { l : Layout // l.installDir = dir }

/-- What may be tried in the meantime: downloads of any kind, and
    installations into `dir`. Each of them sees a web of its own. -/
inductive Attempt (dir : Path) where
  | fetch (web : Web) (url : Url) (dest : Path)
  | setup (web : Web) (l : LayoutAt dir) (artifacts : Artifacts)

/-- An installation was refused in its first step, and did nothing. -/
structure RefusedAtOnce (w : World) (dir : Path) (o : Outcome Unit) : Prop where
  result : ∃ e, o.result = .error (.makeDirectory dir e) ∧
    (Failure.makeDirectory dir e).message = text "Failed to create directory " ++ lossy dir
  world : o.world = w
  transcript : o.transcript = .silent

namespace World

variable {dir : Path}

/-- The world after an attempt. -/
def attempt (w : World) : Attempt dir → World
  | .fetch web url dest => ({ w with web }.fetch url dest).world
  | .setup web l artifacts => ({ w with web }.setup l.val artifacts).world

/-- The world after some attempts. -/
def attempts (w : World) (as : List (Attempt dir)) : World := as.foldl attempt w

/-! ## Section 2: One attempt -/

/-- Where the directory is refused, so is every installation into it. -/
theorem setup_of_refuses (w : World) (l : LayoutAt dir) (artifacts : Artifacts)
    (h : w.tree.Refuses w.cwd dir) : RefusedAtOnce w dir (w.setup l.val artifacts) := by
  obtain ⟨l, rfl⟩ := l
  have hrefuses : w.tree.Refuses w.site.cwd l.installDir := h
  obtain ⟨e, hfirst⟩ := Job.advance_installation_of_refuses hrefuses artifacts
  have hfinish : (Job.installation l artifacts).finish w.site w.tree
      = ((Job.installation l artifacts).fail (.makeDirectory l.installDir e), w.tree) := by
    rw [← Job.finish_advanceBy w.site 1, Job.advanceBy_succ, hfirst]
    exact Job.finish_done w.site w.tree rfl
  unfold setup doJob
  rw [hfinish]
  exact ⟨⟨e, rfl, rfl⟩, rfl, rfl⟩

/-- After an installation the directory is refused, whatever came of it. -/
theorem refuses_setup (w : World) (l : LayoutAt dir) (artifacts : Artifacts) :
    (w.setup l.val artifacts).world.tree.Refuses w.cwd dir := by
  obtain ⟨l, rfl⟩ := l
  -- it has nine steps, and stops earlier if one fails
  exact Job.refuses_advanceBy_installation w.site l artifacts w.tree 8

/-- A download does not make room for the directory. -/
theorem refuses_fetch (w : World) (url : Url) (dest : Path) (h : w.tree.Refuses w.cwd dir) :
    (w.fetch url dest).world.tree.Refuses w.cwd dir := by
  have hsteps : ∀ path, .makeDirectory path ∉ (Job.download url dest).pending := by
    simp [Job.download, Job.downloadSteps, Job.ofSteps]
  have hgains : w.tree.GainsFiles ((Job.download url dest).finish w.site w.tree).2 :=
    Job.advanceBy_gainsFiles w.site _ w.tree hsteps
  exact Tree.makeDirectory_refused_of_gainsFiles hgains h

theorem attempt_cwd (w : World) (a : Attempt dir) : (w.attempt a).cwd = w.cwd := by
  cases a <;> rfl

theorem refuses_attempt (w : World) (a : Attempt dir) (h : w.tree.Refuses w.cwd dir) :
    (w.attempt a).tree.Refuses (w.attempt a).cwd dir := by
  rw [attempt_cwd]
  cases a with
  | fetch web url dest => exact refuses_fetch { w with web } url dest h
  | setup web l artifacts => exact refuses_setup { w with web } l artifacts

/-! ## Section 3: Any history -/

theorem refuses_attempts (w : World) (as : List (Attempt dir)) (h : w.tree.Refuses w.cwd dir) :
    (w.attempts as).tree.Refuses (w.attempts as).cwd dir := by
  induction as generalizing w with
  | nil => exact h
  | cons a as ih => exact ih (w.attempt a) (w.refuses_attempt a h)

/-- After a first installation into a directory, and after any attempts
    that follow, every further installation into it is refused at once. -/
theorem setup_refused_after_setup (w : World) (first : Web) (l : LayoutAt dir)
    (artifacts : Artifacts) (between : List (Attempt dir)) (last : Web) (l' : LayoutAt dir)
    (artifacts' : Artifacts) :
    let w' := { (w.attempts (.setup first l artifacts :: between)) with web := last }
    RefusedAtOnce w' dir (w'.setup l'.val artifacts') := by
  intro w'
  have hfirst := refuses_setup { w with web := first } l artifacts
  have hbetween := refuses_attempts _ between hfirst
  exact setup_of_refuses w' l' artifacts' hbetween

end World

end TestRig
