import TestRig.Proofs.Job.Ending

/-! # An installation as its parts

    An installation is one job, but it can also be read as runs that are
    done one after the other (`Outcome.andThen`), each with a transcript of
    its own. `setup_of_directories` says so: once the directories are made,
    what is left is a download, another download in the world that the
    first one leaves, and a last word. Each of them begins only if the one
    before it did not fail.

    `fetch_eq_of_downloads` gives the whole outcome of a download, so what
    an installation asks for and prints follows from which of its parts
    failed. -/

namespace TestRig

/-! ## Section 1: One run after the other -/

namespace Outcome

variable {α β : Type}

/-- One run after the other, which is not begun if the first one failed. -/
def andThen (o : Outcome α) (next : World → Outcome β) : Outcome β :=
  match o.result with
  | .error f => ⟨.error f, o.world, o.transcript⟩
  | .ok _ => { next o.world with transcript := o.transcript.andThen (next o.world).transcript }

variable {o : Outcome α} {next : World → Outcome β}

theorem andThen_of_error {f : Failure} (h : o.result = .error f) :
    o.andThen next = ⟨.error f, o.world, o.transcript⟩ := by
  simp [andThen, h]

theorem andThen_of_ok {a : α} (h : o.result = .ok a) :
    o.andThen next
      = { next o.world with transcript := o.transcript.andThen (next o.world).transcript } := by
  simp [andThen, h]

end Outcome

/-! ## Section 2: A download as a run -/

/-- A download can end in one way only. -/
theorem Downloads.unique {site : Site} {url : Url} {dest : Path} {t t₁ t₂ : Tree}
    {failure failure' : Option Failure} (h : Downloads site url dest t failure t₁)
    (h' : Downloads site url dest t failure' t₂) : failure = failure' ∧ t₁ = t₂ := by
  -- both see the same response, and the same place for the file
  have hplace : ∀ {p q : Place}, t.filePlace site.cwd dest = .ok p →
      t.filePlace site.cwd dest = .ok q → p = q := fun hp hq => Except.ok.inj (hp.symm.trans hq)
  cases h with
  | unanswered hno =>
    cases h' with
    | unanswered => exact ⟨rfl, rfl⟩
    | unsuccessful hs => exact absurd hs (hno _)
    | uncreated hs => exact absurd hs (hno _)
    | cut hs => exact absurd hs (hno _)
    | complete hs => exact absurd hs (hno _)
  | unsuccessful hs hbad =>
    cases h' with
    | unanswered hno => exact absurd hs (hno _)
    | unsuccessful hs' => exact ⟨by rw [hs.unique hs'], rfl⟩
    | uncreated hs' hok => simp [hs.unique hs', hok] at hbad
    | cut hs' hok => simp [hs.unique hs', hok] at hbad
    | complete hs' hok => simp [hs.unique hs', hok] at hbad
  | uncreated hs hok hp =>
    cases h' with
    | unanswered hno => exact absurd hs (hno _)
    | unsuccessful hs' hbad => simp [hs'.unique hs, hok] at hbad
    | uncreated _ _ hp' =>
      rw [hp] at hp'
      cases hp'
      exact ⟨rfl, rfl⟩
    | cut _ _ hp' => simp [hp] at hp'
    | complete _ _ hp' => simp [hp] at hp'
  | cut hs hok hp hcut =>
    cases h' with
    | unanswered hno => exact absurd hs (hno _)
    | unsuccessful hs' hbad => simp [hs'.unique hs, hok] at hbad
    | uncreated _ _ hp' => simp [hp] at hp'
    | cut hs' _ hp' =>
      obtain rfl := hs.unique hs'
      obtain rfl := hplace hp hp'
      exact ⟨rfl, rfl⟩
    | complete hs' _ _ hall => simp [hs'.unique hs, hcut] at hall
  | complete hs hok hp hall =>
    cases h' with
    | unanswered hno => exact absurd hs (hno _)
    | unsuccessful hs' hbad => simp [hs'.unique hs, hok] at hbad
    | uncreated _ _ hp' => simp [hp] at hp'
    | cut hs' _ _ hcut => simp [hs'.unique hs, hall] at hcut
    | complete hs' _ hp' =>
      obtain rfl := hs.unique hs'
      obtain rfl := hplace hp hp'
      exact ⟨rfl, rfl⟩

namespace Job

/-- The line for a URL, byte for byte. -/
theorem downloadLine_eq (url : Url) :
    downloadLine url = text "📥 Downloading " ++ url ++ text "\n" := by
  have hend : text "\n" = [newline] := by decide +kernel
  rw [downloadLine, hend]

/-- The last word of an installation, with an empty line before it. -/
theorem installedLines_eq (dir : Path) :
    installedLines dir = text "\n✅ jstestdriver installed in " ++ lossy dir ++ text "\n" := by
  have hend : text "\n" = [newline] := by decide +kernel
  have hempty : text "\n✅ jstestdriver installed in "
      = newline :: text "✅ jstestdriver installed in " := by decide +kernel
  rw [installedLines, hend, hempty, List.cons_append, List.cons_append]

end Job

/-- A download is its steps and nothing after them. -/
theorem Job.pending_download (url : Url) (dest : Path) :
    (Job.download url dest).pending = Job.downloadSteps url dest ++ [] :=
  (List.append_nil _).symm

namespace World

/-- The outcome of a download, told from how it ends. The URL is announced
    and asked for however it ends. -/
theorem fetch_eq_of_downloads {w : World} {url : Url} {dest : Path} {failure : Option Failure}
    {t' : Tree} (h : Downloads w.site url dest w.tree failure t') :
    ∃ n, w.fetch url dest
      = ⟨failure.elim (.ok n) .error, { w with tree := t' },
          ⟨(w.web.exchange url).requests, Job.downloadLine url, [], []⟩⟩ := by
  obtain ⟨failure', t₁, h', j, hfail, hpending, hrequests, houtput, heq⟩ :=
    Job.finish_downloadSteps w.site w.tree (Job.pending_download url dest) rfl
  -- the steps end in a way of their own, which can only be the given one
  obtain ⟨rfl, rfl⟩ := h.unique h'
  have hdone : j.pending = [] := by simpa using hpending
  refine ⟨j.written, ?_⟩
  unfold fetch doJob
  rw [heq, Job.finish_done w.site t' hdone]
  simp only [hfail, hrequests, houtput]
  cases failure <;> rfl

theorem fetch_downloads (w : World) (url : Url) (dest : Path) :
    ∃ failure t', Downloads w.site url dest w.tree failure t' := by
  obtain ⟨failure, t', h, -⟩ :=
    Job.finish_downloadSteps w.site w.tree (Job.pending_download url dest) rfl
  exact ⟨failure, t', h⟩

/-! ## Section 3: An installation as runs -/

/-- Both directories of the layout can be made, and `t` is the tree then. -/
def MakesDirectories (w : World) (l : Layout) (t : Tree) : Prop :=
  ∃ t₁, w.tree.makeDirectory w.cwd l.installDir = .ok t₁ ∧
    t₁.makeDirectory w.cwd l.pluginsDir = .ok t

/-- Say that the installation in `dir` is complete. -/
def announce (w : World) (dir : Path) : Outcome Unit :=
  ⟨.ok (), w, .printed (Job.installedLines dir)⟩

@[simp] theorem site_cwd (w : World) : w.site.cwd = w.cwd := rfl

@[simp] theorem site_web (w : World) : w.site.web = w.web := rfl

/-- What a job that is over amounts to. -/
def settle (w : World) (ended : Job × Tree) : Outcome Unit where
  result := match ended.1.failure with
    | some f => .error f
    | none => .ok ()
  world := { w with tree := ended.2 }
  transcript := ⟨ended.1.requests, ended.1.output, [], []⟩

section setup

variable {w : World} {l : Layout} {artifacts : Artifacts} {t : Tree}

theorem setup_eq_settle (w : World) (l : Layout) (artifacts : Artifacts) :
    w.setup l artifacts = w.settle ((Job.installation l artifacts).finish w.site w.tree) := rfl

/-- Without its directories, an installation fails and has nothing to show
    for it. -/
theorem setup_of_no_directories (h : ∀ t, ¬ w.MakesDirectories l t) (artifacts : Artifacts) :
    ∃ f t, w.setup l artifacts = ⟨.error f, { w with tree := t }, .silent⟩ := by
  rw [setup_eq_settle, Job.finish_makeDirectory w.site w.tree rfl, site_cwd]
  cases h₁ : w.tree.makeDirectory w.cwd l.installDir with
  | error e => exact ⟨.makeDirectory l.installDir e, w.tree, rfl⟩
  | ok t₁ =>
    simp only
    rw [Job.finish_makeDirectory w.site t₁ rfl, site_cwd]
    cases h₂ : t₁.makeDirectory w.cwd l.pluginsDir with
    | error e => exact ⟨.makeDirectory l.pluginsDir e, t₁, rfl⟩
    | ok t₂ => exact absurd ⟨t₁, h₁, h₂⟩ (h t₂)

/-- A job that has the last word left says it. -/
theorem settle_announce {j : Job} {dir : Path} (hpending : j.pending = [.announce dir])
    (hfailure : j.failure = none) (t : Tree) :
    w.settle (j.finish w.site t)
      = ⟨.ok (), { w with tree := t }, ⟨j.requests, j.output ++ Job.installedLines dir, [], []⟩⟩ := by
  rw [Job.finish_cons w.site t hpending, Job.finish_done w.site _ rfl]
  simp [settle, Job.perform, hfailure]

/-- What is left of an installation once its directories are made. -/
theorem settle_downloads {j : Job}
    (hpending : j.pending = Job.downloadSteps artifacts.runner l.runnerJar
      ++ (Job.downloadSteps artifacts.coverage l.coverageJar ++ [.announce l.installDir]))
    (hfailure : j.failure = none) (hrequests : j.requests = []) (houtput : j.output = []) :
    w.settle (j.finish w.site t)
      = ({ w with tree := t }.fetch artifacts.runner l.runnerJar).andThen fun w₁ =>
          (w₁.fetch artifacts.coverage l.coverageJar).andThen fun w₂ => w₂.announce l.installDir := by
  obtain ⟨failure, t₃, hrunner, j₃, hfail₃, hpending₃, hrequests₃, houtput₃, hfinish₃⟩ :=
    Job.finish_downloadSteps w.site t hpending hfailure
  obtain ⟨n, hfetch⟩ := fetch_eq_of_downloads (w := { w with tree := t }) hrunner
  rw [hfinish₃, hfetch]
  cases failure with
  | some f =>
    -- the runner failed, so nothing is left to do
    have hdone : j₃.pending = [] := by simpa using hpending₃
    rw [Job.finish_done w.site t₃ hdone, Outcome.andThen_of_error rfl]
    simp [settle, hfail₃, hrequests₃, houtput₃, hrequests, houtput]
  | none =>
    obtain ⟨failure, t₄, hcoverage, j₄, hfail₄, hpending₄, hrequests₄, houtput₄, hfinish₄⟩ :=
      Job.finish_downloadSteps w.site t₃ (by simpa using hpending₃) hfail₃
    obtain ⟨m, hfetch'⟩ := fetch_eq_of_downloads (w := { w with tree := t₃ }) hcoverage
    rw [hfinish₄, Outcome.andThen_of_ok rfl, hfetch']
    -- on both sides the record so far is that of the two downloads
    cases failure with
    | some f =>
      have hdone : j₄.pending = [] := by simpa using hpending₄
      rw [Job.finish_done w.site t₄ hdone, Outcome.andThen_of_error rfl]
      simp [settle, Transcript.andThen, hfail₄, hrequests₄, houtput₄, hrequests₃, houtput₃,
        hrequests, houtput]
    | none =>
      have hlast : j₄.pending = [.announce l.installDir] := by simpa using hpending₄
      rw [settle_announce hlast hfail₄, Outcome.andThen_of_ok rfl]
      simp [announce, Transcript.andThen, Transcript.printed, hrequests₄, houtput₄, hrequests₃,
        houtput₃, hrequests, houtput]

/-- With its directories, an installation is its two downloads and a last
    word. -/
theorem setup_of_directories (h : w.MakesDirectories l t) (artifacts : Artifacts) :
    w.setup l artifacts
      = ({ w with tree := t }.fetch artifacts.runner l.runnerJar).andThen fun w₁ =>
          (w₁.fetch artifacts.coverage l.coverageJar).andThen fun w₂ => w₂.announce l.installDir := by
  obtain ⟨t₁, h₁, h₂⟩ := h
  rw [setup_eq_settle, Job.finish_makeDirectory w.site w.tree rfl, site_cwd, h₁]
  simp only
  rw [Job.finish_makeDirectory w.site t₁ rfl, site_cwd, h₂]
  exact settle_downloads rfl rfl rfl rfl

end setup

end World

end TestRig
