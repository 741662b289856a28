import TestRig.Proofs.Program.Selection
import TestRig.Proofs.Setup.Transcript
import TestRig.Proofs.Tree.Account

/-! # What a history of runs leaves behind

    Any number of downloads and installations, with runs in between that
    only read, are done one after the other in one directory. Each of them
    may see another web, and whatever one of them leaves in the tree, links
    that lead elsewhere included, decides what the next ones find.

    Nothing is ever lost that way, and everything that is new comes from one
    of the actions: a directory is one that an installation makes, and a
    file holds what arrived for one of the downloads.

    * `World.Begins`: the downloads that an action gets to, with the tree in
      which each of them begins.
    * `World.act_accounts`, `World.acts_accounts`: the account of one action,
      and of any number of them.
    * `OnlyGrows`: what this says about the entries of the two trees. -/

namespace TestRig

open TestRig.Tree

/-! ## Section 1: Actions -/

/-- What may be done in a directory, apart from starting children. -/
inductive Action where
  | fetch (url : Url) (dest : Path)
  | setup (l : Layout) (artifacts : Artifacts)
  /-- Work out the layout of the current directory. -/
  | locate (artifacts : Artifacts)
  /-- Run the program with arguments that select no command. -/
  | usage (args : { args : List Bytes // select args = .showUsage })

/-- The directories that an action may make. -/
def Action.directories : Action → List Path
  | .setup l _ => [l.installDir, l.pluginsDir]
  | _ => []

/-- A download as it is begun: what is asked for in which web, and where it
    goes in which tree. -/
structure Download where
  web : Web
  url : Url
  dest : Path
  tree : Tree

namespace World

/-- Work out the layout of the current directory. -/
def locate (w : World) (artifacts : Artifacts) : Outcome Layout :=
  ⟨w.currentLayout artifacts, w, .silent⟩

/-- The world after an action. -/
def act (w : World) : Action → World
  | .fetch url dest => (w.fetch url dest).world
  | .setup l artifacts => (w.setup l artifacts).world
  | .locate artifacts => (w.locate artifacts).world
  | .usage args => (w.runProgram args.val).world

/-- The world after some actions, each of which sees a web of its own. -/
def acts (w : World) (as : List (Web × Action)) : World :=
  as.foldl (fun w a => { w with web := a.1 }.act a.2) w

/-- The downloads that an action gets to. An installation gets to the first
    one with its directories, and to the second one with the runner. -/
inductive Begins (w : World) : Action → Download → Prop where
  | fetch {url dest} : Begins w (.fetch url dest) ⟨w.web, url, dest, w.tree⟩
  | runner {l artifacts t} :
      w.MakesDirectories l t →
      Begins w (.setup l artifacts) ⟨w.web, artifacts.runner, l.runnerJar, t⟩
  | coverage {l artifacts t n} :
      w.MakesDirectories l t → (w.fetchRunner l artifacts t).result = .ok n →
      Begins w (.setup l artifacts)
        ⟨w.web, artifacts.coverage, l.coverageJar, (w.fetchRunner l artifacts t).world.tree⟩

/-- One of the actions gets to the download. -/
def BeginsIn (w : World) (as : List (Web × Action)) (d : Download) : Prop :=
  ∃ before web a after, as = before ++ (web, a) :: after ∧ { w.acts before with web }.Begins a d

end World

/-- The download filled the file at `p` with `content`. A response that
    reports success brought it, the destination led to that place when the
    download was begun, and it leads there in the tree `t`. -/
structure Download.Filled (d : Download) (cwd : Place) (t : Tree) (p : Place) (content : Bytes) :
    Prop where
  delivered : ∃ r, d.web.Delivers d.url r ∧ r.body = content
  place : d.tree.filePlace cwd d.dest = .ok p
  found : t.FindsFile cwd d.dest p

theorem Download.Filled.of_grows {d : Download} {cwd p : Place} {t t' : Tree} {content : Bytes}
    (hf : d.Filled cwd t p content) (h : t.Grows t') : d.Filled cwd t' p content :=
  ⟨hf.delivered, hf.place, hf.found.of_grows h⟩

/-! ## Section 2: The account of one action -/

section edits

variable {site : Site} {url : Url} {dest : Path} {l : Layout} {t t₁ t₂ t' last : Tree}
  {failure : Option Failure} {made : Place → Prop} {wrote : Place → Bytes → Prop}

/-- A download accounts for one file at most. -/
theorem Downloads.accounts (h : Downloads site url dest t failure t') (hlast : t'.Grows last) :
    Accounts made (Download.Filled ⟨site.web, url, dest, t⟩ site.cwd last) t t' := by
  rcases h.tree_eq with rfl | ⟨r, p, hr, hp, rfl⟩
  · exact .refl _
  · refine (accounts_put_file (filePlace_spec hp) r.body (t.modeAt p)).mono (fun _ h => h) ?_
    intro q content hwrote
    obtain ⟨rfl, rfl⟩ := hwrote
    have hfinds : (t.put q (.file r.body (t.modeAt q))).FindsFile site.cwd dest q :=
      ⟨_, _, look_put_of_filePlace hp _ _⟩
    exact ⟨⟨r, hr, rfl⟩, hp, hfinds.of_grows hlast⟩

theorem Downloads.grows (h : Downloads site url dest t failure t') : t.Grows t' := by
  have haccounts : Accounts (fun _ => False) _ t t' := h.accounts (.refl t')
  exact haccounts.grows

/-- The two directories of an installation account for themselves. -/
theorem accounts_directories {cwd : Place} (h₁ : t.makeDirectory cwd l.installDir = .ok t₁)
    (h₂ : t₁.makeDirectory cwd l.pluginsDir = .ok t₂) (hlast : t₂.Grows last) :
    Accounts
      (fun p => ∃ path ∈ [l.installDir, l.pluginsDir], last.look cwd path = .ok (p, .directory))
      wrote t t₂ := by
  have hgrows : t₁.Grows last := (grows_makeDirectory h₂).trans hlast
  refine Accounts.trans (?_ : Accounts _ _ t t₁) ?_
  · refine (accounts_makeDirectory h₁).mono ?_ (fun _ _ h => h)
    intro p hlook
    exact ⟨l.installDir, by simp, look_directory_of_grows hgrows hlook⟩
  · refine (accounts_makeDirectory h₂).mono ?_ (fun _ _ h => h)
    intro p hlook
    exact ⟨l.pluginsDir, by simp, look_directory_of_grows hlast hlook⟩

end edits

namespace World

variable {w : World} {l : Layout} {artifacts : Artifacts} {t t₂ t₃ t' : Tree}

/-- With the runner in place, an installation gets to the coverage plugin. -/
theorem begins_coverage (hdirs : w.MakesDirectories l t₂)
    (hrunner : Downloads w.site artifacts.runner l.runnerJar t₂ none t₃) :
    w.Begins (.setup l artifacts) ⟨w.web, artifacts.coverage, l.coverageJar, t₃⟩ := by
  obtain ⟨n, hfetch⟩ := fetch_eq_of_downloads (w := { w with tree := t₂ }) hrunner
  have hok : (w.fetchRunner l artifacts t₂).result = .ok n := by
    rw [fetchRunner, hfetch]
    rfl
  have hbegins : w.Begins (.setup l artifacts) _ := .coverage hdirs hok
  rw [fetchRunner, hfetch] at hbegins
  exact hbegins

/-- What is new after an action. -/
def NewAfter (w : World) (a : Action) (t : Tree) : Prop :=
  Accounts (fun p => ∃ path ∈ a.directories, t.look w.cwd path = .ok (p, .directory))
    (fun p content => ∃ d, w.Begins a d ∧ d.Filled w.cwd t p content) w.tree t

/-- With both directories made, an installation accounts for what its
    downloads leave. -/
theorem newAfter_of_runner {failure : Option Failure} {t₁ : Tree}
    (h₁ : w.tree.makeDirectory w.cwd l.installDir = .ok t₁)
    (h₂ : t₁.makeDirectory w.cwd l.pluginsDir = .ok t₂)
    (hrunner : Downloads w.site artifacts.runner l.runnerJar t₂ none t₃)
    (hcoverage : Downloads w.site artifacts.coverage l.coverageJar t₃ failure t') :
    w.NewAfter (.setup l artifacts) t' := by
  have hdirs : w.MakesDirectories l t₂ := ⟨t₁, h₁, h₂⟩
  have hgrows : t₃.Grows t' := hcoverage.grows
  refine (accounts_directories h₁ h₂ (hrunner.grows.trans hgrows)).trans ?_
  refine Accounts.trans (?_ : Accounts _ _ t₂ t₃) ?_
  · refine (hrunner.accounts hgrows).mono (fun _ h => h) ?_
    intro p content hfilled
    exact ⟨_, .runner hdirs, hfilled⟩
  · refine (hcoverage.accounts (.refl t')).mono (fun _ h => h) ?_
    intro p content hfilled
    exact ⟨_, begins_coverage hdirs hrunner, hfilled⟩

theorem newAfter_setup (w : World) (l : Layout) (artifacts : Artifacts) :
    w.NewAfter (.setup l artifacts) (w.setup l artifacts).world.tree := by
  obtain ⟨failure, h, -⟩ := w.setup_installs l artifacts
  generalize (w.setup l artifacts).world.tree = t' at h ⊢
  cases h with
  | noInstallDir => exact .refl _
  | noPluginsDir h₁ =>
    refine (accounts_makeDirectory h₁).mono ?_ (fun _ _ h => h)
    intro p hlook
    exact ⟨l.installDir, by simp [Action.directories], hlook⟩
  | noRunner h₁ h₂ hrunner =>
    refine (accounts_directories h₁ h₂ hrunner.grows).trans ?_
    refine (hrunner.accounts (.refl t')).mono (fun _ h => h) ?_
    intro p content hfilled
    exact ⟨_, .runner ⟨_, h₁, h₂⟩, hfilled⟩
  | noCoverage h₁ h₂ hrunner hcoverage => exact newAfter_of_runner h₁ h₂ hrunner hcoverage
  | complete h₁ h₂ hrunner hcoverage => exact newAfter_of_runner h₁ h₂ hrunner hcoverage

theorem newAfter_fetch (w : World) (url : Url) (dest : Path) :
    w.NewAfter (.fetch url dest) (w.fetch url dest).world.tree := by
  obtain ⟨failure, t', h⟩ := w.fetch_downloads url dest
  obtain ⟨n, hfetch⟩ := fetch_eq_of_downloads h
  rw [hfetch]
  refine (h.accounts (.refl t')).mono (fun _ h => h) ?_
  intro p content hfilled
  exact ⟨_, .fetch, hfilled⟩

/-- Every action accounts for what is new after it. -/
theorem act_accounts (w : World) (a : Action) : w.NewAfter a (w.act a).tree := by
  cases a with
  | fetch url dest => exact w.newAfter_fetch url dest
  | setup l artifacts => exact w.newAfter_setup l artifacts
  | locate artifacts => exact .refl _
  | usage args =>
    have hworld : w.act (.usage args) = w := by
      show (w.runProgram args.val).world = w
      rw [runProgram_of_showUsage args.property]
    rw [hworld]
    exact .refl _

/-! ## Section 3: The account of a history -/

theorem act_cwd (w : World) (a : Action) : (w.act a).cwd = w.cwd := by
  cases a with
  | fetch => rfl
  | setup => rfl
  | locate => rfl
  | usage args =>
    show (w.runProgram args.val).world.cwd = w.cwd
    rw [runProgram_of_showUsage args.property]

/-- What is new after some actions. The induction is on the actions; what
    the first one left is still found where it was in the last tree. -/
theorem acts_accounts (w : World) (as : List (Web × Action)) :
    Accounts
      (fun p => ∃ a ∈ as, ∃ path ∈ a.2.directories,
        (w.acts as).tree.look w.cwd path = .ok (p, .directory))
      (fun p content => ∃ d, w.BeginsIn as d ∧ d.Filled w.cwd (w.acts as).tree p content)
      w.tree (w.acts as).tree := by
  induction as generalizing w with
  | nil => exact .refl _
  | cons a as ih =>
    obtain ⟨web, a⟩ := a
    have hfirst := act_accounts { w with web } a
    have hrest := ih ({ w with web }.act a)
    have hcwd : ({ w with web }.act a).cwd = w.cwd := act_cwd { w with web } a
    rw [hcwd] at hrest
    have hacts : w.acts ((web, a) :: as) = ({ w with web }.act a).acts as := rfl
    rw [hacts]
    refine (hfirst.mono ?_ ?_).trans (hrest.mono ?_ ?_)
    · intro p hmade
      obtain ⟨path, hpath, hlook⟩ := hmade
      exact ⟨_, List.mem_cons_self, path, hpath, look_directory_of_grows hrest.grows hlook⟩
    · intro p content hwrote
      obtain ⟨d, hbegins, hfilled⟩ := hwrote
      exact ⟨d, ⟨[], web, a, as, rfl, hbegins⟩, hfilled.of_grows hrest.grows⟩
    · intro p hmade
      obtain ⟨b, hb, path, hpath, hlook⟩ := hmade
      exact ⟨b, List.mem_cons_of_mem _ hb, path, hpath, hlook⟩
    · intro p content hwrote
      obtain ⟨d, ⟨before, web', b, after, has, hbegins⟩, hfilled⟩ := hwrote
      refine ⟨d, ⟨(web, a) :: before, web', b, after, ?_, hbegins⟩, hfilled⟩
      rw [has, List.cons_append]

end World

/-! ## Section 4: The two trees -/

/-- The tree after some actions in the world `w` is the tree before them,
    grown by what the actions made. -/
structure OnlyGrows (w : World) (as : List (Web × Action)) : Prop where
  /-- Every entry is still there, of the same kind, and a link with the same
      target. -/
  kept : ∀ p n, w.tree.nodeAt p = some n →
    ∃ n', n'.kind = n.kind ∧ (w.acts as).tree.nodeAt p = some n'
  /-- A new directory is one of those that an installation makes. -/
  newDirectory : ∀ p, w.tree.nodeAt p = none → (w.acts as).tree.hasDirectory p →
    ∃ a ∈ as, ∃ l artifacts, a.2 = .setup l artifacts ∧
      ∃ path ∈ [l.installDir, l.pluginsDir],
        (w.acts as).tree.look w.cwd path = .ok (p, .directory)
  /-- A new file is where the destination of one of the downloads leads, and
      holds what a successful response brought for it. -/
  newFile : ∀ p content executable, w.tree.nodeAt p = none →
    (w.acts as).tree.nodeAt p = some (.file content executable) →
    ∃ d, w.BeginsIn as d ∧ d.Filled w.cwd (w.acts as).tree p content
  /-- There are no new links. -/
  newLink : ∀ p target, w.tree.nodeAt p = none →
    (w.acts as).tree.nodeAt p ≠ some (.link target)
  /-- A file that holds something else than before is where the destination of
      such a download leads, too. -/
  changed : ∀ p old new executable executable', w.tree.nodeAt p = some (.file old executable) →
    (w.acts as).tree.nodeAt p = some (.file new executable') → new ≠ old →
    ∃ d, w.BeginsIn as d ∧ d.Filled w.cwd (w.acts as).tree p new

/-- The tree only ever grows, whatever is done and however it ends. -/
theorem World.acts_only_grow (w : World) (as : List (Web × Action)) : OnlyGrows w as where
  kept := by
    intro p n hp
    exact (w.acts_accounts as).grows.node hp
  newDirectory := by
    intro p hfree hdir
    rcases (w.acts_accounts as).directories p hdir with hold | ⟨a, ha, path, hpath, hlook⟩
    · rw [hasDirectory, hfree] at hold
      cases hold
    · refine ⟨a, ha, ?_⟩
      -- only an installation may make directories
      cases hact : a.2 with
      | setup l artifacts =>
        rw [hact] at hpath
        exact ⟨l, artifacts, rfl, path, hpath, hlook⟩
      | fetch => rw [hact] at hpath; cases hpath
      | locate => rw [hact] at hpath; cases hpath
      | usage => rw [hact] at hpath; cases hpath
  newFile := by
    intro p content executable hfree hfile
    rcases (w.acts_accounts as).files p content executable hfile with hold | hfilled
    · rw [hfree] at hold
      cases hold
    · exact hfilled
  newLink := by
    intro p target hfree hlink
    have hold := (w.acts_accounts as).links p target hlink
    rw [hfree] at hold
    cases hold
  changed := by
    intro p old new executable executable' hold hfile hne
    rcases (w.acts_accounts as).files p new executable' hfile with hsame | hfilled
    · rw [hold] at hsame
      cases hsame
      exact absurd rfl hne
    · exact hfilled

end TestRig
