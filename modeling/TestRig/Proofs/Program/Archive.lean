import TestRig.Proofs.Job.Parts
import TestRig.Proofs.Program.Refinement

/-! # What is installed is what runs

    The installer and the two commands that start the runner each work out
    the path of its archive for themselves. They agree on it, and what the
    path leads to is the archive as it was served: a download of the
    coverage plugin cannot replace it, and neither can any later download
    to another place.

    The invariant of later downloads is that the path leads to the file
    (`Downloads.look_file`): a download adds no links and no directories,
    so no path goes another way, and its own path leads elsewhere, so the
    file stays as it is. -/

namespace TestRig

/-! ## Section 1: Downloads that leave a file alone -/

section downloads

variable {site : Site} {url : Url} {dest : Path} {t t' : Tree} {failure : Option Failure}
  {cwd p : Place} {path : Path} {content : Bytes} {executable : Bool}

/-- A path that leads to a file still does after a download to another
    place. -/
theorem Downloads.look_file (h : Downloads site url dest t failure t')
    (hlook : t.look cwd path = .ok (p, .file content executable))
    (hpast : ∀ n, t.look site.cwd dest ≠ .ok (p, n)) :
    t'.look cwd path = .ok (p, .file content executable) := by
  rcases h.tree_eq with rfl | ⟨r, q, -, hq, rfl⟩
  · exact hlook
  · have hp : t.nodeAt p = some (.file content executable) := Tree.nodeAt_of_look hlook
    -- had it been created over the file, its path would have led there
    have hne : q ≠ p := by
      rintro rfl
      exact hpast _ (Tree.look_of_filePlace hq hp)
    have htakes : t.TakesFile q := Tree.filePlace_spec hq
    have hstays : (t.put q (.file r.body (t.modeAt q))).nodeAt p
        = some (.file content executable) := by
      rw [Tree.nodeAt_put_of_ne (htakes.admits _) hne, hp]
    exact Tree.look_file_of_grows (htakes.gainsFiles_put _ _).grows hlook hstays

end downloads

/-- The second tree comes from the first one by downloads, none of them to
    what is at `p`. Each of them may be done in a world of its own. -/
inductive FetchedPast (p : Place) (t : Tree) : Tree → Prop where
  | none : FetchedPast p t t
  | fetch {w : World} {url : Url} {dest : Path} :
      FetchedPast p t w.tree → (∀ n, w.tree.look w.cwd dest ≠ .ok (p, n)) →
      FetchedPast p t (w.fetch url dest).world.tree

/-- No such downloads take a file away from a path. -/
theorem FetchedPast.look_file {p : Place} {t t' : Tree} (h : FetchedPast p t t') {cwd : Place}
    {path : Path} {content : Bytes} {executable : Bool}
    (hlook : t.look cwd path = .ok (p, .file content executable)) :
    t'.look cwd path = .ok (p, .file content executable) := by
  induction h with
  | none => exact hlook
  | @fetch w url dest _ hpast ih =>
    obtain ⟨failure, t', hdownloads⟩ := w.fetch_downloads url dest
    obtain ⟨n, hfetch⟩ := World.fetch_eq_of_downloads hdownloads
    rw [hfetch]
    exact hdownloads.look_file ih hpast

/-! ## Section 2: The archive that the command lines name -/

/-- Both command lines of the layout name one path after the archive flag,
    and it leads to the file at `p`, which holds `content`. -/
def NamesArchive (l : Layout) (t : Tree) (cwd p : Place) (content : Bytes) : Prop :=
  ∃ path, wordAfter CommandLine.archiveFlag (CommandLine.server l).argv = some path ∧
    wordAfter CommandLine.archiveFlag (CommandLine.tests l).argv = some path ∧
    t.look cwd path = .ok (p, .file content false)

/-- The run starts one child, if a program is found for it, and the path
    that it hands over after the archive flag leads the child to a file that
    holds `content`. -/
def HandsOver (w : World) (args : List Bytes) (c : Command) (content : Bytes) : Prop :=
  ∃ line path p, c.line? w.projectLayout = some line ∧
    (w.runProgram args).transcript.children
      = (if (w.resolveProgram line).isOk then [line.argv] else []) ∧
    wordAfter CommandLine.archiveFlag line.argv = some path ∧
    w.scene.tree.look w.scene.cwd path = .ok (p, .file content false)

theorem namesArchive_of_look {l : Layout} {t : Tree} {cwd p : Place} {content : Bytes}
    (h : t.look cwd l.runnerJar = .ok (p, .file content false)) :
    NamesArchive l t cwd p content := by
  have hserver : Command.runserver.line? l = some (.server l) := rfl
  have htests : Command.runtests.line? l = some (.tests l) := rfl
  exact ⟨l.runnerJar, Command.wordAfter_line hserver, Command.wordAfter_line htests, h⟩

namespace World

variable {w : World} {args : List Bytes} {c : Command} {p : Place} {content : Bytes}

theorem handsOver_of_look (hselect : select args = .run c) (hc : c ≠ .setup)
    (hdir : w.tree.hasDirectory w.cwd)
    (hlook : w.tree.look w.cwd w.projectLayout.runnerJar = .ok (p, .file content false)) :
    HandsOver w args c content := by
  cases hline : c.line? w.projectLayout with
  | none => exact absurd (Command.eq_setup_of_line? hline) hc
  | some line =>
    refine ⟨line, _, p, hline, ?_, Command.wordAfter_line hline, hlook⟩
    rw [(sameEffects_runProgram hselect hdir).children]
    exact children_runOn_of_line hline

/-! ## Section 3: After an installation -/

/-- The directory that a run installs into is still there afterwards, and
    the archive of the runner is in it. -/
theorem look_of_runProgram (hselect : select args = .run .setup)
    (hstatus : (w.runProgram args).status = 0) :
    (w.runProgram args).world.tree.hasDirectory w.cwd ∧
      ∃ p r, w.web.Delivers Artifacts.release.runner r ∧ r.complete ∧
        (w.runProgram args).world.tree.look w.cwd w.projectLayout.runnerJar
          = .ok (p, .file r.body false) := by
  obtain ⟨hdir, hok⟩ := (runProgram_status_eq_zero_iff hselect).mp hstatus
  obtain ⟨-, hclient, hsetup⟩ := runOn_setup_eq_ok_iff.mp hok
  obtain ⟨d, runner, coverage, hi⟩ := (status_eq_zero_iff_installed hselect).mp hstatus
  refine ⟨hi.gains.grows.hasDirectory hdir, ?_⟩
  rw [(sameEffects_runProgram hselect hdir).world, runOn_setup_of_client hclient]
  exact look_of_setup hsetup

/-- What an installation leaves under the path that the command lines name
    is the runner as it was served, and it stays there. A run of the program
    that starts the runner next starts just that. -/
theorem setup_installs_what_runs (w : World) :
    (∀ root artifacts,
      (w.setup (Layout.resolve root artifacts) artifacts).result = .ok () →
      ∃ p r, w.web.Delivers artifacts.runner r ∧ r.complete ∧
        ∀ t, FetchedPast p (w.setup (Layout.resolve root artifacts) artifacts).world.tree t →
          NamesArchive (Layout.resolve root artifacts) t w.cwd p r.body) ∧
    (∀ args, select args = .run .setup → (w.runProgram args).status = 0 →
      ∃ r, w.web.Delivers Artifacts.release.runner r ∧ r.complete ∧
        ∀ (w' : World) (args' : List Bytes) (c : Command),
          w'.tree = (w.runProgram args).world.tree → w'.cwd = w.cwd →
          select args' = .run c → c ≠ .setup → HandsOver w' args' c r.body) := by
  constructor
  · intro root artifacts hok
    obtain ⟨p, r, hserved, hcomplete, hlook⟩ := look_of_setup hok
    refine ⟨p, r, hserved, hcomplete, ?_⟩
    intro t ht
    exact namesArchive_of_look (ht.look_file hlook)
  · intro args hselect hstatus
    obtain ⟨hdir, p, r, hserved, hcomplete, hlook⟩ := look_of_runProgram hselect hstatus
    refine ⟨r, hserved, hcomplete, ?_⟩
    intro w' args' c htree hcwd hselect' hc
    -- the later run sees the same tree from the same directory
    rw [← htree, ← hcwd] at hdir
    have hlayout : w'.projectLayout = w.projectLayout := by
      unfold projectLayout
      rw [hcwd]
    rw [← htree, ← hcwd, ← hlayout] at hlook
    exact handsOver_of_look hselect' hc hdir hlook

/-- A world in the root of a tree with nothing in it but the program that
    the runner needs. Every address serves the same archive. -/
def serving : World where
  tree := Tree.bare.put [CommandLine.java] (.file (text "#!/bin/sh\nexit 0\n") true)
  cwd := []
  searchPath := [[slash]]
  web := ⟨.plain, fun _ => .answered (.served 200 none (text "archive") none)⟩
  stdin := []
  behaviour := fun _ _ scene => ⟨.ofExit 0, scene.tree, scene.stdin, [], []⟩

/-- There the program installs, and its next run starts a child with a path
    to what was served. -/
theorem serving_hands_over :
    let exit := serving.runProgram [text "testrig", text "setup"]
    let w' := { serving with tree := exit.world.tree }
    exit.status = 0 ∧
      (∃ r, serving.web.Delivers Artifacts.release.runner r ∧ r.complete ∧
        HandsOver w' [text "testrig", text "runtests"] .runtests r.body) ∧
      (w'.runProgram [text "testrig", text "runtests"]).transcript.children.map (·.take 3)
        = [[text "java", text "-jar", text "/jstestdriver/JsTestDriver-1.3.3c.jar"]] ∧
      w'.tree.look [] (text "/jstestdriver/JsTestDriver-1.3.3c.jar")
        = .ok ([text "jstestdriver", text "JsTestDriver-1.3.3c.jar"],
            .file (text "archive") false) := by
  intro exit w'
  have hselect : select [text "testrig", text "setup"] = .run .setup := by decide +kernel
  have hselect' : select [text "testrig", text "runtests"] = .run .runtests := by decide +kernel
  have hstatus : exit.status = 0 := by decide +kernel
  obtain ⟨r, hserved, hcomplete, hnext⟩ :=
    (setup_installs_what_runs serving).2 _ hselect hstatus
  have hhands := hnext w' _ _ rfl rfl hselect' (by decide)
  exact ⟨hstatus, ⟨r, hserved, hcomplete, hhands⟩, by decide +kernel, by rfl⟩

end World

end TestRig
