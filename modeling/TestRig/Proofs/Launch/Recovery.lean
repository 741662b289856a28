import TestRig.CommandLine
import TestRig.Proofs.Layout.Paths
import TestRig.Proofs.Text.WellFormed

/-! # What a command line tells about its project

    Two projects are launched with the same words exactly when their roots
    are the same directory by spelling, up to a separator at the end, and
    the files of the runner have the same name. The configuration tells the
    root, since its name is fixed, and with the root known the archive tells
    its own name.

    * `server_eq_iff`, `tests_eq_iff`: a command line is its two paths, and
      `Layout.paths_eq_iff` says what these are made of.
    * `LineTells`: what this says about two projects, and `line_tells`: that
      it holds of any two. -/

namespace TestRig

namespace CommandLine

theorem server_eq_iff {l m : Layout} :
    server l = server m ↔ l.runnerJar = m.runnerJar ∧ l.configFile = m.configFile := by
  simp [server]

theorem tests_eq_iff {l m : Layout} :
    tests l = tests m ↔ l.runnerJar = m.runnerJar ∧ l.configFile = m.configFile := by
  simp [tests]

open Layout (resolve)

/-- What the command lines tell about the project at `r` with the archives
    `a` and about the one at `s` with the archives `b`. -/
structure LineTells (r s : Path) (a b : Artifacts) : Prop where
  /-- Both command lines tell the same. -/
  alike : server (resolve r a) = server (resolve s b) ↔ tests (resolve r a) = tests (resolve s b)
  /-- They tell the root, as a directory, and the name of the runner. -/
  exactly : tests (resolve r a) = tests (resolve s b) ↔
    r.asDirectory = s.asDirectory ∧ fileName a.runner = fileName b.runner
  /-- With the same command line all paths but one are the same. -/
  paths : server (resolve r a) = server (resolve s b) →
    (resolve r a).installDir = (resolve s b).installDir ∧
      (resolve r a).pluginsDir = (resolve s b).pluginsDir ∧
      (resolve r a).runnerJar = (resolve s b).runnerJar ∧
      (resolve r a).configFile = (resolve s b).configFile
  /-- From where the other archive is served makes no difference. -/
  anyCoverage : ∀ url : Url,
    server (resolve r { a with coverage := url }) = server (resolve r a) ∧
      tests (resolve r { a with coverage := url }) = tests (resolve r a)
  /-- Bytes that cannot be shown are told apart all the same. -/
  illFormed : DifferInIllFormed r s →
    server (resolve r a) ≠ server (resolve s b) ∧ tests (resolve r a) ≠ tests (resolve s b)

theorem line_tells (r s : Path) (a b : Artifacts) : LineTells r s a b := by
  have hserver : server (resolve r a) = server (resolve s b) ↔
      r.asDirectory = s.asDirectory ∧ fileName a.runner = fileName b.runner :=
    server_eq_iff.trans Layout.paths_eq_iff
  have htests : tests (resolve r a) = tests (resolve s b) ↔
      r.asDirectory = s.asDirectory ∧ fileName a.runner = fileName b.runner :=
    tests_eq_iff.trans Layout.paths_eq_iff
  refine ⟨hserver.trans htests.symm, htests, ?paths, fun _ => ⟨rfl, rfl⟩, ?illFormed⟩
  case paths =>
    intro h
    obtain ⟨hinstall, hplugins⟩ := Layout.directories_eq (hserver.mp h).1
    exact ⟨hinstall, hplugins, server_eq_iff.mp h⟩
  case illFormed =>
    intro hdiffer
    -- a separator is well formed, so neither root has more of them
    have hcount : r.count slash = s.count slash := hdiffer.count_eq (by decide)
    have hroots : r.asDirectory ≠ s.asDirectory := by
      intro h
      exact hdiffer.1 (Path.eq_of_asDirectory_eq h hcount)
    exact ⟨fun h => hroots (hserver.mp h).1, fun h => hroots (htests.mp h).1⟩

end CommandLine

end TestRig
