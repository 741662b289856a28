import TestRig.Proofs.Launch.Child
import TestRig.Proofs.Setup.Archives
import TestRig.Web.Locator

/-! # The program and its commands

    A run of the program that selects a command is that command, carried
    out on the layout of the current directory: the same changes of the
    world, the same requests, the same child, the same output. All that
    the program adds is how it ends, a status and, after a failure, a
    report.

    * `SameEffects`: what the program and its command have in common.
    * `runProgram_status_eq_zero_iff`: the program succeeds only if its
      command answers with 0 in a directory that is there.
    * `Refines`: what this comes to for each command. -/

namespace TestRig

/-! ## Section 1: How the program ends -/

/-- The exit did to the world what the outcome did, and left the same
    record apart from what is written on the standard error. -/
structure SameEffects (x : Exit) (o : Outcome Nat) : Prop where
  world : x.world = o.world
  requests : x.transcript.requests = o.transcript.requests
  children : x.transcript.children = o.transcript.children
  stdout : x.transcript.stdout = o.transcript.stdout

namespace Exit

variable {o : Outcome Nat} {n : Nat} {f : Failure}

/-- Nothing of a status that fits in a byte is lost. -/
theorem ofOutcome_of_ok (h : o.result = .ok n) (hn : n ≤ 255) :
    ofOutcome o = ⟨n, o.world, o.transcript⟩ := by
  have hmod : n % 256 = n := Nat.mod_eq_of_lt (by omega)
  unfold ofOutcome
  rw [h]
  show Exit.mk (n % 256) _ _ = _
  rw [hmod]

/-- A failure is reported after all that the command wrote itself. -/
theorem ofOutcome_of_error (h : o.result = .error f) :
    ofOutcome o
      = ⟨1, o.world, { o.transcript with stderr := o.transcript.stderr ++ f.report }⟩ := by
  unfold ofOutcome
  rw [h]
  simp [Transcript.andThen]

theorem sameEffects_ofOutcome (o : Outcome Nat) : SameEffects (ofOutcome o) o := by
  unfold ofOutcome
  cases o.result with
  | ok n => exact ⟨rfl, rfl, rfl, rfl⟩
  | error f =>
    -- the report goes to the standard error, and nothing else is added
    refine ⟨rfl, ?_, ?_, ?_⟩ <;> simp [Transcript.andThen]

theorem status_eq_zero_iff (h : ∀ n, o.result = .ok n → n ≤ 255) :
    (ofOutcome o).status = 0 ↔ o.result = .ok 0 := by
  cases hr : o.result with
  | ok n => rw [ofOutcome_of_ok hr (h n hr)]; simp
  | error f => rw [ofOutcome_of_error hr]; simp

end Exit

/-- A report opens with the message of the failure. -/
theorem Failure.message_prefix_report (f : Failure) :
    text "Error: " ++ f.message ++ [newline] <+: f.report :=
  List.prefix_append _ _

/-! ## Section 2: A command in the current directory -/

namespace World

/-- The layout of the project in the current directory. -/
def projectLayout (w : World) : Layout := Layout.resolve (Tree.pathOf w.cwd) .release

variable {w : World} {args : List Bytes} {c : Command}

theorem run_of_directory (h : w.tree.hasDirectory w.cwd) (c : Command) :
    w.run c = w.runOn w.projectLayout .release c := by
  unfold run currentLayout currentDirectory
  rw [if_pos h]
  rfl

theorem run_of_no_directory (h : ¬ w.tree.hasDirectory w.cwd) (c : Command) :
    w.run c = ⟨.error (.currentDirectory (.os .noEntry)), w, .silent⟩ := by
  unfold run currentLayout currentDirectory
  rw [if_neg h]
  rfl

theorem run_le {n : Nat} (h : (w.run c).result = .ok n) : n ≤ 255 := by
  by_cases hdir : w.tree.hasDirectory w.cwd
  · rw [run_of_directory hdir] at h
    exact runOn_le h
  · rw [run_of_no_directory hdir] at h
    cases h

theorem runProgram_of_select (h : select args = .run c) :
    w.runProgram args = .ofOutcome (w.run c) := by
  unfold runProgram
  rw [h]

/-- The program succeeds only where its command answers with 0. -/
theorem runProgram_status_eq_zero_iff (h : select args = .run c) :
    (w.runProgram args).status = 0 ↔
      w.tree.hasDirectory w.cwd ∧ (w.runOn w.projectLayout .release c).result = .ok 0 := by
  rw [runProgram_of_select h, Exit.status_eq_zero_iff fun n => run_le]
  by_cases hdir : w.tree.hasDirectory w.cwd
  · rw [run_of_directory hdir]
    exact ⟨fun hr => ⟨hdir, hr⟩, And.right⟩
  · rw [run_of_no_directory hdir]
    constructor
    · intro hr
      cases hr
    · intro hr
      exact absurd hr.1 hdir

/-- In a directory that is there, the program does what its command does. -/
theorem sameEffects_runProgram (h : select args = .run c) (hdir : w.tree.hasDirectory w.cwd) :
    SameEffects (w.runProgram args) (w.runOn w.projectLayout .release c) := by
  rw [runProgram_of_select h, ← run_of_directory hdir]
  exact Exit.sameEffects_ofOutcome _

end World

/-! ## Section 3: What the program refines -/

/-- The run of the program with these arguments is the command `c`. -/
structure Refines (w : World) (args : List Bytes) (c : Command) : Prop where
  /-- In a directory that is there, it is the command on the layout of that
      directory. -/
  inDirectory : w.tree.hasDirectory w.cwd →
    w.run c = w.runOn w.projectLayout .release c ∧
      SameEffects (w.runProgram args) (w.runOn w.projectLayout .release c)
  /-- Where the directory is gone, nothing happens but a failure. -/
  removed : ¬ w.tree.hasDirectory w.cwd →
    ∃ f, (w.run c).result = .error f ∧ SameEffects (w.runProgram args) ⟨.error f, w, .silent⟩
  /-- The status is what the command answers with. -/
  answered : ∀ n, (w.run c).result = .ok n →
    n ≤ 255 ∧ (w.runProgram args).status = n ∧
      (w.runProgram args).transcript.stderr = (w.run c).transcript.stderr
  /-- After a failure it is 1, and the last thing written says why. -/
  failed : ∀ f, (w.run c).result = .error f →
    (w.runProgram args).status = 1 ∧
      text "Error: " ++ f.message ++ [newline] <+: f.report ∧
      (w.runProgram args).transcript.stderr = (w.run c).transcript.stderr ++ f.report
  /-- A command that starts a child succeeds if there was one and it exited
      with code 0. -/
  launched : ∀ line, c.line? w.projectLayout = some line →
    ((w.runProgram args).status = 0 ↔
      ∃ program, w.resolveProgram line = .ok program ∧
        (w.runProgram args).transcript.children = [line.argv] ∧
        (w.behaviour program line.argv w.scene).status.ending = .exited 0)
  /-- An installation succeeds if it left both archives itself. -/
  installed : c = .setup →
    ((w.runProgram args).status = 0 ↔
      ∃ d runner coverage, Installed w (Tree.pathOf w.cwd) .release d runner coverage
        (w.runProgram args).world.tree)

namespace World

variable {w : World} {args : List Bytes} {c : Command}

theorem status_eq_zero_iff_launched (h : select args = .run c) {line : CommandLine}
    (hline : c.line? w.projectLayout = some line) :
    (w.runProgram args).status = 0 ↔
      ∃ program, w.resolveProgram line = .ok program ∧
        (w.runProgram args).transcript.children = [line.argv] ∧
        (w.behaviour program line.argv w.scene).status.ending = .exited 0 := by
  rw [runProgram_status_eq_zero_iff h, runOn_eq_ok_iff_of_line hline]
  constructor
  · rintro ⟨hdir, program, hprogram, hcode⟩
    refine ⟨program, hprogram, ?_, (WaitStatus.exitCode_eq_zero_iff _).mp hcode⟩
    rw [(sameEffects_runProgram h hdir).children, children_runOn_of_line hline, hprogram]
    rfl
  · rintro ⟨program, hprogram, hchildren, hending⟩
    -- where the directory is gone there are no children
    have hdir : w.tree.hasDirectory w.cwd := by
      apply Decidable.byContradiction
      intro hgone
      rw [runProgram_of_select h, run_of_no_directory hgone] at hchildren
      cases hchildren
    exact ⟨hdir, program, hprogram, (WaitStatus.exitCode_eq_zero_iff _).mpr hending⟩

/-- An installation that is not begun changes nothing. -/
theorem world_runProgram_of_not_begun (h : select args = .run .setup)
    (hbegun : ¬ (w.tree.hasDirectory w.cwd ∧ w.hasClient)) : (w.runProgram args).world = w := by
  by_cases hdir : w.tree.hasDirectory w.cwd
  · have hclient : ¬ w.hasClient := fun hclient => hbegun ⟨hdir, hclient⟩
    rw [(sameEffects_runProgram h hdir).world, runOn_setup_of_no_client hclient]
  · rw [runProgram_of_select h, run_of_no_directory hdir]
    rfl

theorem status_eq_zero_iff_installed (h : select args = .run .setup) :
    (w.runProgram args).status = 0 ↔
      ∃ d runner coverage, Installed w (Tree.pathOf w.cwd) .release d runner coverage
        (w.runProgram args).world.tree := by
  rw [runProgram_status_eq_zero_iff h, runOn_setup_eq_ok_iff]
  by_cases hbegun : w.tree.hasDirectory w.cwd ∧ w.hasClient
  · obtain ⟨hdir, hclient⟩ := hbegun
    rw [(sameEffects_runProgram h hdir).world, runOn_setup_of_client hclient]
    have hsetup := setup_eq_ok_iff_installed w (Tree.pathOf w.cwd) .release
    exact ⟨fun hok => hsetup.mp hok.2.2.2, fun hi => ⟨hdir, rfl, hclient, hsetup.mpr hi⟩⟩
  · constructor
    · rintro ⟨hdir, -, hclient, -⟩
      exact absurd ⟨hdir, hclient⟩ hbegun
    · rintro ⟨d, runner, coverage, hi⟩
      -- the tree is what it was, so nothing in it is new
      rw [world_runProgram_of_not_begun h hbegun] at hi
      have hnothing := hi.gains.length_eq (.refl w.tree)
      cases hnothing

/-- A run of the program is a run of the command that it selects. -/
theorem runProgram_refines (w : World) (args : List Bytes) (c : Command)
    (h : select args = .run c) : Refines w args c where
  inDirectory := by
    intro hdir
    exact ⟨run_of_directory hdir c, sameEffects_runProgram h hdir⟩
  removed := by
    intro hgone
    rw [runProgram_of_select h, run_of_no_directory hgone]
    exact ⟨_, rfl, Exit.sameEffects_ofOutcome _⟩
  answered := by
    intro n hn
    rw [runProgram_of_select h, Exit.ofOutcome_of_ok hn (run_le hn)]
    exact ⟨run_le hn, rfl, rfl⟩
  failed := by
    intro f hf
    rw [runProgram_of_select h, Exit.ofOutcome_of_error hf]
    exact ⟨rfl, f.message_prefix_report, rfl⟩
  launched := by
    intro line hline
    exact status_eq_zero_iff_launched h hline
  installed := by
    rintro rfl
    exact status_eq_zero_iff_installed h

/-- A world whose only program is ended by the signal 9. -/
def killing : World where
  tree := Tree.bare.put [CommandLine.java] (.file (text "#!/bin/sh\nkill -9 $$\n") true)
  cwd := []
  searchPath := [[slash]]
  web := .unreachable .plain
  stdin := []
  behaviour := fun _ _ scene => ⟨.ofSignal 9, scene.tree, scene.stdin, [], []⟩

/-- A child that is killed is no success. -/
theorem runtests_killing_refines :
    select [text "testrig", text "runtests"] = .run .runtests ∧
      Refines killing [text "testrig", text "runtests"] .runtests ∧
      (killing.runProgram [text "testrig", text "runtests"]).status = 137 := by
  have hselect : select [text "testrig", text "runtests"] = .run .runtests := by decide +kernel
  have hstatus : (killing.runProgram [text "testrig", text "runtests"]).status = 137 := by
    decide +kernel
  exact ⟨hselect, runProgram_refines killing _ .runtests hselect, hstatus⟩

end World

end TestRig
