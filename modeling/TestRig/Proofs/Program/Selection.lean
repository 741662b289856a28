import TestRig.Proofs.Invocation.Preimage
import TestRig.Proofs.Program.Refinement

/-! # What the arguments decide

    The program reads its arguments once, to select a command or to find
    that there is none, and never looks at them again. So runs whose
    arguments select the same cannot be told apart by anything they do:
    not by the name the program was called by, not by what follows the
    command, and not by where a separator stands.

    * `select_eq_run_iff`, `select_eq_showUsage_iff`: which arguments select
      what.
    * `World.runProgram_of_showUsage`: without a command, the line that is
      printed is all there is, whatever the world is like.
    * `DecidedBySelection`: the two together, for all pairs of arguments. -/

namespace TestRig

/-! ## Section 1: Which arguments select what -/

section select

variable {args args' : List Bytes} {c : Command}

/-- A command is selected by the arguments that spell it, with anything
    after it and after any name of the program. -/
theorem select_eq_run_iff :
    select args = .run c ↔ ∃ rest, Invocation.Spells c rest args.tail := by
  have hspells : ∀ rest, Invocation.Spells c rest args.tail ↔
      Invocation.parse args = .ok ⟨some c, rest⟩ := by
    intro rest
    exact Invocation.ofArguments_eq_command_iff.symm
  simp only [hspells, select]
  constructor
  · intro h
    split at h
    · next d rest hparse =>
      cases h
      exact ⟨rest, hparse⟩
    · cases h
  · rintro ⟨rest, hparse⟩
    rw [hparse]

theorem select_eq_showUsage_iff :
    select args = .showUsage ↔ ∀ c rest, ¬ Invocation.Spells c rest args.tail := by
  constructor
  · intro h c rest hspells
    have hrun : select args = .run c := select_eq_run_iff.mpr ⟨rest, hspells⟩
    rw [hrun] at h
    cases h
  · intro h
    cases hselect : select args with
    | showUsage => rfl
    | run c =>
      obtain ⟨rest, hspells⟩ := select_eq_run_iff.mp hselect
      exact absurd hspells (h c rest)

/-- A command that is not named first is not selected. -/
example : select [text "testrig", text "install", text "setup"] = .showUsage := by decide +kernel

/-- Two lists of arguments select the same if they spell the same command,
    or both spell none. -/
theorem select_eq_iff :
    select args = select args' ↔
      ∀ c, (∃ rest, Invocation.Spells c rest args.tail) ↔
        ∃ rest, Invocation.Spells c rest args'.tail := by
  simp only [← select_eq_run_iff]
  constructor
  · intro h c
    rw [h]
  · intro h
    cases hselect : select args with
    | run c => exact ((h c).mp hselect).symm
    | showUsage =>
      cases hselect' : select args' with
      | showUsage => rfl
      | run c =>
        -- the second list spells a command, so the first one does
        have hrun := (h c).mpr hselect'
        rw [hselect] at hrun
        cases hrun

end select

/-! ## Section 2: A run without a command -/

/-- The line that is printed where no command is selected. -/
def usageLine : Bytes := text "Choose a command, one of: setup, runserver, runtests\n"

theorem usage_eq : usage ++ [newline] = usageLine := by decide +kernel

namespace World

variable {w : World} {args args' : List Bytes} {c : Command}

/-- Without a command the program only prints how it is used. It does so
    before it has looked at anything in the world. -/
theorem runProgram_of_showUsage (h : select args = .showUsage) :
    w.runProgram args = ⟨1, w, ⟨[], usageLine, [], []⟩⟩ := by
  unfold runProgram
  rw [h, ← usage_eq]
  rfl

/-! ## Section 3: A run with a command -/

theorem runProgram_congr (h : select args = select args') :
    w.runProgram args = w.runProgram args' := by
  unfold runProgram
  rw [h]

theorem children_setup (w : World) (l : Layout) (artifacts : Artifacts) :
    (w.runOn l artifacts .setup).transcript.children = [] := by
  by_cases hclient : w.hasClient
  · rw [runOn_setup_of_client hclient]
    rfl
  · rw [runOn_setup_of_no_client hclient]
    rfl

/-- The words of a child come from the layout of the project, and none of
    them from the arguments. -/
theorem children_runProgram {argv : List Bytes}
    (h : argv ∈ (w.runProgram args).transcript.children) :
    ∃ c line, select args = .run c ∧ c.line? w.projectLayout = some line ∧ argv = line.argv := by
  cases hselect : select args with
  | showUsage =>
    rw [runProgram_of_showUsage hselect] at h
    cases h
  | run c =>
    have hdir : w.tree.hasDirectory w.cwd := by
      apply Decidable.byContradiction
      intro hgone
      rw [runProgram_of_select hselect, run_of_no_directory hgone] at h
      cases h
    rw [(sameEffects_runProgram hselect hdir).children] at h
    cases hline : c.line? w.projectLayout with
    | none =>
      obtain rfl := Command.eq_setup_of_line? hline
      rw [children_setup] at h
      cases h
    | some line =>
      refine ⟨c, line, rfl, hline, ?_⟩
      rw [children_runOn_of_line hline] at h
      -- at most one child is started
      split at h
      · exact List.mem_singleton.mp h
      · cases h

end World

/-! ## Section 4: Any two lists of arguments -/

/-- Nothing in the arguments but their selection has a say in what the
    program does in the world `w`. -/
structure DecidedBySelection (w : World) : Prop where
  /-- Arguments select the same if they spell the same command, or none. -/
  same_iff : ∀ args args', select args = select args' ↔
    ∀ c, (∃ rest, Invocation.Spells c rest args.tail) ↔
      ∃ rest, Invocation.Spells c rest args'.tail
  /-- Then they end with the same status, in the same world, with the same
      transcript. -/
  alike : ∀ args args', select args = select args' → w.runProgram args = w.runProgram args'
  /-- That is so for all ways to write a command, whatever the name of the
      program is and whatever follows the command. -/
  spelled : ∀ c program program' args args' rest rest',
    Invocation.Spells c rest args → Invocation.Spells c rest' args' →
      w.runProgram (program :: args) = w.runProgram (program' :: args')
  /-- A child is given the words of the command line of the project. -/
  words : ∀ args argv, argv ∈ (w.runProgram args).transcript.children →
    ∃ c line, select args = .run c ∧ c.line? w.projectLayout = some line ∧ argv = line.argv
  /-- Without a command there is the status 1 and one line of output. The
      world is as it was, its tree and its standard input included; there is
      no request, no child, and nothing on the standard error. -/
  unselected : ∀ args, select args = .showUsage →
    w.runProgram args
      = ⟨1, w, { requests := [], stdout := usageLine, stderr := [], children := [] }⟩
  /-- No command is selected where none is spelled. -/
  unselected_iff : ∀ args,
    select args = .showUsage ↔ ∀ c rest, ¬ Invocation.Spells c rest args.tail

/-- What the program does is decided by what its arguments select, in every
    world, one without a current directory included. -/
theorem World.runProgram_decided_by_selection (w : World) : DecidedBySelection w where
  same_iff := by
    intro args args'
    exact select_eq_iff
  alike := by
    intro args args' h
    exact runProgram_congr h
  spelled := by
    intro c program program' args args' rest rest' hspells hspells'
    have hrun : select (program :: args) = .run c := select_eq_run_iff.mpr ⟨rest, hspells⟩
    have hrun' : select (program' :: args') = .run c := select_eq_run_iff.mpr ⟨rest', hspells'⟩
    exact runProgram_congr (hrun.trans hrun'.symm)
  words := by
    intro args argv h
    exact children_runProgram h
  unselected := by
    intro args h
    exact runProgram_of_showUsage h
  unselected_iff := by
    intro args
    exact select_eq_showUsage_iff

end TestRig
