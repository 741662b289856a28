import TestRig.Proofs.Program.Selection
import TestRig.Proofs.Setup.Transcript

/-! # What the first argument decides

    The line that shows how the program is used lists the names of the
    commands. A run whose first argument is missing, or is none of these
    names, prints that line and does nothing else, unless the argument is
    the separator: a name that comes second is then read as if it came
    first, and its command is run.

    * `World.runProgram_eq_ofUsage_iff`: a run that shows the usage cannot
      be mistaken for a run of a command. What a command prints opens with
      a symbol, if it prints anything, and the line opens with a letter.
    * `Unlisted`, `HidesName`: which first arguments name no command, and
      which of these lists of arguments name one all the same.
    * `World.runProgram_of_unlisted`: what the program does with them. -/

namespace TestRig

/-! ## Section 1: What commands print -/

/-- The text opens with a symbol, which takes four bytes. No letter starts
    with the byte that such a symbol starts with. -/
def OpensWithSymbol (out : Bytes) : Prop := out.head? = some 0xF0

instance (out : Bytes) : Decidable (OpensWithSymbol out) := inferInstanceAs (Decidable (_ = _))

section symbols

variable {out : Bytes}

theorem OpensWithSymbol.append (h : OpensWithSymbol out) (more : Bytes) :
    OpensWithSymbol (out ++ more) := by
  unfold OpensWithSymbol at *
  rw [List.head?_append, h]
  rfl

theorem not_opensWithSymbol_usageLine : ¬ OpensWithSymbol usageLine := by decide +kernel

theorem usageLine_ne_nil : usageLine ≠ [] := by decide +kernel

theorem opensWithSymbol_announced (url : Url) : OpensWithSymbol (Extent.announced url) := by
  have hsymbol : OpensWithSymbol (text "📥 Downloading ") := by decide +kernel
  exact (hsymbol.append url).append _

/-- An installation prints the line of its first download before anything
    else. -/
theorem Extent.opensWithSymbol_output (l : Layout) (artifacts : Artifacts) (e : Extent) :
    e.output l artifacts = [] ∨ OpensWithSymbol (e.output l artifacts) := by
  have hrunner := opensWithSymbol_announced artifacts.runner
  cases e with
  | noDirectories => exact .inl rfl
  | noRunner => exact .inr hrunner
  | noCoverage => exact .inr (hrunner.append _)
  | complete => exact .inr ((hrunner.append _).append _)

end symbols

namespace World

variable {w : World} {args : List Bytes} {c : Command}

theorem opensWithSymbol_launchShown {status : Bytes} (h : OpensWithSymbol status)
    (line : CommandLine) : OpensWithSymbol (w.launchShown status line).transcript.stdout := by
  have hshown : OpensWithSymbol (status ++ line.display ++ [newline, newline]) :=
    (h.append line.display).append [newline, newline]
  -- what the child prints comes after the line that shows it
  exact hshown.append (w.launch line).transcript.stdout

theorem opensWithSymbol_runOn (w : World) (l : Layout) (artifacts : Artifacts) (c : Command) :
    (w.runOn l artifacts c).transcript.stdout = [] ∨
      OpensWithSymbol (w.runOn l artifacts c).transcript.stdout := by
  cases c with
  | setup =>
    by_cases hclient : w.hasClient
    · obtain ⟨e, he⟩ := w.exists_reaches l artifacts
      rw [runOn_setup_of_client hclient, he.setup.1]
      exact e.opensWithSymbol_output l artifacts
    · rw [runOn_setup_of_no_client hclient]
      exact .inl rfl
  | runserver =>
    have hsymbol : OpensWithSymbol (text "🚀 Launching jstestdriver: ") := by decide +kernel
    exact .inr (opensWithSymbol_launchShown hsymbol (.server l))
  | runtests =>
    have hsymbol : OpensWithSymbol (text "🧪 Running tests: ") := by decide +kernel
    exact .inr (opensWithSymbol_launchShown hsymbol (.tests l))

/-- No command prints the usage line, whatever happens to it and whatever
    its child prints. -/
theorem stdout_run_ne_usageLine (w : World) (c : Command) :
    (w.run c).transcript.stdout ≠ usageLine := by
  intro h
  by_cases hdir : w.tree.hasDirectory w.cwd
  · rw [run_of_directory hdir] at h
    rcases w.opensWithSymbol_runOn w.projectLayout .release c with hnil | hsymbol
    · exact usageLine_ne_nil (h.symm.trans hnil)
    · exact not_opensWithSymbol_usageLine (h ▸ hsymbol)
  · rw [run_of_no_directory hdir] at h
    exact usageLine_ne_nil h.symm

end World

/-! ## Section 2: A run that shows the usage -/

/-- The end of a run that shows how the program is used. The world is left
    as it is, and there is no request and no child. -/
def Exit.ofUsage (w : World) : Exit where
  status := 1
  world := w
  transcript := { requests := [], stdout := usageLine, stderr := [], children := [] }

namespace World

variable {w : World} {args : List Bytes}

/-- The program shows how it is used exactly where no command is selected. -/
theorem runProgram_eq_ofUsage_iff :
    w.runProgram args = .ofUsage w ↔ select args = .showUsage := by
  constructor
  · intro h
    cases hselect : select args with
    | showUsage => rfl
    | run c =>
      rw [runProgram_of_select hselect] at h
      have hstdout : (Exit.ofOutcome (w.run c)).transcript.stdout = usageLine := by
        rw [h]
        rfl
      rw [(Exit.sameEffects_ofOutcome _).stdout] at hstdout
      exact absurd hstdout (w.stdout_run_ne_usageLine c)
  · exact runProgram_of_showUsage

end World

/-! ## Section 3: First arguments that name no command -/

/-- The names that the usage line lists. -/
def listedNames : List Bytes := Command.all.map Command.name

theorem mem_listedNames (c : Command) : c.name ∈ listedNames := by
  have hall : c ∈ Command.all := by cases c <;> decide
  exact List.mem_map_of_mem hall

/-- The first argument after the name of the program is missing, or it is
    none of the names that are listed. -/
def Unlisted (args : List Bytes) : Prop :=
  ∀ first, args.tail.head? = some first → first ∉ listedNames

/-- The name of the command comes second, after a separator. -/
def HidesName (c : Command) (args : List Bytes) : Prop :=
  ∃ rest, args.tail = Invocation.separator :: c.name :: rest

section unlisted

variable {args : List Bytes} {c : Command}

/-- Only after a separator does such a list of arguments spell a command. -/
theorem Unlisted.spells_iff (h : Unlisted args) :
    (∃ rest, Invocation.Spells c rest args.tail) ↔ HidesName c args := by
  constructor
  · rintro ⟨rest, ⟨hargs, -⟩ | hargs | hargs⟩
    · -- the two ways to write the name first are excluded
      rw [Unlisted, hargs] at h
      exact absurd (mem_listedNames c) (h c.name rfl)
    · rw [Unlisted, hargs] at h
      exact absurd (mem_listedNames c) (h c.name rfl)
    · exact ⟨rest, hargs⟩
  · rintro ⟨rest, hargs⟩
    exact ⟨rest, .inr (.inr hargs)⟩

theorem Unlisted.select_eq_showUsage_iff (h : Unlisted args) :
    select args = .showUsage ↔ ∀ c, ¬ HidesName c args := by
  simp only [TestRig.select_eq_showUsage_iff, ← h.spells_iff, not_exists]

end unlisted

/-- A name by itself selects its command. -/
theorem select_name (program : Bytes) (c : Command) : select [program, c.name] = .run c :=
  select_eq_run_iff.mpr ⟨[], .inl ⟨rfl, nofun⟩⟩

namespace World

/-- With a first argument that is not listed, the program shows how it is
    used, fails with the status 1 and has no effect on any world, exactly
    if the arguments hide no name behind a separator. If they hide one, it
    does what it does with that name alone. -/
theorem runProgram_of_unlisted (w : World) (args : List Bytes) (h : Unlisted args) :
    (w.runProgram args = .ofUsage w ↔ ∀ c, ¬ HidesName c args) ∧
    ∀ c, HidesName c args →
      ∀ program, w.runProgram args = w.runProgram [program, c.name] := by
  constructor
  · rw [runProgram_eq_ofUsage_iff, h.select_eq_showUsage_iff]
  · intro c hhides program
    have hselect : select args = .run c := select_eq_run_iff.mpr (h.spells_iff.mpr hhides)
    exact runProgram_congr (hselect.trans (select_name program c).symm)

/-- A word that names no command shows the usage, and a name after it does
    not help. After the separator the name counts. -/
theorem unlisted_install_and_separator :
    Unlisted [text "testrig", text "install", text "setup"] ∧
      killing.runProgram [text "testrig", text "install", text "setup"] = .ofUsage killing ∧
      Unlisted [text "testrig", text "--", text "setup"] ∧
      killing.runProgram [text "testrig", text "--", text "setup"]
        = killing.runProgram [text "testrig", text "setup"] := by
  have hinstall : Unlisted [text "testrig", text "install", text "setup"] := by
    rintro _ ⟨⟩
    decide +kernel
  have hseparator : Unlisted [text "testrig", text "--", text "setup"] := by
    rintro _ ⟨⟩
    decide +kernel
  have hhides : HidesName .setup [text "testrig", text "--", text "setup"] := ⟨[], rfl⟩
  refine ⟨hinstall, (runProgram_of_unlisted killing _ hinstall).1.mpr ?_, hseparator,
    (runProgram_of_unlisted killing _ hseparator).2 .setup hhides (text "testrig")⟩
  rintro c ⟨rest, hargs⟩
  have hword : text "install" ≠ Invocation.separator := by decide +kernel
  exact hword (List.cons.inj hargs).1

/-- So a first argument that is not listed does not always show the usage:
    here the tests are started, and the status is that of their end. -/
theorem separator_runtests_starts_tests :
    Unlisted [text "testrig", text "--", text "runtests"] ∧
      (killing.runProgram [text "testrig", text "--", text "runtests"]).status = 137 ∧
      (killing.runProgram [text "testrig", text "--", text "runtests"]).transcript.stdout
        ≠ usageLine ∧
      (killing.runProgram [text "testrig", text "--", text "runtests"]).transcript.children
        = [(CommandLine.tests killing.projectLayout).argv] := by
  have hunlisted : Unlisted [text "testrig", text "--", text "runtests"] := by
    rintro _ ⟨⟩
    decide +kernel
  exact ⟨hunlisted, by decide +kernel⟩

end World

end TestRig
