import TestRig.Program

/-! # What becomes of a child

    Two commands start a child (`Command.line?`), and they only differ in
    its command line. Whether there is a child at all depends on the
    program that its name stands for, and the run answers with the exit
    code of the child.

    An exit code fits in one byte (`WaitStatus.exitCode_le`), and only a
    child that exited with code 0 has the code 0
    (`WaitStatus.exitCode_eq_zero_iff`). -/

namespace TestRig

/-! ## Section 1: Exit codes -/

namespace WaitStatus

/-- The ways a child can end, with the numbers that go with them. -/
theorem ending_cases (s : WaitStatus) :
    (∃ code, code ≤ 255 ∧ s.ending = .exited code) ∨
      (∃ signal, 1 ≤ signal ∧ signal ≤ 126 ∧ s.ending = .signalled signal) ∨
      s.ending = .unended := by
  unfold ending
  split
  · have hcode : s.secondByte < 256 := Nat.mod_lt _ (by decide)
    exact .inl ⟨_, by omega, rfl⟩
  · next hsignal =>
    split
    · exact .inr (.inr rfl)
    · next hended =>
      -- neither 0 nor 127 is left for a signal
      have hmanner : s.manner < 128 := Nat.mod_lt _ (by decide)
      exact .inr (.inl ⟨_, by omega, by omega, rfl⟩)

/-- An exit code fits in the byte that the system keeps of it. -/
theorem exitCode_le (s : WaitStatus) : s.exitCode ≤ 255 := by
  unfold exitCode
  rcases s.ending_cases with ⟨code, hcode, h⟩ | ⟨signal, -, hsignal, h⟩ | h
  · rw [h]
    exact hcode
  · rw [h]
    show 128 + signal ≤ 255
    omega
  · rw [h]
    show 1 ≤ 255
    omega

/-- No signal and no missing end counts as a success. -/
theorem exitCode_eq_zero_iff (s : WaitStatus) : s.exitCode = 0 ↔ s.ending = .exited 0 := by
  unfold exitCode
  rcases s.ending_cases with ⟨code, -, h⟩ | ⟨signal, -, -, h⟩ | h
  · rw [h]
    exact ⟨congrArg _, Ending.exited.inj⟩
  · rw [h]
    constructor
    · intro hzero
      have hzero' : 128 + signal = 0 := hzero
      omega
    · intro he
      cases he
  · rw [h]
    exact ⟨nofun, nofun⟩

end WaitStatus

/-! ## Section 2: The words of a command line -/

/-- The word after the first one that is `flag`. -/
def wordAfter (flag : Bytes) : List Bytes → Option Bytes
  | word :: next :: rest => if word = flag then some next else wordAfter flag (next :: rest)
  | _ => none

/-- The word before the archive that is run. -/
def CommandLine.archiveFlag : Bytes := text "-jar"

/-- The command line that a command starts, if it starts one. -/
def Command.line? (l : Layout) : Command → Option CommandLine
  | .setup => none
  | .runserver => some (.server l)
  | .runtests => some (.tests l)

theorem Command.eq_setup_of_line? {c : Command} {l : Layout} (h : c.line? l = none) :
    c = .setup := by
  cases c with
  | setup => rfl
  | runserver => cases h
  | runtests => cases h

/-- Whatever is started is the archive of the runner. -/
theorem Command.wordAfter_line {c : Command} {l : Layout} {line : CommandLine}
    (h : c.line? l = some line) : wordAfter CommandLine.archiveFlag line.argv = some l.runnerJar := by
  have hjava : CommandLine.java ≠ CommandLine.archiveFlag := by decide +kernel
  have hwords : ∃ rest,
      line.argv = CommandLine.java :: CommandLine.archiveFlag :: l.runnerJar :: rest := by
    cases c with
    | setup => cases h
    | runserver =>
      cases h
      exact ⟨_, rfl⟩
    | runtests =>
      cases h
      exact ⟨_, rfl⟩
  -- the program is no flag, so the first flag is the second word
  obtain ⟨rest, hargv⟩ := hwords
  rw [hargv, wordAfter, if_neg hjava, wordAfter, if_pos rfl]

/-! ## Section 3: A run that starts a child -/

namespace World

variable {w : World} {l : Layout} {artifacts : Artifacts} {c : Command} {line : CommandLine}

theorem launch_of_error {e : SystemError} (h : w.resolveProgram line = .error e) :
    w.launch line = ⟨.error (.launch line.program e), w, .silent⟩ := by
  unfold launch
  rw [h]

theorem launch_of_ok {program : Place} (h : w.resolveProgram line = .ok program) :
    let child := w.behaviour program line.argv w.scene
    w.launch line
      = ⟨.ok child.status.exitCode, { w with tree := child.tree, stdin := child.stdin },
          ⟨[], child.stdout, child.stderr, [line.argv]⟩⟩ := by
  unfold launch
  rw [h]

/-- Both commands show their command line and launch it. -/
theorem runOn_of_line (w : World) (artifacts : Artifacts) (h : c.line? l = some line) :
    ∃ shown, w.runOn l artifacts c = w.launchShown shown line := by
  cases c with
  | setup => cases h
  | runserver =>
    cases h
    exact ⟨_, rfl⟩
  | runtests =>
    cases h
    exact ⟨_, rfl⟩

theorem children_runOn_of_line (h : c.line? l = some line) :
    (w.runOn l artifacts c).transcript.children
      = if (w.resolveProgram line).isOk then [line.argv] else [] := by
  obtain ⟨shown, hrun⟩ := w.runOn_of_line artifacts h
  rw [hrun]
  cases hprogram : w.resolveProgram line with
  | error e =>
    rw [launchShown, launch_of_error hprogram]
    rfl
  | ok program =>
    rw [launchShown, launch_of_ok hprogram]
    rfl

theorem runOn_eq_ok_iff_of_line (h : c.line? l = some line) {n : Nat} :
    (w.runOn l artifacts c).result = .ok n ↔
      ∃ program, w.resolveProgram line = .ok program ∧
        (w.behaviour program line.argv w.scene).status.exitCode = n := by
  obtain ⟨shown, hrun⟩ := w.runOn_of_line artifacts h
  rw [hrun, launchShown]
  cases hprogram : w.resolveProgram line with
  | error e => simp [launch_of_error hprogram]
  | ok program => simp [launch_of_ok hprogram]

/-- With a client, the command that installs is the installation. -/
theorem runOn_setup_of_client (h : w.hasClient) :
    w.runOn l artifacts .setup
      = ⟨(w.setup l artifacts).result.map fun _ => 0, (w.setup l artifacts).world,
          (w.setup l artifacts).transcript⟩ := by
  simp [runOn, h]

theorem runOn_setup_of_no_client (h : ¬ w.hasClient) :
    w.runOn l artifacts .setup = ⟨.error .client, w, .silent⟩ := by
  simp [runOn, h]

theorem runOn_setup_eq_ok_iff {n : Nat} :
    (w.runOn l artifacts .setup).result = .ok n ↔
      n = 0 ∧ w.hasClient ∧ (w.setup l artifacts).result = .ok () := by
  by_cases hclient : w.hasClient
  · rw [runOn_setup_of_client hclient]
    cases (w.setup l artifacts).result with
    | error f => simp [Except.map]
    | ok u => simp [Except.map, hclient, eq_comm]
  · rw [runOn_setup_of_no_client hclient]
    simp [hclient]

/-- What a command answers with fits in the byte that the system keeps of
    it. -/
theorem runOn_le {n : Nat} (h : (w.runOn l artifacts c).result = .ok n) : n ≤ 255 := by
  cases hline : c.line? l with
  | none =>
    obtain rfl := Command.eq_setup_of_line? hline
    obtain ⟨rfl, -⟩ := runOn_setup_eq_ok_iff.mp h
    exact Nat.zero_le _
  | some line =>
    obtain ⟨program, -, rfl⟩ := (runOn_eq_ok_iff_of_line hline).mp h
    exact WaitStatus.exitCode_le _

end World

end TestRig
