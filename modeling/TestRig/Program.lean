import TestRig.Invocation
import TestRig.Launch

/-! # The program

    A run reads its arguments, works out the layout of the project in the
    current directory and carries out one command on it. It exits with the
    code that the command answers with, with 1 after a failure, which is
    reported on the standard error, and with 1 after it has shown how it is
    used. -/

namespace TestRig

namespace World

/-- Carry out a command on a layout. -/
def runOn (w : World) (l : Layout) (artifacts : Artifacts) : Command → Outcome Nat
  | .setup =>
    -- the client is set up first; an installation without one is not begun
    if w.hasClient then
      let o := w.setup l artifacts
      ⟨o.result.map fun _ => 0, o.world, o.transcript⟩
    else ⟨.error .client, w, .silent⟩
  | .runserver => w.runServer l
  | .runtests => w.runTests l

/-- Carry out a command in the current directory. -/
def run (w : World) (c : Command) : Outcome Nat :=
  match w.currentLayout .release with
  | .error f => ⟨.error f, w, .silent⟩
  | .ok l => w.runOn l .release c

end World

/-- How the program ended. -/
structure Exit where
  status : Nat
  world : World
  transcript : Transcript

/-- The end of the program after a command. The system keeps one byte of the
    status. -/
def Exit.ofOutcome (o : Outcome Nat) : Exit :=
  match o.result with
  | .ok n => ⟨n % 256, o.world, o.transcript⟩
  | .error f => ⟨1, o.world, o.transcript.andThen ⟨[], [], f.report, []⟩⟩

/-- Run the program with its arguments, its own name first. -/
def World.runProgram (w : World) (args : List Bytes) : Exit :=
  match select args with
  | .run c => .ofOutcome (w.run c)
  | .showUsage => ⟨1, w, .printed (usage ++ [newline])⟩

end TestRig
