import TestRig.Program
import TestRig.Shell.Run
import TestRig.Web.Locator

/-! # The command line

    The program is run as it would go in the current directory of a machine
    that has no programs to find and no connection: what a run prints and
    its exit status are passed on, and nothing else is touched. All
    decisions are made in `World.runProgram`. -/

namespace TestRig.Main

/-- The place of an absolute path, which the environment tells. -/
def placeOfPath (path : String) : Place := Path.names (text path)

/-- A tree that holds the directories on the way to a place, and nothing
    else. -/
def treeDownTo (p : Place) : Tree :=
  (List.range p.length).foldl (fun t n => t.put (p.take (n + 1)) .directory) .bare

/-- The world in the directory at a place. -/
def worldAt (p : Place) : World where
  tree := treeDownTo p
  cwd := p
  searchPath := []
  web := .unreachable .plain
  stdin := []
  behaviour := Shell.behaviour

end TestRig.Main

/-- Run the program and pass on what it prints and how it ends. -/
def main (args : List String) : IO UInt32 := do
  let here := (← IO.getEnv "PWD").getD "/"
  let world := TestRig.Main.worldAt (TestRig.Main.placeOfPath here)
  let exit := world.runProgram (TestRig.text "testrig" :: args.map TestRig.text)
  (← IO.getStdout).write ⟨exit.transcript.stdout.toArray⟩
  (← IO.getStderr).write ⟨exit.transcript.stderr.toArray⟩
  return exit.status.toUInt32
