import TestRig.CommandLine
import TestRig.World

/-! # Starting a child

    A program whose name holds a separator is the file of that path; any
    other name is searched in the directories of the search path. A
    directory where the program is missing, or is no file that may be run,
    does not end the search; only if the search ends without a program is
    the refusal reported, and then a file that may not be run outweighs one
    that is missing.

    The child gets the words of the command line as they are; a program that
    is found is not started if they take more room than the system has for
    them.

    A file that may be run counts as a program, whatever is in it. Two
    refusals are left out: that of a file in no format that can be run, and
    that of a script whose interpreter is missing. -/

namespace TestRig

/-! ## Section 1: Programs in the tree -/

/-- The place of the executable file that `path` leads to. What is in the
    file is not looked at. -/
def Tree.executable (t : Tree) (cwd : Place) (path : Path) : Except SystemError Place :=
  match t.look cwd path with
  | .error e => .error e
  | .ok (p, .file _ true) => .ok p
  | .ok _ => .error (.os .accessDenied)

/-- Try paths in turn. `refused` is the refusal to report if none of them
    can be run. -/
def Tree.firstExecutable (t : Tree) (cwd : Place) :
    (refused : Errno) → List Path → Except SystemError Place
  | refused, [] => .error (.os refused)
  | refused, path :: rest =>
    match t.executable cwd path with
    | .ok p => .ok p
    | .error (.os .accessDenied) => t.firstExecutable cwd .accessDenied rest
    | .error (.os .noEntry) => t.firstExecutable cwd refused rest
    | .error (.os .notDirectory) => t.firstExecutable cwd refused rest
    | .error e => .error e

/-! ## Section 2: Words that can be passed -/

/-- The bytes that one argument may take, the NUL byte at its end among
    them. -/
def argumentLimit : Nat := 131072

/-- The bytes that all arguments together may take, with eight for the
    address of each. -/
def argumentsLimit : Nat := 2097152

/-- Can the words be passed to a program? -/
def argumentsFit (argv : List Bytes) : Bool :=
  argv.all (·.length < argumentLimit) && total (argv.map (·.length + 9)) ≤ argumentsLimit

namespace World

/-! ## Section 3: Starting a program -/

/-- The place of the program that a name stands for. -/
def findProgram (w : World) (name : Bytes) : Except SystemError Place :=
  if name = [] then .error (.os .noEntry)
  -- the search path has no say in a name that is a path
  else if slash ∈ name then w.tree.executable w.cwd name
  else if nameLimit < name.length then .error (.os .nameTooLong)
  else w.tree.firstExecutable w.cwd .noEntry (w.searchPath.map fun dir => Path.join dir name)

/-- The program that a command line starts. -/
def resolveProgram (w : World) (c : CommandLine) : Except SystemError Place :=
  if c.argv.any (nul ∈ ·) then .error .nulInArgument
  else match w.findProgram c.program with
    | .error e => .error e
    -- the program is found before the words are passed to it
    | .ok p => if argumentsFit c.argv then .ok p else .error (.os .argumentsTooLong)

/-- Start a child, wait for its end and answer with its exit code. -/
def launch (w : World) (c : CommandLine) : Outcome Nat :=
  match w.resolveProgram c with
  | .error e => ⟨.error (.launch c.program e), w, .silent⟩
  | .ok program =>
    let child := w.behaviour program c.argv w.scene
    { result := .ok child.status.exitCode
      world := { w with tree := child.tree, stdin := child.stdin }
      transcript := ⟨[], child.stdout, child.stderr, [c.argv]⟩ }

/-- Print a line that shows the command line, and an empty one, and start
    the child. -/
def launchShown (w : World) (status : Bytes) (c : CommandLine) : Outcome Nat :=
  let o := w.launch c
  let shown := Transcript.printed (status ++ c.display ++ [newline, newline])
  { o with transcript := shown.andThen o.transcript }

/-- Start the server. -/
def runServer (w : World) (l : Layout) : Outcome Nat :=
  w.launchShown (text "🚀 Launching jstestdriver: ") (.server l)

/-- Run all tests. -/
def runTests (w : World) (l : Layout) : Outcome Nat :=
  w.launchShown (text "🧪 Running tests: ") (.tests l)

end World

end TestRig
