import TestRig.Job
import TestRig.WaitStatus

/-! # The world of a run

    A run sees a file tree, a current directory, the directories in which
    programs are searched, the web and a standard input, and it can start
    children, which behave as they like. It answers with an `Outcome`: its
    result, the world after it, and a transcript of what it did that is not
    a change of the world. -/

namespace TestRig

/-! ## Section 1: Children -/

/-- What a child sees when it is started. -/
structure Scene where
  tree : Tree
  cwd : Place
  stdin : Bytes
  /-- The variables that it is given. -/
  environment : List (Bytes × Bytes)

/-- What a child leaves behind. -/
structure ChildEnd where
  status : WaitStatus
  tree : Tree
  /-- The standard input that it has not read. -/
  stdin : Bytes
  stdout : Bytes
  stderr : Bytes

/-- What the program at a place does with its arguments, its own name
    first. -/
abbrev Behaviour : Type := (program : Place) → (argv : List Bytes) → Scene → ChildEnd

/-! ## Section 2: Worlds and what is done in them -/

/-- All that a run depends on, apart from its arguments. -/
structure World where
  tree : Tree
  /-- The place of the current directory. The directory is gone if the tree
      has none there. -/
  cwd : Place
  /-- The directories in which a program given by its name alone is
      searched. -/
  searchPath : List Path
  web : Web
  /-- Can a client for HTTP be set up? -/
  hasClient : Bool := true
  stdin : Bytes
  behaviour : Behaviour

/-- What a run did that does not change its world. -/
structure Transcript where
  requests : List Address
  stdout : Bytes
  stderr : Bytes
  /-- The children that were started, by their words. -/
  children : List (List Bytes)
  deriving DecidableEq

namespace Transcript

/-- Nothing was done. -/
def silent : Transcript := ⟨[], [], [], []⟩

/-- Something was printed and nothing else done. -/
def printed (stdout : Bytes) : Transcript := ⟨[], stdout, [], []⟩

/-- One after the other. -/
def andThen (a b : Transcript) : Transcript where
  requests := a.requests ++ b.requests
  stdout := a.stdout ++ b.stdout
  stderr := a.stderr ++ b.stderr
  children := a.children ++ b.children

end Transcript

/-- What became of a run. -/
structure Outcome (α : Type) where
  result : Except Failure α
  world : World
  transcript : Transcript

namespace World

/-! ## Section 3: What a run sees -/

/-- Where the jobs of a run are done. -/
def site (w : World) : Site := ⟨w.cwd, w.web⟩

/-- What a child of a run sees. -/
def scene (w : World) : Scene :=
  ⟨w.tree, w.cwd, w.stdin, [(text "PATH", joined 0x3A w.searchPath)]⟩

/-- The path of the current directory. -/
def currentDirectory (w : World) : Except Failure Path :=
  if w.tree.hasDirectory w.cwd then .ok (Tree.pathOf w.cwd)
  else .error (.currentDirectory (.os .noEntry))

/-- The layout of the project in the current directory. -/
def currentLayout (w : World) (artifacts : Artifacts) : Except Failure Layout :=
  w.currentDirectory.map fun root => Layout.resolve root artifacts

/-- The world without the entry at `p` and all below it. If that takes the
    current directory away, what is left of it is a nameless place below the
    nearest directory that stays. -/
def remove (w : World) (p : Place) : World :=
  { w with
    tree := w.tree.drop p
    cwd := if isWithin p w.cwd then p.dropLast ++ List.replicate (w.cwd.length + 1 - p.length) []
      else w.cwd }

/-! ## Section 4: Jobs in a world -/

/-- Do a job; `value` is what it answers with if it does not fail. -/
def doJob {α : Type} (w : World) (job : Job) (value : Job → α) : Outcome α :=
  let (job, tree) := job.finish w.site w.tree
  { result := match job.failure with
      | some f => .error f
      | none => .ok (value job)
    world := { w with tree }
    transcript := ⟨job.requests, job.output, [], []⟩ }

/-- Download `url` to `dest` and tell how many bytes were written. -/
def fetch (w : World) (url : Url) (dest : Path) : Outcome Nat :=
  w.doJob (.download url dest) Job.written

/-- Install the archives as the layout says. -/
def setup (w : World) (l : Layout) (artifacts : Artifacts) : Outcome Unit :=
  w.doJob (.installation l artifacts) fun _ => ()

end World

end TestRig
