import TestRig.Tree.Walk

/-! # Changing a tree by paths

    A run changes the tree in three ways: it makes a directory, creates or
    truncates a file, and writes to a file it has opened. Each of them puts
    at most one node, at the place where its path leads. -/

namespace TestRig.Tree

/-! ## Section 1: Making entries -/

/-- Make the directory `path`. Anything that is already there, a dangling
    link included, stands in the way. -/
def makeDirectory (t : Tree) (cwd : Place) (path : Path) : Except SystemError Tree :=
  match t.locate .makeDirectory cwd path with
  | .error e => .error e
  -- the root, a directory itself and a parent are there already
  | .ok (.itself _) => .error (.os .alreadyThere)
  | .ok (.entry _ _ (some _)) => .error (.os .alreadyThere)
  | .ok (.entry dir name none) => .ok (t.put (dir ++ [name]) .directory)

/-- Make a link at `path`. Like a directory, it needs a free name. -/
def makeLink (t : Tree) (cwd : Place) (path target : Path) : Except SystemError Tree :=
  match t.locate .makeDirectory cwd path with
  | .error e => .error e
  | .ok (.itself _) => .error (.os .alreadyThere)
  | .ok (.entry _ _ (some _)) => .error (.os .alreadyThere)
  | .ok (.entry dir name none) => .ok (t.put (dir ++ [name]) (.link target))

/-- Where a file to be created at `path` goes: an existing file, through
    links, or a free name. -/
def filePlace (t : Tree) (cwd : Place) (path : Path) : Except SystemError Place :=
  match t.locate .createFile cwd path with
  | .error e => .error e
  | .ok (.itself _) => .error (.os .isDirectory)
  | .ok (.entry _ _ (some .directory)) => .error (.os .isDirectory)
  | .ok spot => .ok spot.place

/-- The tree with an empty file at `p`; a file that was there keeps its
    mode. -/
def truncate (t : Tree) (p : Place) : Tree :=
  match t.nodeAt p with
  | some (.file _ executable) => t.put p (.file [] executable)
  | _ => t.put p (.file [] false)

/-- Create the file `path`, or empty it if it exists, and tell its place. -/
def createFile (t : Tree) (cwd : Place) (path : Path) : Except SystemError (Tree × Place) :=
  (t.filePlace cwd path).map fun p => (t.truncate p, p)

/-- Write `bytes` to the file at `p` from its start; what lies beyond them
    stays. -/
def write (t : Tree) (p : Place) (bytes : Bytes) : Tree :=
  match t.nodeAt p with
  | some (.file old executable) => t.put p (.file (bytes ++ old.drop bytes.length) executable)
  | _ => t

/-! ## Section 2: Looking -/

/-- What `path` leads to, through links. -/
def look (t : Tree) (cwd : Place) (path : Path) : Except SystemError (Place × Node) :=
  match t.locate .look cwd path with
  | .error e => .error e
  | .ok (.itself dir) => .ok (dir, .directory)
  | .ok (.entry _ _ none) => .error (.os .noEntry)
  | .ok (.entry dir name (some node)) => .ok (dir ++ [name], node)

/-- The place that `path` names; a link that it ends in is not followed. -/
def placeOf (t : Tree) (cwd : Place) (path : Path) : Except SystemError Place :=
  (t.locate .makeDirectory cwd path).map Spot.place

/-- The absolute path of a place. -/
def pathOf (p : Place) : Path := if p = [] then [slash] else p.flatMap fun name => slash :: name

/-- The entries below a place, each under its path from there, in the order
    of these paths. -/
def listing (t : Tree) (p : Place) : List (Path × Node) :=
  let below := t.entries.filter fun e => isWithin p e.1 && p.length < e.1.length
  let named := below.map fun e => (joined slash (e.1.drop p.length), e.2)
  named.mergeSort fun a b => !(decide (b.1 < a.1))

end TestRig.Tree
