import TestRig.SystemError
import TestRig.Tree.Basic

/-! # Looking a path up

    A path is followed name by name from the root or from the current
    directory. A name in the middle must lead to a directory; a link on the
    way is replaced by its target, read from the directory that holds it,
    and at most forty links are followed for one path.

    What happens at the last name depends on what the path is wanted for
    (`Purpose`): a directory to be made does not follow a link that is
    already there, while a file to be created and an entry to be looked at
    do. The answer is a `Spot`: a directory and a name in it with what it
    holds now, or a directory itself when the path ends in the root, in `.`
    or in `..`.

    A directory that was removed while it was current has no place any more.
    It is stood for by a place without an entry, so every name in it is
    missing, and its parents are still reached by `..`. -/

namespace TestRig

/-! ## Section 1: Limits -/

/-- The longest name that a directory can hold. -/
def nameLimit : Nat := 255

/-- The longest path that can be passed to the system. -/
def pathLimit : Nat := 4095

/-- How many links are followed for one path. -/
def linkLimit : Nat := 40

/-! ## Section 2: What a walk is for and where it ends -/

/-- What a path is looked up for. -/
inductive Purpose where
  | makeDirectory
  | createFile
  | look
  deriving DecidableEq

/-- Where a path leads. -/
inductive Spot where
  /-- A name in a directory, and the node that it has there. -/
  | entry (dir : Place) (name : Name) (found : Option Node)
  /-- A directory, reached without a last name. -/
  | itself (dir : Place)
  deriving DecidableEq

/-- The place of a spot. -/
def Spot.place : Spot → Place
  | .entry dir name _ => dir ++ [name]
  | .itself dir => dir

/-- How far a path was followed before it ended, failed or met a link. -/
inductive Leg where
  | arrived (spot : Spot)
  | failed (e : Errno)
  /-- The path goes on at the target of a link in `dir`, then with the names
      left. -/
  | redirected (dir : Place) (target : Path) (rest : List Name)
  deriving DecidableEq

namespace Tree

/-! ## Section 3: Following names -/

/-- What a directory holds under a name. -/
def child (t : Tree) (dir : Place) (name : Name) : Except Errno (Option Node) :=
  if ¬ t.hasDirectory dir then .error .noEntry
  else if nameLimit < name.length then .error .nameTooLong
  else .ok (t.nodeAt (dir ++ [name]))

/-- Follow a last name. `slashed` says that a separator follows it: a file
    cannot be created under such a name, and looking at it asks for a
    directory. -/
def lastLeg (t : Tree) (purpose : Purpose) (slashed : Bool) (here : Place) (name : Name) : Leg :=
  match purpose, slashed, t.child here name with
  -- this is refused before the directory is searched
  | .createFile, true, _ => .failed .isDirectory
  | _, _, .error e => .failed e
  -- a link stands in the way of a new directory like any other entry
  | .makeDirectory, _, .ok found => .arrived (.entry here name found)
  | _, _, .ok (some (.link target)) => .redirected here target []
  | .look, true, .ok none => .failed .noEntry
  | .look, true, .ok (some (.file ..)) => .failed .notDirectory
  | _, _, .ok found => .arrived (.entry here name found)

/-- Follow names from `here` until they end or one of them fails or is a
    link. -/
def leg (t : Tree) (purpose : Purpose) (slashed : Bool) : Place → List Name → Leg
  | here, [] => .arrived (.itself here)
  | here, name :: rest =>
    if name = dot then t.leg purpose slashed here rest
    else if name = dotDot then t.leg purpose slashed here.dropLast rest
    else if rest = [] then t.lastLeg purpose slashed here name
    else match t.child here name with
      | .error e => .failed e
      | .ok none => .failed .noEntry
      | .ok (some .directory) => t.leg purpose slashed (here ++ [name]) rest
      | .ok (some (.file ..)) => .failed .notDirectory
      | .ok (some (.link target)) => .redirected here target rest

/-- Where a path starts. -/
def start (cwd : Place) (path : Path) : Place := if path.isAbsolute then [] else cwd

/-- Follow names through at most `links` links. -/
def walk (t : Tree) (purpose : Purpose) :
    (links : Nat) → (slashed : Bool) → Place → List Name → Except Errno Spot
  | links, slashed, here, names =>
    match t.leg purpose slashed here names with
    | .arrived spot => .ok spot
    | .failed e => .error e
    | .redirected dir target rest =>
      match links with
      | 0 => .error .tooManyLinks
      | links + 1 =>
        -- a separator at the end of the target counts only if the path ended in the link
        t.walk purpose links (slashed || (rest.isEmpty && target.endsInSlash))
          (start dir target) (target.names ++ rest)

/-- Where `path` leads, read in the directory `cwd`. -/
def locate (t : Tree) (purpose : Purpose) (cwd : Place) (path : Path) : Except SystemError Spot :=
  if nul ∈ path then .error .nulInPath
  else if path = [] then .error (.os .noEntry)
  else if pathLimit < path.length then .error (.os .nameTooLong)
  else (t.walk purpose linkLimit path.endsInSlash (start cwd path) path.names).mapError .os

end Tree

end TestRig
