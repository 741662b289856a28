import TestRig.Shell.Expansion
import TestRig.Shell.Lookup

/-! # Redirections

    A redirection lets a descriptor lead to a file, to a text or to where
    another descriptor leads. The words of all redirections of a command are
    expanded first (`expandAims`), and then they are done one after the
    other (`redirectAll`) until one cannot be done. When the command has
    ended, the descriptors that were redirected lead where they led before
    (`restore`). -/

namespace TestRig.Shell

/-! ## Section 1: Kinds of redirections -/

/-- What a redirection aims at. -/
inductive Aim where
  | path (s : Path)
  /-- Another descriptor, or none to close the one that is redirected. -/
  | descriptor (fd : Option Nat)
  /-- A text, which is expanded when the redirection is done. -/
  | document (w : Word)

/-- What a path was opened as. -/
inductive Opening where
  | fresh (s : Stream)
  /-- The stream with a number, which is open already. -/
  | shared (n : Nat)

namespace Process

/-! ## Section 2: Aims -/

/-- The aim that the text of a word gives. -/
def aimOf? (kind : RedirectKind) (s : Bytes) : Option Aim :=
  match kind with
  | .duplicate =>
    match s with
    | [0x2D] => some (.descriptor none)
    | [b] => if isDigit b then some (.descriptor (some (b - 0x30).toNat)) else none
    | _ => none
  | _ => some (.path s)

/-- Expand the words of redirections. -/
def expandAims (run : Runner) (p : Process) : List Redirect → Process × List (RedirectTo Aim)
  | [] => (p, [])
  | ⟨fd, kind, word⟩ :: rest =>
    let (p, aim) : Process × Option Aim := match kind with
      | .document => (p, some (.document word))
      | kind =>
        let (p, s) := p.expandText run word
        (p, aimOf? kind s)
    match p.isRunning, aim with
    | false, _ => (p, [])
    | true, none => (p.abort (text "Syntax error: Bad fd number"), [])
    | true, some aim =>
      let (p, more) := expandAims run p rest
      (p, ⟨fd, kind, aim⟩ :: more)

/-- The redirection with its aim as a word that needs no expansion. -/
def settled (r : RedirectTo Aim) : Redirect :=
  let word : Word := match r.target with
    | .path s => [.literal s true]
    | .descriptor none => [.literal [0x2D] true]
    | .descriptor (some n) => [.literal (decimal n) true]
    | .document w => w
  ⟨r.fd, r.kind, word⟩

/-! ## Section 3: Opening -/

/-- Why a path cannot be opened. -/
def openingRefusal (path : Path) (e : SystemError) : Bytes :=
  text "cannot open " ++ path ++ text ": " ++ refusalText "No such file" e

/-- Why a file cannot be made. -/
def makingRefusal (path : Path) (e : SystemError) : Bytes :=
  text "cannot create " ++ path ++ text ": " ++ refusalText "Directory nonexistent" e

/-- Open the file at a place; it is made or emptied if the kind of the
    redirection says so. -/
def openPlace (p : Process) (kind : RedirectKind) (place : Place) : Process × Opening :=
  let tree := p.ground.tree
  let isThere := (tree.nodeAt place).isSome
  let opened (tree : Tree) (access : Access) : Process × Opening :=
    ({ p with ground := { p.ground with tree } }, .fresh (.file place 0 access))
  let made := if isThere then tree else tree.truncate place
  match kind with
  | .read => opened tree ⟨true, false, false⟩
  | .readWrite => opened made ⟨true, true, false⟩
  | .append => opened made ⟨false, true, true⟩
  | _ => opened (tree.truncate place) ⟨false, true, false⟩

/-- Open what stands at a place, or nothing if it is a device that cannot be
    opened. -/
def openNode? (p : Process) (kind : RedirectKind) (place : Place) : Except SystemError (Process × Opening) :=
  match device? place with
  | none => .ok (p.openPlace kind place)
  | some .null => .ok (p, .fresh .nothing)
  | some .full => .ok (p, .fresh .full)
  | some .zero => .ok (p, .fresh .zeros)
  | some .missing => .error (.os .noDevice)
  | some (.descriptor fd) =>
    match p.streamNumber? fd, p.stream? fd with
    | some _, some (.file place ..) => .ok (p.openPlace kind place)
    | some n, some _ => .ok (p, .shared n)
    | _, _ => .error (.os .noEntry)

/-- Open a path to write to it, unless files that are there are to be
    kept. -/
def openKeeping (p : Process) (path : Path) : Except Bytes (Process × Opening) :=
  let tree := p.ground.tree
  match tree.look p.cwd path with
  | .ok (_, .directory) => .error (openingRefusal path (.os .isDirectory))
  | .ok (place, _) =>
    if (device? place).isNone then .error (makingRefusal path (.os .alreadyThere))
    else (p.openNode? .write place).mapError (openingRefusal path)
  | .error _ =>
    match tree.placeOf p.cwd path, tree.filePlace p.cwd path with
    | _, .error e => .error (makingRefusal path e)
    | .ok name, .ok place =>
      if (tree.nodeAt name).isSome then .error (makingRefusal path (.os .alreadyThere))
      else .ok (p.openPlace .write place)
    | .error e, .ok _ => .error (makingRefusal path e)

/-- Open a path, or say why that cannot be done. -/
def openPath (p : Process) (kind : RedirectKind) (path : Path) : Except Bytes (Process × Opening) :=
  match kind with
  | .read =>
    match p.ground.tree.look p.cwd path with
    | .error e => .error (openingRefusal path e)
    | .ok (place, _) => (p.openNode? kind place).mapError (openingRefusal path)
  | kind =>
    if kind = .write && p.has 0x43 then p.openKeeping path
    else match p.ground.tree.filePlace p.cwd path with
      | .error e => .error (makingRefusal path e)
      | .ok place => (p.openNode? kind place).mapError (makingRefusal path)

/-! ## Section 4: Redirecting -/

/-- Do a redirection; the answer says whether it could be done, and if not,
    why, unless that was said already. Unless it is for good, the descriptor
    is put aside before it is to lead where another one leads, so that
    nothing is said on it then. -/
def redirect (run : Runner) (isForGood : Bool) (p : Process) (r : RedirectTo Aim) :
    Process × Except Bytes Unit :=
  match r.target with
  | .document w =>
    let (p, s) := p.expandDocument run w
    if p.isRunning then (p.attach r.fd (.held s), .ok ()) else (p, .error [])
  | .descriptor none => (p.close r.fd, .ok ())
  | .descriptor (some fd) =>
    if fd = r.fd then (p, .ok ())
    else match p.streamNumber? fd with
      | some n => (p.connect r.fd n, .ok ())
      | none =>
        (if isForGood then p else p.close r.fd, .error (decimal fd ++ text ": Bad file descriptor"))
  | .path s =>
    match p.openPath r.kind s with
    | .error message => (p, .error message)
    | .ok (p, .fresh stream) => (p.attach r.fd stream, .ok ())
    | .ok (p, .shared n) => (p.connect r.fd n, .ok ())

/-- Do redirections one after the other; the answer says whether all could
    be done. -/
def redirectAll (run : Runner) (isForGood : Bool) (p : Process) : List (RedirectTo Aim) → Process × Bool
  | [] => (p, true)
  | r :: rest =>
    match p.redirect run isForGood r with
    | (p, .ok ()) => redirectAll run isForGood p rest
    | (p, .error message) =>
      if p.isRunning then (p.complain message 2, false)
      else ({ p with flow := if p.flow = .failing then .running else p.flow }, false)

/-- The descriptors that redirections change. -/
def changedDescriptors (rs : List (RedirectTo Aim)) : List Nat :=
  rs.filterMap fun r =>
    match r.target with
    | .descriptor (some fd) => if fd = r.fd then none else some r.fd
    | _ => some r.fd

/-- Let the descriptors that were redirected lead where they led in the
    process `before`. -/
def restore (p before : Process) (rs : List (RedirectTo Aim)) : Process :=
  let p := (changedDescriptors rs).foldl
    (fun p fd =>
      match before.streamNumber? fd with
      | some n => p.connect fd n
      | none => p.close fd)
    p
  if rs = [] then p else p.forgetStreams before.ground.streams.length

end Process

end TestRig.Shell
