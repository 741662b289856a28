import TestRig.Shell.Arguments
import TestRig.Tree.Edit

/-! # The current directory

    A script calls its current directory by a name of its own: the path by
    which it went there, links and all. Going up from there by `..` takes
    away the last name of that path, unless the physical directory is asked
    for. The name is empty if the directory was gone from the start.

    The bits that new files do not get (`umask`) are here too. -/

namespace TestRig.Shell

/-! ## Section 1: Changing the directory -/

/-- The path that `path` names from a directory, without `.` and `..`. Two
    separators at the start are kept, more or fewer are one. -/
def resolvedPath (directory path : Path) : Path :=
  let isAbsolute := path.isAbsolute
  let top := if isAbsolute then path else directory
  let isDouble := top.take 2 = [slash, slash] && (!isAbsolute || top[2]? ≠ some slash)
  let names := (if isAbsolute then [] else directory.names) ++ path.names
  let resolved := names.foldl
    (fun done name =>
      if name = dot then done else if name = dotDot then done.dropLast else done ++ [name])
    []
  (if isDouble then [slash, slash] else [slash]) ++ joined slash resolved

namespace Process

/-- The path of the current directory in the tree; it is empty, and a
    complaint is made, if the directory is gone. -/
def physicalDirectory (p : Process) : Process × Path :=
  if p.ground.tree.hasDirectory p.cwd then (p, Tree.pathOf p.cwd)
  else (p.warn (text "getcwd() failed: " ++ text Errno.noEntry.wording), [])

/-- Call the current directory by a name, or by its path in the tree. -/
def setDirectory (p : Process) (name : Option Path) : Process :=
  let (p, directory) := match name with
    | some name => (p, name)
    | none => p.physicalDirectory
  { p with directory, isPhysical := name.isNone && directory ≠ [] }.assignExported (text "PWD") directory

/-- Go to the directory of a path, and tell whether that could be done. -/
def enter (p : Process) (isPhysical : Bool) (path : Path) : Process × Bool :=
  let name :=
    if isPhysical || (!path.isAbsolute && p.directory = []) then none
    else some (resolvedPath p.directory path)
  match p.ground.tree.look p.cwd (name.getD path) with
  | .ok (cwd, .directory) =>
    let tracked := p.tracked.map fun t => { t with isStale := true }
    let p := { p with cwd, tracked }.assignExported (text "OLDPWD") p.directory
    (if p.isRunning then p.setDirectory name else p, true)
  | _ => (p, false)

/-- Is there a directory at the path? -/
def isDirectory (p : Process) (path : Path) : Bool :=
  match p.ground.tree.look p.cwd path with
  | .ok (_, .directory) => true
  | _ => false

/-- Does the path start with a name that leads away from the current
    directory by itself? -/
def isAnchored (path : Path) : Bool :=
  path.isAbsolute || [dot, dotDot].any fun start =>
    path = start || path.take (start.length + 1) = start ++ [slash]

/-- The path by which a directory is found in the list of those that are
    searched, and whether it is to be shown. -/
def searchDirectory? (p : Process) (path : Path) : Option (Path × Bool) :=
  if isAnchored path then none
  else
    ((p.value? (text "CDPATH")).map (pieces 0x3A)).bind fun dirs =>
      dirs.findSome? fun dir =>
        let candidate := if dir = [] then path else dir ++ slash :: path
        if p.isDirectory candidate then some (candidate, dir ≠ []) else none

/-- Go to the directory that an argument names. -/
def cd (p : Process) (args : List Bytes) : Process :=
  p.withOptions (text "LP") [] args fun options args =>
    let isPhysical := options.getLast?.map (·.1) = some 0x50
    let isBack := args.head? = some (text "-")
    let wanted := match args with
      | [] => (p.value? (text "HOME")).getD []
      | a :: _ => if isBack then (p.value? (text "OLDPWD")).getD [] else a
    let target := if wanted = [] then dot else wanted
    let (path, isFound) := (p.searchDirectory? target).getD (target, false)
    match p.enter isPhysical path with
    | (p, true) =>
      if !p.isRunning then p
      else if isBack || isFound then p.print (p.directory ++ [newline])
      else p.answer 0
    | (p, false) => p.abort (text "can't cd to " ++ target)

/-- Show the current directory. -/
def pwd (p : Process) (args : List Bytes) : Process :=
  p.withOptions (text "LP") [] args fun options _ =>
    if options.getLast?.map (·.1) = some 0x50 then
      let (p, path) := p.physicalDirectory
      let p := if p.isPhysical then p else p.assignExported (text "PWD") p.directory
      if p.isRunning then { p with isPhysical := path ≠ [] }.print (path ++ [newline]) else p
    else p.print (p.directory ++ [newline])

/-! ## Section 2: The bits that new files do not get -/

/-- All bits. -/
def allBits : Nat := 0o777

/-- Three bits as letters. -/
def modeLetters (bits : Nat) : Bytes :=
  [(4, 0x72), (2, 0x77), (1, 0x78)].filterMap fun (bit, letter) =>
    if bits &&& bit ≠ 0 then some letter else none

/-- The bits that new files get, in letters. -/
def shownMode (mask : Nat) : Bytes :=
  let granted := allBits ^^^ mask
  joined 0x2C <| [(0x75, granted / 64), (0x67, granted / 8), (0x6F, granted)].map
    fun (who, bits) => who :: 0x3D :: modeLetters bits

/-- The bits that one letter of a change stands for, where new files get
    `granted`. -/
def letterBits (granted : Nat) (letter : UInt8) : Nat :=
  if letter = 0x72 then 4
  else if letter = 0x77 then 2
  else if letter = 0x78 then 1
  else if letter = 0x75 then granted / 64
  else if letter = 0x67 then granted / 8
  else if letter = 0x6F then granted
  else if letter = 0x58 then if granted &&& 0o111 ≠ 0 then 1 else 0
  else 0

/-- Change bits as letters say: who, an operator, and which bits; more
    changes may follow. `who` are those that were named before. -/
def changedMode : (allowance : Nat) → (who granted : Nat) → Bytes → Option Nat
  | 0, _, _, _ => none
  | _ + 1, _, granted, [] => some granted
  | n + 1, who, granted, s =>
    let names := s.takeWhile (text "augo").contains
    let who := names.foldl
      (fun who b => who ||| (if b = 0x61 then 0o111 else if b = 0x75 then 0o100
        else if b = 0x67 then 0o010 else 0o001)) who
    let who := if who = 0 then 0o111 else who
    match s.drop names.length with
    | [] => some granted
    | op :: rest =>
      if !(text "=+-").contains op then none
      else
        let letters := rest.takeWhile (text "rwxugoXs").contains
        let bits := (letters.foldl (fun bits b => bits ||| letterBits granted b) 0 % 8) * who
        let granted :=
          if op = 0x2D then granted &&& (allBits ^^^ bits)
          else if op = 0x2B then granted ||| bits
          else bits ||| (granted &&& (allBits ^^^ (who * 7)))
        match rest.drop letters.length with
        | [] => some granted
        | c :: more =>
          if c = 0x2C then changedMode n 0 granted more
          else if (text "=+-").contains c then changedMode n who granted (c :: more)
          else none

/-- Show the bits that new files do not get, or change them. -/
def umask (p : Process) (args : List Bytes) : Process :=
  p.withOptions (text "S") [] args fun options args =>
    match args with
    | [] =>
      if options ≠ [] then p.print (shownMode p.mask ++ [newline])
      else
        let digits := inBase 8 p.mask
        p.print (List.replicate (4 - digits.length) 0x30 ++ digits ++ [newline])
    | a :: _ =>
      if (a.head?.map isDigit).getD false then
        if a.all (isDigitOf 8) then { p with mask := ofDigits 8 a % 0o1000 }.answer 0
        else p.abort (text "Illegal number: " ++ a)
      else match changedMode (a.length + 1) 0 (allBits ^^^ p.mask) a with
        | some granted => { p with mask := allBits ^^^ granted }.answer 0
        | none => p.abort (text "Illegal mode: " ++ a)

end Process

end TestRig.Shell
