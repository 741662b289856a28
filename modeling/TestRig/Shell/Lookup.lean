import TestRig.Launch
import TestRig.Shell.Arguments
import TestRig.Shell.Device
import TestRig.Shell.Reader

/-! # What names stand for

    The name of a command stands for commands that a script has defined, for
    a built-in one, or for a program that is found in the directories of the
    search path; a name with a separator is the path of a program. Programs
    that were found are remembered (`Tracked`), so that the search is not
    done again before the search path changes.

    A program that was found may still turn out not to be startable; then
    later directories have their turn (`startable`). -/

namespace TestRig.Shell

/-! ## Section 1: Built-in commands -/

/-- The commands that the shell knows itself. -/
inductive Builtin where
  | bracketedTest
  | changeDirectory
  | comeBack
  | comeRound
  | describe
  | dropAlias
  | echo
  | evaluate
  | exit
  | fail
  | findOption
  | forget
  | leave
  | limit
  | listJobs
  | makeAlias
  | makeLocal
  | makeVisible
  | mask
  | pass
  | plainly
  | printf
  | protect
  | read
  | replace
  | resume
  | runFile
  | send
  | setOptions
  | shift
  | showDirectory
  | test
  | times
  | track
  | trap
  | wait
  deriving DecidableEq

namespace Builtin

/-- The built-in commands by their names. -/
def table : List (String × Builtin) :=
  [(".", .runFile), (":", .pass), ("[", .bracketedTest), ("alias", .makeAlias), ("bg", .resume),
   ("break", .leave), ("cd", .changeDirectory), ("chdir", .changeDirectory), ("command", .plainly),
   ("continue", .comeRound), ("echo", .echo), ("eval", .evaluate), ("exec", .replace), ("exit", .exit),
   ("export", .makeVisible), ("false", .fail), ("fg", .resume), ("getopts", .findOption),
   ("hash", .track), ("jobs", .listJobs), ("kill", .send), ("local", .makeLocal), ("printf", .printf),
   ("pwd", .showDirectory), ("read", .read), ("readonly", .protect), ("return", .comeBack),
   ("set", .setOptions), ("shift", .shift), ("test", .test), ("times", .times), ("trap", .trap),
   ("true", .pass), ("type", .describe), ("ulimit", .limit), ("umask", .mask), ("unalias", .dropAlias),
   ("unset", .forget), ("wait", .wait)]

/-- The built-in command of a name. -/
def ofName? (name : Bytes) : Option Builtin :=
  (table.find? fun e => text e.1 = name).map (·.2)

/-- Does the command make the assignments that are among its arguments? -/
def makesAssignments (b : Builtin) : Bool :=
  [.makeAlias, .makeLocal, .makeVisible, .protect].contains b

end Builtin

/-- What a name stands for. -/
inductive Meaning where
  | definition (body : Command)
  | builtin (b : Builtin)
  /-- A program; `position` is that of its directory in the search path, if
      the name is no path. -/
  | program (position : Option Nat)
  | unknown (e : Errno)

/-! ## Section 2: Refusals -/

/-- What a refusal says; `missing` is said of what is not there. -/
def refusalText (missing : String) : SystemError → Bytes
  | .os .noEntry => text missing
  | .os .notDirectory => text missing
  | .os e => text e.wording
  | e => e.describe

/-- The status of a command whose program could not be started. -/
def refusalStatus (e : Errno) : Nat :=
  if [.noEntry, .notDirectory, .tooManyLinks, .nameTooLong].contains e then 127 else 126

/-- The numbered error of a refusal. -/
def refusalOf : SystemError → Errno
  | .os e => e
  | _ => .noEntry

/-! ## Section 3: Searching -/

/-- The directories that are searched if nothing is said about them. -/
def usualPath : Bytes := text "/usr/local/sbin:/usr/local/bin:/usr/sbin:/usr/bin:/sbin:/bin"

/-- The path of a name in a directory that is searched; an empty one stands
    for the current directory. -/
def candidate (name : Bytes) (dir : Path) : Path := if dir = [] then name else dir ++ slash :: name

namespace Process

/-- The directories that are searched for programs. -/
def searchPath (p : Process) : List Path := pieces 0x3A ((p.value? (text "PATH")).getD [])

/-- Is what is at the path a program? -/
def hasProgram (p : Process) (path : Path) : Except Errno Bool :=
  match p.ground.tree.look p.cwd path with
  | .ok (_, .file _ isExecutable) => .ok isExecutable
  | .ok _ => .ok false
  | .error e => .error (refusalOf e)

/-- Search directories, the first of which has the number `position`, for
    the program of a name. One that was found before at `known` is taken for
    granted there and searched for only in directories that are not
    absolute. -/
def searchProgram (p : Process) (name : Bytes) (known : Option Nat) :
    (position : Nat) → (refused : Errno) → List Path → Except Errno Nat
  | _, refused, [] => .error refused
  | position, refused, dir :: rest =>
    let isSettled := dir.isAbsolute && known.any (position ≤ ·)
    if isSettled && known = some position then .ok position
    else if isSettled then searchProgram p name known (position + 1) refused rest
    else match p.hasProgram (candidate name dir) with
      | .ok true => .ok position
      | .ok false => searchProgram p name known (position + 1) .accessDenied rest
      | .error .noEntry => searchProgram p name known (position + 1) refused rest
      | .error .notDirectory => searchProgram p name known (position + 1) refused rest
      | .error e => searchProgram p name known (position + 1) e rest

/-- What a name stands for, as far as that can be told without a search.
    `isPlain` leaves out what scripts have defined. -/
def meaningAtSight (p : Process) (isPlain : Bool) (name : Bytes) : Meaning :=
  if slash ∈ name then .program none
  else match p.definitions.lookup name, isPlain with
    | some body, false => .definition body
    | _, _ =>
      match Builtin.ofName? name with
      | some b => .builtin b
      | none => .unknown .noEntry

/-- Remember where a program was found. -/
def track (p : Process) (name : Bytes) (position : Nat) : Process :=
  let isKnown := p.tracked.any (·.name = name)
  let found : Tracked := ⟨name, position, false⟩
  { p with tracked :=
      if isKnown then p.tracked.map fun t => if t.name = name then found else t
      else p.tracked ++ [found] }

/-- What a name stands for. `elsewhere` are directories to be searched in
    place of the usual ones; what is found there is not remembered, and
    neither is what a definition hides. -/
def meaning (p : Process) (isPlain : Bool) (elsewhere : Option (List Path)) (name : Bytes) :
    Process × Meaning :=
  match p.meaningAtSight isPlain name with
  | .unknown _ =>
    let isHidden := (p.definitions.lookup name).isSome
    match elsewhere, isHidden, p.tracked.find? (·.name = name) with
    | none, false, known =>
      let settled := known.bind fun t => if t.isStale then none else some t.position
      match settled with
      | some position => (p, .program (some position))
      | none =>
        match p.searchProgram name (known.map Tracked.position) 0 .noEntry p.searchPath with
        | .ok position => (p.track name position, .program (some position))
        | .error e => ({ p with tracked := p.tracked.filter (·.name ≠ name) }, .unknown e)
    | dirs, _, _ =>
      match p.searchProgram name none 0 .noEntry (dirs.getD p.searchPath) with
      | .ok position => (p, .program (some position))
      | .error e => (p, .unknown e)
  | found => (p, found)

/-- The path by which a program is started that was found. -/
def pathOf (p : Process) (elsewhere : Option (List Path)) (name : Bytes) (position : Option Nat) : Path :=
  match position with
  | none => name
  | some n => candidate name (((elsewhere.getD p.searchPath)[n]?).getD [])

/-- Try to start programs of paths in turn: the first one that can be. -/
def firstStartable (p : Process) : (refused : Errno) → List Path → Except Errno (Path × Place)
  | refused, [] => .error refused
  | refused, path :: rest =>
    match p.ground.tree.executable p.cwd path with
    | .ok place => .ok (path, place)
    | .error (.os .noEntry) => firstStartable p refused rest
    | .error (.os .notDirectory) => firstStartable p refused rest
    | .error e => firstStartable p (refusalOf e) rest

/-- The program that is started for a name, found from `position` on. -/
def startable (p : Process) (elsewhere : Option (List Path)) (name : Bytes) (position : Option Nat) :
    Except Errno (Path × Place) :=
  if slash ∈ name then (p.ground.tree.executable p.cwd name).map (name, ·) |>.mapError refusalOf
  else
    let dirs := (elsewhere.getD p.searchPath).drop (position.getD 0)
    p.firstStartable .noEntry (dirs.map (candidate name))

/-! ## Section 4: Telling -/

/-- Tell what a name stands for, briefly or in words. -/
def tell (p : Process) (isBrief : Bool) (elsewhere : Option (List Path)) (name : Bytes) : Process × Bytes × Nat :=
  let told (what : Bytes) : Bytes × Nat :=
    (if isBrief then name ++ [newline] else name ++ text " is " ++ what ++ [newline], 0)
  let missing : Bytes × Nat := (if isBrief then [] else name ++ text ": not found\n", 127)
  if reservedWords.contains name then (p, told (text "a shell keyword"))
  else match p.aliases.lookup name with
    | some value =>
      if isBrief then (p, settingLine (text "alias ") name (some value), 0)
      else (p, told (text "an alias for " ++ value))
    | none =>
      let tracked := if elsewhere.isNone then p.tracked.find? (·.name = name) else none
      let (p, found) : Process × Meaning := match tracked with
        | some t => (p, .program (some t.position))
        | none => p.meaning false elsewhere name
      match found with
      | .definition _ => (p, told (text "a shell function"))
      | .builtin _ =>
        let kind := if specialCommands.contains name then "a special shell builtin" else "a shell builtin"
        (p, told (text kind))
      | .program position =>
        let isThere := position.isSome || (p.ground.tree.look p.cwd name).toOption.isSome
        let path := p.pathOf elsewhere name position
        if !isThere then (p, missing)
        else if isBrief then (p, path ++ [newline], 0)
        else (p, told ((if tracked.isSome then text "a tracked alias for " else []) ++ path))
      | .unknown _ => (p, missing)

/-- Tell what words stand for. -/
def tellAll (p : Process) (isBrief : Bool) (elsewhere : Option (List Path)) (names : List Bytes) : Process :=
  let (p, out, status) := names.foldl
    (fun (p, out, status) name =>
      let (p, told, failure) := p.tell isBrief elsewhere name
      (p, out ++ told, status ||| failure))
    (p, [], 0)
  let p := p.print out
  p.answer (p.status ||| status)

/-! ## Section 5: Tracked programs -/

/-- The order in which tracked programs are shown is that of this number,
    and of their first use for equal ones. -/
def trackRank (name : Bytes) : Nat :=
  (16 * (name.headD 0).toNat + total (name.map UInt8.toNat)) % 0x8000 % 31

/-- Show the programs that were looked up, forget them, or look some up. -/
def hash (p : Process) (args : List Bytes) : Process :=
  p.withOptions (text "r") [] args fun options names =>
    if options ≠ [] then { p with tracked := [], status := 0 }
    else if names = [] then
      let shown := p.tracked.mergeSort fun a b => trackRank a.name ≤ trackRank b.name
      p.print <| shown.flatMap fun t =>
        p.pathOf none t.name (some t.position) ++ text (if t.isStale then "*\n" else "\n")
    else
      names.foldl
        (fun p name =>
          let p := { p with tracked := p.tracked.filter (·.name ≠ name) }
          match p.meaning false none name with
          | (p, .unknown e) => p.complain (name ++ text ": " ++ refusalText "not found" (.os e)) 1
          | (p, _) => p)
        (p.answer 0)

end Process

end TestRig.Shell
