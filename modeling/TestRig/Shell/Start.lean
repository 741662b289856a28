import TestRig.Shell.Directory
import TestRig.Shell.Option
import TestRig.Shell.Redirection

/-! # Starting programs

    All programs are scripts in the end: the shell runs the text or the file
    that its arguments name, or else its standard input; a file whose first
    line names what runs it is run by that, and any other file by the shell.

    A program runs in a process of its own, or it takes the place of the
    process that starts it. Either way it gets the variables that children
    see, the open descriptors and the current directory, and it ignores the
    signals that were ignored. -/

namespace TestRig.Shell

/-! ## Section 1: The words for the shell -/

/-- The place of the shell. -/
def shellPlace : Place := [text "bin", text "sh"]

/-- The path of the shell. -/
def shellPath : Path := Tree.pathOf shellPlace

/-- How many bytes of a file are looked at for what runs it. -/
def headLimit : Nat := 256

/-- What runs a file, as its first line says: a path, and an argument that
    comes before all others. -/
def interpreter? (content : Bytes) : Option (Path × List Bytes) :=
  match content.take headLimit with
  | 0x23 :: 0x21 :: rest =>
    let line := (rest.takeWhile (· ≠ newline)).dropWhile isBlank
    let line := (line.reverse.dropWhile isBlank).reverse
    let path := line.takeWhile fun b => !isBlank b && b ≠ nul
    let argument := (line.drop path.length).dropWhile isBlank
    if path = [] then none else some (path, if argument = [] then [] else [argument])
  | _ => none

/-- How often what runs a file may be a file that something else runs. -/
def interpreterLimit : Nat := 5

/-- The words that the shell is started with for the program of a path;
    nothing if no line says what runs it. -/
def shellWords? (t : Tree) (cwd : Place) :
    (allowance : Nat) → Path → Place → (args : List Bytes) → (argv : List Bytes) →
      Except Errno (Option (List Bytes))
  | 0, _, _, _, _ => .error .tooManyLinks
  | n + 1, path, place, args, argv =>
    if place = shellPlace then .ok (some argv)
    else match (t.nodeAt place).bind fun node => match node with
        | .file s _ => interpreter? s
        | _ => none with
      | none => .ok none
      | some (by_, before) =>
        match t.executable cwd by_ with
        | .error e => .error (refusalOf e)
        | .ok other =>
          let args := before ++ path :: args
          shellWords? t cwd n by_ other args (by_ :: args)

/-- The words that the shell is started with for a program and its
    arguments, its name first. -/
def shellWords (t : Tree) (cwd : Place) (path : Path) (place : Place) (argv : List Bytes) :
    Except Errno (List Bytes) :=
  (shellWords? t cwd interpreterLimit path place argv.tail argv).map fun words =>
    words.getD (shellPath :: path :: argv.tail)

namespace Process

/-! ## Section 2: A process at its start -/

/-- The variables that a process has before it takes those that it is
    given. -/
def firstBindings : List (Bytes × Binding) :=
  ([("PATH", usualPath), ("PS1", text "# "), ("PS2", text "> "), ("PS4", text "+ ")] :
    List (String × Bytes)).map fun (name, value) => (text name, ⟨some value, false, false⟩)

/-- Give a variable a value, whatever it was; it stays one that children
    see, or none. -/
def reset (p : Process) (name value : Bytes) : Process :=
  p.setBinding name (some ⟨some value, (p.binding? name).any Binding.isExported, false⟩)

/-- Take the path of the current directory from the variable that tells it,
    if that is right. -/
def findDirectory (p : Process) : Process :=
  let told := p.value? (text "PWD")
  let isRight := told.any fun path =>
    path.isAbsolute && p.ground.tree.hasDirectory p.cwd &&
      (p.ground.tree.look p.cwd path).toOption.any (·.1 = p.cwd)
  p.setDirectory (if isRight then told else none)

/-- A process at its start. -/
def atStart (ground : Ground) (number parent : Nat) (cwd : Place) (environment : List (Bytes × Bytes))
    (ignored : List Nat) (mask : Nat) (descriptors : List (Nat × Nat)) : Process :=
  let p : Process :=
    { ground, jobs := [], number, script := number, parent, name := text "sh", args := [], cwd
      directory := [], isPhysical := false, bindings := firstBindings, definitions := [], aliases := []
      tracked := [], traps := [], ignored, pending := [], isAlerted := false, options := []
      optionIndex := 1, optionOffset := none, mask, descriptors, status := 0, flow := .running, line := 0
      speaker := none, loops := 0, depth := 0, kept := [], interrupted := none, substituted := 0
      lastBackground := none, isTracing := false, isAtEnd := false }
  let p := environment.foldl
    (fun p (name, value) =>
      if isName name then p.setBinding name (some ⟨some value, true, false⟩) else p)
    p
  let p := p.reset (text "IFS") [space, 0x09, newline]
  let p := p.reset (text "OPTIND") (decimal 1)
  (p.reset (text "PPID") (decimal parent)).findDirectory

/-- The signals that a program ignores which this process starts. -/
def ignoredByPrograms (p : Process) : List Nat :=
  p.ignored ++ p.traps.filterMap fun (signal, action) =>
    if action = [] ∧ signal ≠ 0 ∧ !isUnstoppable signal then some signal else none

/-- A process at its start that gets what programs get which this one
    starts. -/
def image (p : Process) (number parent : Nat) : Process :=
  .atStart p.ground number parent p.cwd p.environment p.ignoredByPrograms p.mask p.descriptors

/-! ## Section 3: Arguments of the shell -/

/-- What the arguments of the shell ask for. -/
structure Request where
  process : Process
  /-- Is the script among the arguments? -/
  isDirect : Bool

/-- Turn on or off what the letters of an argument stand for. Names of
    options are taken from the arguments after it, which are given back as
    far as they are left. -/
def takeLetters (isOn : Bool) : (letters : Bytes) → (args : List Bytes) → Request →
    Except Bytes (Request × List Bytes)
  | [], args, r => .ok (r, args)
  | b :: letters, args, r => do
    if b = 0x63 then takeLetters isOn letters args { r with isDirect := true }
    -- there are no scripts that are run at a log-in
    else if b = 0x6C then takeLetters isOn letters args r
    else
      let (process, args) ← setLetters isOn [b] args r.process
      takeLetters isOn letters args { r with process }

/-- Take the options of the shell from its arguments. -/
def takeOptions : (allowance : Nat) → List Bytes → Request → Except Bytes (Request × List Bytes)
  | 0, args, r => .ok (r, args)
  | n + 1, args, r =>
    match args with
    | [] => .ok (r, [])
    | [] :: _ => .ok (r, args)
    | [0x2D] :: args => .ok (r, args)
    | [0x2D, 0x2D] :: args => .ok (r, args)
    | (sign :: letters) :: rest =>
      if sign ≠ 0x2D ∧ sign ≠ 0x2B then .ok (r, args)
      else do
        let (r, args) ← takeLetters (sign = 0x2D) letters rest r
        takeOptions n args r

/-! ## Section 4: Scripts -/

/-- The descriptor by which a script is read. -/
def scriptDescriptor : Nat := 10

/-- Open a path and read all that is there, or say why that cannot be
    done. -/
def readPath (p : Process) (path : Path) : Except Bytes (Process × Bytes) :=
  match p.openPath .read path with
  | .error message => .error message
  | .ok (p, .fresh (.file place ..)) => .ok (p, p.content place)
  | .ok (p, .fresh _) => .ok (p, [])
  | .ok (p, .shared n) =>
    let before := p.descriptors
    let p := p.connect scriptDescriptor n
    let s := p.unread scriptDescriptor
    .ok ({ p.consume scriptDescriptor s.length with descriptors := before }, s)

/-- How often the end of a script is not taken for a wish to leave, if that
    is wanted. -/
def endLimit : Nat := 50

/-- Say how the shell is left, if the end of a script is not taken for a
    wish to leave. -/
def adviseAtEnd (p : Process) : Process :=
  if p.isRunning && p.has 0x49 then
    let advice := text "\nUse \"exit\" to leave shell."
    (List.replicate endLimit advice).foldl remark p
  else p

/-- Run a script from a file. -/
def runWhole (run : Runner) (script : Bytes) (p : Process) : Process :=
  (p.runText run false true script).adviseAtEnd

/-- How much of a script is read at once from the standard input. -/
def blockSize : Nat := 8192

/-- How many lines and blocks of the standard input are run. -/
def inputLimit : Nat := 1000000

/-- Run the lines that were read from the standard input, and then what else
    there is to read. More is read only if a line cannot be told without it,
    from what the standard input leads to by then. -/
def runBlocks (run : Runner) :
    (allowance : Nat) → (status : Option Nat) → Source → Process → Process
  | 0, _, _, p => p
  | n + 1, status, s, p =>
    let isOpen := { s with aliases := p.aliases }.isOpen
    match if isOpen then (p.unread 0).take blockSize else [] with
    | [] =>
      match p.runLine run false true status s with
      | (p, some (status, s)) => runBlocks run n status s p
      | (p, none) => p
    | block => runBlocks run n status (s.append block) (p.consume 0 block.length)

/-- Run what is left of the standard input. -/
def runInput (run : Runner) (p : Process) : Process :=
  (p.runBlocks run inputLimit none (.ofText [] 1)).adviseAtEnd

/-- Run the shell with its arguments in a process that is at its start. -/
def runShell (run : Runner) (args : List Bytes) (p : Process) : Process :=
  let refused (message : Bytes) : Process := { p.complain message 2 with flow := .exiting }
  let ended : Process :=
    match takeOptions (args.length + 1) args ⟨p, false⟩ with
    | .error message => refused message
    | .ok (⟨_, true⟩, []) => refused (text "-c requires an argument")
    | .ok (⟨p, true⟩, script :: rest) =>
      let p := { p with name := rest.headD p.name, args := rest.tail }.withoutMonitor
      let p := p.runText run false false script
      if p.isRunning && p.has 0x73 then p.runInput run else p
    | .ok (⟨p, false⟩, []) => (p.turn true 0x73).withoutMonitor.runInput run
    | .ok (⟨p, false⟩, file :: rest) =>
      if p.has 0x73 then { p with args := file :: rest }.withoutMonitor.runInput run
      else match p.readPath file with
        | .error message => refused message
        | .ok (p, script) => { p with name := file, args := rest }.withoutMonitor.runWhole run script
  ended.conclude run

/-- Run the shell with the words that it was started with. -/
def runWords (run : Runner) (words : List Bytes) (p : Process) : Process :=
  { p with name := words.headD [] }.runShell run words.tail

/-! ## Section 5: Programs -/

/-- The words that the shell is started with for a name that stands for a
    program. -/
def wordsFor (p : Process) (elsewhere : Option (List Path)) (position : Option Nat) (argv : List Bytes) :
    Except Errno (List Bytes) :=
  match p.startable elsewhere (argv.headD []) position with
  | .error e => .error e
  | .ok (path, place) =>
    let settings := p.environment.map fun (name, value) => name ++ 0x3D :: value
    if argumentsFit (argv ++ settings) then shellWords p.ground.tree p.cwd path place argv
    else .error .argumentsTooLong

/-- Say that a program could not be started. -/
def refuseProgram (p : Process) (name : Bytes) (e : Errno) : Process :=
  { p.complain (name ++ text ": " ++ refusalText "not found" (.os e)) (refusalStatus e) with
    flow := .exiting }

/-- Go on as another program. -/
def become (run : Runner) (p : Process) (elsewhere : Option (List Path)) (position : Option Nat)
    (argv : List Bytes) : Process :=
  match p.wordsFor elsewhere position argv with
  | .error e => p.refuseProgram (argv.headD []) e
  | .ok words =>
    let p := p.runQuickJobs run
    let ended := (p.image p.number p.parent).runWords run words
    { p with
      ground := ended.ground
      status := ended.status
      flow := match ended.flow with
        | .killed signal => .killed signal
        | _ => .replaced }

/-- Run a program in a process of its own and take its status. -/
def start (run : Runner) (p : Process) (elsewhere : Option (List Path)) (position : Option Nat)
    (argv : List Bytes) : Process :=
  match p.wordsFor elsewhere position argv with
  | .error e =>
    let (child, p) := p.runSplit run fun child => child.refuseProgram (argv.headD []) e
    p.afterChild child
  | .ok words =>
    let (after, number) := (p.runQuickJobs run).takeNumber
    let child := ({ p with ground := after.ground }.image number p.number).runWords run words
    { after with jobs := after.makeRoom.2 }.afterChild child

end Process

end TestRig.Shell
