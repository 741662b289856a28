import TestRig.Shell.Background
import TestRig.Shell.Builtin
import TestRig.Shell.Start

/-! # Running scripts

    `perform` runs a command on a process, part by part. Texts, named
    commands and programs that it comes across on the way are not parts of
    the command; it hands them to a runner, and running them with `perform`
    again is allowed to a fixed depth (`runnerAt`). Each loop may go round a
    fixed number of times. A script that exceeds one of these bounds is
    ended as one that has used up its memory or its time.

    `behaviour` is the behaviour of children that are scripts, and of the
    shell itself. -/

namespace TestRig.Shell

/-! ## Section 1: Limits -/

/-- The signal that ends a process that has used up its time. -/
def timeSignal : Nat := 24

/-- The signal that ends a process that has used up its memory. -/
def memorySignal : Nat := 11

/-! ## Section 2: The command that words name -/

/-- How far the words of a command have been read for what they name. -/
inductive NamingStage where
  /-- The next field is the name. -/
  | atName
  /-- The name was `command`; its options and another name may follow. -/
  | atOptions
  /-- The name is known; it may be one of a command that makes
      assignments. -/
  | settled (makesAssignments : Bool)

/-- What the words of a command name. -/
structure Naming where
  /-- All fields, the last one first. -/
  fields : List Bytes
  /-- How many fields come before the name. -/
  start : Nat
  /-- Nothing, if there are no fields. -/
  meaning : Option Meaning
  /-- Is the first name that of a special command? It is not known unless it
      is a built-in one. -/
  isSpecial : Option Bool
  /-- Are definitions left out? -/
  isPlain : Bool
  /-- Directories that are searched in place of the usual ones. -/
  elsewhere : Option (List Path)
  stage : NamingStage

namespace Naming

/-- No field was read. -/
def start_ : Naming := ⟨[], 0, none, none, false, none, .atName⟩

/-- Take the last field for the name. -/
def takeName (p : Process) (n : Naming) (name : Bytes) : Naming :=
  let meaning := p.meaningAtSight n.isPlain name
  let n := { n with start := n.fields.length - 1, meaning := some meaning }
  match meaning with
  | .builtin b =>
    let isSpecial := some (n.isSpecial.getD (specialCommands.contains name))
    { n with isSpecial, stage := if b = .plainly then .atOptions else .settled b.makesAssignments }
  | _ => { n with stage := .settled false }

/-- Take the next field. -/
def take (p : Process) (n : Naming) (field : Bytes) : Naming :=
  let n := { n with fields := field :: n.fields }
  match n.stage, field with
  | .settled _, _ => n
  | .atName, name => n.takeName p name
  | .atOptions, [0x2D, 0x2D] => { n with isPlain := true, stage := .atName }
  | .atOptions, 0x2D :: b :: letters =>
    -- with any other option, words are only told about
    let isTold := (b :: letters).any (· ≠ 0x70)
    { n with
      elsewhere := if b = 0x70 then some (pieces 0x3A usualPath) else n.elsewhere
      stage := if isTold then .settled false else .atOptions }
  | .atOptions, name => { n with isPlain := true }.takeName p name

/-- All fields in order. -/
def allFields (n : Naming) : List Bytes := n.fields.reverse

/-- The name and the arguments after it. -/
def argv (n : Naming) : List Bytes := n.allFields.drop n.start

/-- Is the command one whose assignments stay, and whose errors end the
    script? -/
def isForScript (n : Naming) : Bool := n.isSpecial = some true

/-- Do assignments in front of the command hold for it alone? -/
def ownsAssignments (n : Naming) : Bool :=
  match n.meaning with
  | none => false
  | some (.builtin _) => !n.isForScript
  | some _ => true

/-- Does the process go on as another program, or redirect its own
    descriptors? -/
def isReplacing (n : Naming) : Bool :=
  match n.meaning with
  | some (.builtin .replace) => true
  | _ => false

end Naming

namespace Process

/-- The fields of the words of a command. Assignments among the arguments of
    a command that makes them are not split. -/
def nameFields (run : Runner) (p : Process) (n : Naming) : List Word → Process × Naming
  | [] => (p, n)
  | w :: ws =>
    let isSetting := match n.stage with
      | .settled makesAssignments => makesAssignments
      | _ => false
    let (p, fields) : Process × List Bytes := match isSetting, w.assignment? with
      | true, some (name, value) =>
        let (p, s) := p.expandValue run value
        (p, [name ++ 0x3D :: s])
      | _, _ => p.expand run w
    if p.isRunning then nameFields run p (fields.foldl (Naming.take p) n) ws else (p, n)

/-! ## Section 3: Commands that run others -/

/-- How many named commands may be around each other. -/
def callLimit : Nat := 1000

/-- Run a named command with arguments of its own. -/
def call (run : Runner) (manner : Manner) (body : Command) (p : Process) (args : List Bytes) : Process :=
  if callLimit ≤ p.depth then
    p.abort (text "Maximum function recursion depth (" ++ decimal callLimit ++ text ") reached")
  else
    let own := { p.setArguments args with loops := 0, depth := p.depth + 1 }
    let after := run.perform ⟨manner.isTested, false⟩ body own
    { after with
      args := p.args
      optionIndex := p.optionIndex
      optionOffset := p.optionOffset
      loops := p.loops
      depth := p.depth
      flow := match after.flow with
        | .returning _ => .running
        | flow => flow }

/-- The file of commands that a name stands for. -/
def commandFile? (p : Process) (name : Bytes) : Option Path :=
  if slash ∈ name then some name
  else
    (p.searchPath.map (candidate name)).find? fun path =>
      match p.ground.tree.look p.cwd path with
      | .ok (place, .file ..) => (device? place).isNone
      | _ => false

/-- Run a file of commands in the process itself. -/
def runFile (run : Runner) (p : Process) (args : List Bytes) : Process :=
  p.withOptions [] [] args fun _ args =>
    match args with
    | [] => p.answer 0
    | name :: _ =>
      match (p.commandFile? name).map fun path => (path, p.readPath path) with
      | none => p.abort (name ++ text ": not found")
      | some (_, .error message) => p.abort message
      | some (path, .ok (p, script)) =>
        let after := { p with speaker := some path }.runText run false true script
        { after with
          flow := match after.flow with
            | .returning _ => .running
            | flow => flow }

/-- Tell what a word stands for, if that is wanted. -/
def plainly (p : Process) (args : List Bytes) : Process :=
  p.withOptions (text "pvV") [] args fun options names =>
    let letters := options.map (·.1)
    let elsewhere := if letters.contains 0x70 then some (pieces 0x3A usualPath) else none
    let isTold := letters.any (· ≠ 0x70)
    if isTold then p.tellAll (!letters.contains 0x56) elsewhere (names.take 1) else p.answer 0

/-- Run a built-in command with its arguments. -/
def builtin (run : Runner) (manner : Manner) (b : Builtin) (args : List Bytes) (p : Process) :
    Process :=
  match b with
  | .bracketedTest => p.bracketedTest args
  | .changeDirectory => p.cd args
  | .comeBack => p.comeBack args
  | .comeRound => p.leave .continuing args
  | .describe => p.tellAll false none args
  | .dropAlias => p.unalias args
  | .echo => p.print (Shell.echo args)
  | .evaluate =>
    if args = [] then p.answer 0 else p.runText run manner.isTested false (joined space args)
  | .exit => p.exit args
  | .fail => p.answer 1
  | .findOption => p.getopts args
  | .forget => p.unset args
  | .leave => p.leave .leaving args
  | .limit => p.limit args
  | .listJobs => p.listJobs args
  | .makeAlias => p.alias_ args
  | .makeLocal => p.makeLocal args
  | .makeVisible => p.makeVisible args
  | .mask => p.umask args
  | .pass => p.answer 0
  | .plainly => p.plainly args
  | .printf => p.printf args
  | .protect => p.protect args
  | .read => p.read args
  | .replace => if args = [] then p.answer 0 else p.become run none none args
  | .resume => p.resume args
  | .runFile => p.runFile run args
  | .send => p.kill args
  | .setOptions => p.set args
  | .shift => p.shift args
  | .showDirectory => p.pwd args
  | .test => p.test args
  | .times => p.times
  | .track => p.hash args
  | .trap => p.trap args
  | .wait => p.wait run args

/-! ## Section 4: Simple commands -/

/-- Do the assignments in front of a command one after the other, and give
    their texts. They may hold for the command alone, and they may be for
    its children to see. -/
def assignWords (run : Runner) (isOwn isExported : Bool) (p : Process) :
    List (Bytes × Word) → Process × List Bytes
  | [] => (p, [])
  | (name, word) :: rest =>
    let (p, value) := p.expandValue run word
    if !p.isRunning then (p, [])
    else
      let p := if isOwn then p.keep name else p
      let p := if isOwn || isExported then p.assignExported name value else p.assign name value
      if !p.isRunning then (p, [])
      else
        let (p, shown) := assignWords run isOwn isExported p rest
        (p, (name ++ 0x3D :: value) :: shown)

/-- What is shown in front of a command. -/
def traceStart (run : Runner) (p : Process) : Process × Bytes :=
  let plain := (p.value? (text "PS4")).getD []
  let expanded (p : Process) (s : Bytes) : Process × Bytes :=
    let p := { p with isTracing := false }
    if p.flow = .failing then ({ p with flow := .running }, plain) else (p, s)
  match readText p.isAtEnd plain p.aliases with
  | .error m =>
    expanded ({ p with line := m.line, isAtEnd := false }.abort (text "Syntax error: " ++ m.message)) []
  | .ok (w, isAtEnd) =>
    let (p, s) := { p with isTracing := true, isAtEnd }.expandDocument run w
    expanded p s

/-- Show a command that is about to be run, if that is wanted. It is shown
    on the error output of the process `before` its redirections. -/
def trace (run : Runner) (before : Process) (words : List Bytes) (p : Process) : Process :=
  if !p.has 0x78 || p.isTracing then p
  else
    let (p, start) := p.traceStart run
    if !p.isRunning then p
    else
      let shown := match before.streamNumber? 2 with
        | some n => p.connect 2 n
        | none => p
      let (after, _) := shown.write 2 (start ++ joined space words ++ [newline])
      { after with descriptors := p.descriptors }

/-- Run the command that words name. -/
def invoke (run : Runner) (manner : Manner) (n : Naming) (p : Process) : Process :=
  match n.meaning, n.argv with
  | none, _ => p.answer p.substituted
  | some _, [] => p.answer p.substituted
  | some meaning, name :: args =>
    let (p, meaning) : Process × Meaning := match meaning with
      | .builtin b => (p, .builtin b)
      | _ => p.meaning n.isPlain n.elsewhere name
    match meaning with
    | .builtin b => p.speak name n.isForScript fun p => p.builtin run manner b args
    | .definition body => p.call run manner body args
    | .program position =>
      if manner.isLast && !p.hasTraps then p.become run n.elsewhere position (name :: args)
      else p.start run n.elsewhere position (name :: args)
    | .unknown e => p.complain (name ++ text ": " ++ refusalText "not found" (.os e)) 127

/-- Do a simple command. Its redirections hold for it alone, and its
    assignments too unless it is special or no command at all. -/
def simple (run : Runner) (manner : Manner) (assignments : List (Bytes × Word)) (words : List Word)
    (redirects : List Redirect) (p : Process) : Process :=
  let (p, n) := { p with substituted := 0 }.nameFields run .start_ words
  let isOwn := n.ownsAssignments
  let isExported := n.isReplacing && n.argv.length > 1
  let body (p : Process) : Process :=
    let (p, aims) := p.expandAims run redirects
    if !p.isRunning then p
    else match p.redirectAll run false aims with
      | (after, false) =>
        let after := after.restore p aims
        if after.isRunning && n.isForScript then { after with flow := .failing } else after
      | (after, true) =>
        let (after, shown) := after.assignWords run isOwn isExported assignments
        let after := if after.isRunning then trace run p (shown ++ n.allFields) after else after
        let after := if after.isRunning then after.invoke run manner n else after
        if n.isReplacing && after.isRunning then after else after.restore p aims
  if !p.isRunning then p
  else if isOwn then p.keeping body
  else body p

/-! ## Section 5: Commands -/

/-- Exit after a failure that was not asked about, if that is wanted. -/
def leaveIfFailed (hasFailed : Bool) (manner : Manner) (p : Process) : Process :=
  if hasFailed && p.has 0x65 && !manner.isTested && (p.isRunning || p.isSkipping) then
    { p with flow := .exiting }
  else p

/-- Run the body of a command, and handle the signals that were received
    before and after it. With `isChecked`, a failure that was not asked
    about ends the process if that is wanted. -/
def around (run : Runner) (isChecked : Bool) (manner : Manner) (body : Process → Process) (p : Process) :
    Process :=
  let p := p.runPending run
  if !p.isRunning || p.has 0x6E then p
  else
    let p := body p
    (p.runPending run).leaveIfFailed (isChecked && p.status ≠ 0) manner

/-- The rounds that a loop may go. -/
def roundLimit : Nat := 1000000000

/-- Come to the end of a round of a loop: does the loop go on? -/
def afterRound (p : Process) : Process × Bool :=
  match p.flow with
  | .running => (p, true)
  | .continuing n => if n ≤ 1 then ({ p with flow := .running }, true)
    else ({ p with flow := .continuing (n - 1) }, false)
  | .leaving n => ({ p with flow := if n ≤ 1 then .running else .leaving (n - 1) }, false)
  | _ => (p, false)

/-- Repeat a body as long as a test gives the wanted answer. `status` is
    that of the last round. -/
def loop (untilDone : Bool) (test body : Process → Process) :
    (rounds : Nat) → (status : Nat) → Process → Process
  | 0, _, p => { p with flow := .killed timeSignal }
  | rounds + 1, status, p =>
    let p := test p
    if p.isSkipping then
      let status := if p.flow = .returning true then p.status else status
      match p.afterRound with
      | (p, true) => loop untilDone test body rounds status p
      | (p, false) => p.answer status
    else if !p.isRunning then p
    else if (p.status = 0) = untilDone then p.answer status
    else
      match (body p).afterRound with
      | (p, true) => loop untilDone test body rounds p.status p
      | (p, false) => p

/-- Run a body once for each item. -/
def loopThrough (name : Bytes) (body : Process → Process) : List Bytes → Process → Process
  | [], p => p
  | item :: items, p =>
    let p := p.assign name item
    if !p.isRunning then p
    else
      match (body p).afterRound with
      | (p, true) => loopThrough name body items p
      | (p, false) => p

/-- Run a body with a loop more around it. -/
def inLoop (body : Process → Process) (p : Process) : Process :=
  let after := body { p with loops := p.loops + 1 }
  -- an error leaves the loop without an end
  if after.flow = .failing then after else { after with loops := p.loops }

/-- Does the subject match one of the patterns? The words of the patterns
    are expanded on the way. -/
def matchesOne (run : Runner) (subject : Bytes) (p : Process) : List Word → Process × Bool
  | [] => (p, false)
  | w :: ws =>
    let (p, gs) := p.expandGlyphs run w
    if !p.isRunning then (p, false)
    else if (Pattern.ofGlyphs gs).isMatch subject then (p, true)
    else matchesOne run subject p ws

/-! ## Section 6: More than one process -/

/-- How much may be written into a pipe, as long as nobody reads from it:
    what it holds, and what its reader may take out of it. -/
def pipeRoom : Nat := 262144

/-- Look up the program of a command that is part of a pipeline. -/
def lookUpAhead (p : Process) : Command → Process
  | .simple _ _ (w :: _) _ =>
    match bareText? w with
    | some name => if isName name then (p.meaning false none name).1 else p
    | none => p
  | _ => p

/-- Start a job in the background; each command comes with the manner in
    which it will be run. -/
def startJob (commands : List (Manner × Command)) (p : Process) : Process :=
  let (slot, jobs) := p.makeRoom
  let (p, empty) := { p with jobs }.openStream .nothing
  let last := commands.length - 1
  let (p, parts, _) := (List.range commands.length).zip commands |>.foldl
    (fun (p, parts, input) (i, manner, c) =>
      let p := if 0 < last then p.lookUpAhead c else p
      let (p, number) := p.takeNumber
      let own := p.splitOff number
      let child : Process :=
        { toOwn := { own with ignored := interruptSignal :: quitSignal :: own.ignored }
          ground := p.ground, jobs := [] }
      let child := child.connect 0 input
      let (child, output) :=
        if i = last then (child, empty)
        else
          let (child, n) := child.openStream (.pipe [] [] (some pipeRoom))
          (child.connect 1 n, n)
      ({ p with ground := child.ground },
        parts ++ [(⟨number, .held child.toOwn manner c⟩ : JobPart)], output))
    (p, ([] : List JobPart), empty)
  let number := (parts.getLast?.map JobPart.number).getD 0
  { p with jobs := ⟨slot, parts, false⟩ :: p.jobs, lastBackground := some number, status := 0 }

/-- Run something in a process of its own that is part of a pipeline: how it
    has ended, and the process that goes on. It does not notice yet that a
    child of it has ended. -/
def runPart (run : Runner) (input output : Option Nat) (body : Process → Process) (p : Process) :
    Process × Ending :=
  let (child, p) := p.runSplit run fun child =>
    let child := match input with
      | some n => child.connect 0 n
      | none => child
    body <| match output with
      | some n => child.connect 1 n
      | none => child
  let living := child.ground.living.filter (· ≠ child.number)
  ({ p with ground := { child.ground with living } }, child.ending)

/-- Go on after all processes of a pipeline have ended. -/
def afterParts (p : Process) (hows : List Ending) : Process :=
  let p := (if p.isTrapping childSignal then p.receive childSignal else p).collect
  let p := hows.foldl report p
  p.answer ((hows.getLast?.map endingStatus).getD 0)

/-- Have redirections done for good in a process of its own; an error ends
    it. -/
def redirectForGood (run : Runner) (aims : List (RedirectTo Aim)) (body : Process → Process)
    (p : Process) : Process :=
  match p.redirectAll run true aims with
  | (p, true) => body p
  | (p, false) => if p.isRunning then { p with flow := .failing } else p

/-! ## Section 7: All commands -/

mutual

/-- Run a command on a process that is running. -/
def perform (run : Runner) (manner : Manner) : Command → Process → Process
  | .nothing, p => p.runPending run
  | .simple line assignments words redirects, p =>
    p.around run true manner fun p =>
      simple run manner assignments words redirects { p with line }
  | .sequence a b, p =>
    p.around run false manner fun p =>
      let p := perform run ⟨manner.isTested, false⟩ a p
      if p.isRunning then perform run manner b p else p
  | .both a b, p =>
    p.around run false manner fun p =>
      let p := perform run ⟨true, false⟩ a p
      if p.isRunning ∧ p.status = 0 then perform run manner b p else p
  | .either a b, p =>
    p.around run false manner fun p =>
      let p := perform run ⟨true, false⟩ a p
      if p.isRunning ∧ p.status ≠ 0 then perform run manner b p else p
  | .negated a, p =>
    p.around run false manner fun p =>
      let p := perform run ⟨true, false⟩ a p
      if p.isRunning then p.decided (p.status ≠ 0) else p
  | .piped commands, p =>
    p.around run true manner fun p =>
      let n := p.ground.streams.length
      let (p, hows) := performParts run manner none commands p
      (p.afterParts hows).forgetStreams n
  | .background line a, p =>
    p.around run true manner fun p =>
      match a with
      | .piped commands => p.startJob (commands.map fun c => (⟨manner.isTested, true⟩, c))
      | .redirected _ a redirects =>
        let (p, aims) := { p with line }.expandAims run redirects
        if p.isRunning then p.startJob [(⟨false, true⟩, .enclosed line a (aims.map settled))] else p
      | a => { p with line }.startJob [(⟨false, true⟩, a)]
  | .enclosed line a redirects, p =>
    p.around run true manner fun p =>
      let (p, aims) := { p with line }.expandAims run redirects
      let body := redirectForGood run aims fun p => perform run ⟨manner.isTested, true⟩ a p
      if !p.isRunning then p
      else if manner.isLast && !p.hasTraps then
        let p := body p
        if p.isRunning || p.isSkipping then { p with flow := .exiting } else p
      else
        let (child, p) := p.runSplit run body
        p.afterChild child
  | .redirected line a redirects, p =>
    p.around run false manner fun p =>
      let (p, aims) := { p with line }.expandAims run redirects
      if !p.isRunning then p
      else match p.redirectAll run false aims with
        | (after, false) => (after.restore p aims).leaveIfFailed true manner
        | (after, true) => (perform run ⟨manner.isTested, false⟩ a after).restore p aims
  | .conditional test yes no, p =>
    p.around run false manner fun p =>
      let p := perform run ⟨true, false⟩ test p
      if !p.isRunning then p
      else if p.status = 0 then perform run manner yes p
      else match no with
        | .nothing => p.answer 0
        | no => perform run manner no p
  | .repeated untilDone test body, p =>
    p.around run false manner <| inLoop <|
      loop untilDone (fun p => perform run ⟨true, false⟩ test p)
        (fun p => perform run ⟨manner.isTested, false⟩ body p) roundLimit 0
  | .forEach line name words body, p =>
    p.around run false manner fun p =>
      let (p, items) := { p with line }.expandAll run words
      if !p.isRunning then p
      else (p.answer (if items = [] then 0 else p.status)).inLoop <|
        loopThrough name (fun p => perform run ⟨manner.isTested, false⟩ body p) items
  | .choice line subject arms, p =>
    p.around run false manner fun p =>
      let (p, subject) := { p with line }.expandText run subject
      if p.isRunning then performArms run manner subject arms p else p
  | .define _ name body, p =>
    p.around run false manner fun p =>
      { p with
        definitions := (name, body) :: p.definitions.filter (·.1 ≠ name)
        tracked := p.tracked.filter (·.name ≠ name)
        status := 0 }

/-- Run the first arm one of whose patterns the subject matches. -/
def performArms (run : Runner) (manner : Manner) (subject : Bytes) :
    List (List Word × Command) → Process → Process
  | [], p => p.answer 0
  | (patterns, body) :: arms, p =>
    let (p, isMatch) := p.matchesOne run subject patterns
    if !p.isRunning then p
    else if !isMatch then performArms run manner subject arms p
    else match body with
      | .nothing => p.answer 0
      | body => perform run manner body p

/-- Run the commands of a pipeline, each reading what the one before has
    written. -/
def performParts (run : Runner) (manner : Manner) (input : Option Nat) :
    List Command → Process → Process × List Ending
  | [], p => (p, [])
  | c :: rest, p =>
    let p := p.lookUpAhead c
    let (p, output) : Process × Option Nat :=
      if rest.isEmpty then (p, none)
      else
        let (p, n) := p.openStream (.pipe [] [] (some pipeRoom))
        (p, some n)
    let (p, how) := p.runPart run input output fun p => perform run ⟨manner.isTested, true⟩ c p
    let (p, hows) := performParts run manner output rest p
    (p, how :: hows)

end

/-- How deep texts, named commands and programs may be nested. -/
def depthLimit : Nat := 4000

/-- Run commands that nest to a depth. -/
def runnerAt : (depth : Nat) → Runner
  | 0 => ⟨fun _ _ p => { p with flow := .killed memorySignal }, id⟩
  | depth + 1 => ⟨perform (runnerAt depth), runAllJobs (runnerAt depth)⟩

/-- What a process leaves behind at its end. -/
def childEnd (p : Process) : ChildEnd where
  status := p.waitStatus
  tree := p.ground.tree
  stdin := p.ground.stdin
  stdout := p.ground.stdout.reverse.flatten
  stderr := p.ground.stderr.reverse.flatten

end Process

/-- The line that a file starts with if the shell is to run it. -/
def scriptHead : Bytes := text "#!" ++ shellPath ++ [newline]

/-- The number of the process that starts scripts. -/
def startNumber : Nat := 1

/-- Signals that the process ignores which starts scripts. -/
def ignoredAtStart : List Nat := [32, 33]

/-- The bits that new files do not get at first. -/
def startMask : Nat := 0o022

/-- The process of a child at its start. -/
def Process.ofScene (scene : Scene) : Process :=
  let number := startNumber + 1
  let ground : Ground :=
    ⟨scene.tree, scene.stdin, [], [], [.input, .output, .errors], number + 1, [number, startNumber], []⟩
  .atStart ground number startNumber scene.cwd scene.environment ignoredAtStart startMask
    [(0, 0), (1, 1), (2, 2)]

/-- The behaviour of children: the shell runs its arguments, and any other
    program is a script. -/
def behaviour : Behaviour := fun program argv scene =>
  let p := Process.ofScene scene
  let name := argv.headD []
  let path := if slash ∈ name then name else Tree.pathOf program
  match shellWords scene.tree scene.cwd path program argv with
  | .ok words => (p.runWords (Process.runnerAt Process.depthLimit) words).childEnd
  | .error e => { p with status := refusalStatus e }.childEnd

end TestRig.Shell
