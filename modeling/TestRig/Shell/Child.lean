import TestRig.Shell.Process
import TestRig.Shell.Reader

/-! # Running texts and children

    What runs commands is a `Runner`; the functions of this module take one
    and run more than one command with it: all lines of a text, the actions
    on signals, commands in a process of their own, whose output may be
    collected, and commands in the background. -/

namespace TestRig.Shell

/-! ## Section 1: Running in a child -/

/-- What runs a command, and what runs the jobs of a process that have not
    begun. -/
structure Runner where
  perform : Manner → Command → Process → Process
  runJobs : Process → Process

instance : Inhabited Runner := ⟨⟨fun _ _ p => p, id⟩⟩

/-! ## Section 2: Texts -/

/-- What reading a text has gone beyond, up to the end of a line, when
    `left` bytes are left. -/
def Source.linesUntil (s : Source) (left : Nat) : Bytes :=
  let own := s.rest.drop (s.rest.length - s.left)
  let taken := own.take (s.left - left)
  let rest := own.drop taken.length
  if taken.getLast? = some newline || taken = [] then taken
  else taken ++ rest.takeWhile (· ≠ newline) ++ (rest.dropWhile (· ≠ newline)).take 1

namespace Process

/-- Show the lines of a text that were read, if that is wanted. -/
def showLines (p : Process) (isShown : Bool) (s : Source) (left : Nat) : Process :=
  if isShown && p.has 0x76 then (p.write 2 (s.linesUntil left)).1 else p

/-- Run the next line of a text, and give the status and what is left of the
    text if it goes on. `status` is that of the last command, if there was
    one. `isTested` says that a failure is asked about, and `isFile` that
    the text is read from a file, so that its lines may be shown. -/
def runLine (run : Runner) (isTested isFile : Bool) (status : Option Nat) (s : Source) (p : Process) :
    Process × Option (Option Nat × Source) :=
  match readLine { s with aliases := p.aliases } with
  | .error m =>
    ({ p.showLines isFile s m.left with line := m.line, isAtEnd := false }.abort
      (text "Syntax error: " ++ m.message), none)
  | .ok (.finished, after) =>
    ({ p.showLines isFile s after.left with isAtEnd := true }.answer (status.getD 0), none)
  | .ok (.commands c isLast, after) =>
    let p := { p.showLines isFile s after.left with isAtEnd := isLast }
    match c with
    | .nothing => (p, some (status, after))
    | c =>
      let p := run.perform ⟨isTested, false⟩ c p
      (p, if p.isRunning then some (some p.status, after) else none)

/-- Run what is left of a text, line by line. -/
def runLines (run : Runner) (isTested isFile : Bool) :
    (allowance : Nat) → (status : Option Nat) → Source → Process → Process
  | 0, _, _, p => p
  | n + 1, status, s, p =>
    match p.runLine run isTested isFile status s with
    | (p, some (status, s)) => p.runLines run isTested isFile n status s
    | (p, none) => p

/-- How many lines a text may have, those from aliases among them. -/
def lineLimit (s : Bytes) : Nat := s.length + 1000000

/-- Run a text. -/
def runText (run : Runner) (isTested isFile : Bool) (s : Bytes) (p : Process) : Process :=
  p.runLines run isTested isFile (lineLimit s) none (.ofText s 1)

/-! ## Section 3: Actions on signals -/

/-- Run the action on a signal; the status is afterwards what it was before,
    unless the action has returned with another one. -/
def runAction (run : Runner) (action : Bytes) (p : Process) : Process :=
  let status := p.interrupted.getD p.status
  let after := runText run false false action { p with interrupted := some status }
  let restored := { after with interrupted := p.interrupted }
  match after.flow with
  | .running => restored.answer status
  | .leaving _ => restored.answer status
  | .continuing _ => restored.answer status
  | .returning false => restored.answer status
  | .returning true => restored
  | _ => after

/-- Handle the signals that were received, in the order of their numbers,
    unless the process is on its way out of something. While this is done,
    only new signals are noticed. -/
def runPending (run : Runner) (p : Process) : Process :=
  if !p.isAlerted || !p.isRunning then p
  else
    (List.range (freeSignals.2 + 1)).foldl
      (fun p signal =>
        if !p.pending.contains signal then p
        else if p.isSkipping then { p with isAlerted := true }
        else if !p.isRunning then p
        else
          let p := { p with pending := p.pending.filter (· ≠ signal) }
          match p.traps.lookup signal with
          | some action => runAction run action p
          | none => p)
      { p with isAlerted := false }

/-! ## Section 4: Ends -/

/-- Do what is to be done at the end, once. -/
def sayFarewell (run : Runner) (p : Process) : Process :=
  match p.traps.lookup 0 with
  | none => p
  | some [] => p
  | some action =>
    let status := p.status
    let p := { p with
      traps := p.traps.filter (·.1 ≠ 0)
      flow := .running
      loops := 0
      interrupted := some status }
    let p := runText run false false action p
    if p.isRunning || p.isSkipping then p.answer status else p

/-- Come to the end: do what is to be done then, and let the jobs run. -/
def conclude (run : Runner) (p : Process) : Process :=
  match p.flow with
  | .killed _ => run.runJobs p
  | .replaced => run.runJobs p
  | _ =>
    let p := { p with status := p.status % 256, flow := .exiting }
    let p := p.sayFarewell run
    let ended := run.runJobs { p with flow := .exiting }
    match p.flow with
    | .killed _ => { ended with flow := p.flow }
    | .replaced => { ended with flow := p.flow }
    | _ => ended

/-! ## Section 5: Jobs -/

/-- Run a process of a job to its end. -/
def runHeld (run : Runner) (p : Process) (child : Own) (manner : Manner) (c : Command) : Process :=
  let child : Process := { toOwn := child, ground := p.ground, jobs := [] }
  let child := child.collect
  (if child.isRunning then run.perform manner c child else child).conclude run

/-- Let all processes of a job run to their ends, and report these if that
    is wanted. -/
def runJob (run : Runner) (isReported : Bool) (slot : Nat) (p : Process) : Process :=
  match p.jobs.find? (·.slot = slot) with
  | none => p
  | some job =>
    let (p, parts) := job.parts.foldl
      (fun (p, parts) part =>
        match part.state with
        | .ended _ => (p, parts ++ [part])
        | .held child manner c =>
          let child := p.runHeld run child manner c
          let how := child.ending
          let p := p.takeGround child
          (if isReported then p.report how else p, parts ++ [{ part with state := .ended how }]))
      (p, [])
    { p with jobs := p.jobs.map fun j => if j.slot = slot then { j with parts } else j }

/-- Does a word hold a command of its own? -/
def hasSubstitution (w : Word) : Bool :=
  w.any fun f => match f with
    | .literal .. => false
    | .parameter _ _ word _ => !word.isEmpty
    | .substitution .. => true
    | .arithmetic .. => false

/-- Names of built-in commands that take no time to speak of, whatever their
    arguments are. -/
def quickCommands : List Bytes :=
  [":", "[", "cd", "echo", "exit", "export", "false", "kill", "printf", "pwd", "read", "readonly", "set",
   "shift", "test", "true", "umask", "unset"].map text

mutual

/-- Is the command done in no time? It is if it starts no program and has no
    loop without bounds; `known` are names of commands that are. -/
def isQuick (known : List Bytes) : Command → Bool
  | .nothing => true
  | .simple _ assignments words redirects =>
    let isKnown := match words.head?.map bareText? with
      | none => true
      | some name => name.any known.contains
    isKnown && !assignments.any (fun a => hasSubstitution a.2) && !words.any hasSubstitution &&
      !redirects.any fun r => hasSubstitution r.target
  | .sequence a b => isQuick known a && isQuick known b
  | .both a b => isQuick known a && isQuick known b
  | .either a b => isQuick known a && isQuick known b
  | .negated a => isQuick known a
  | .enclosed _ a redirects => isQuick known a && !redirects.any fun r => hasSubstitution r.target
  | .redirected _ a redirects => isQuick known a && !redirects.any fun r => hasSubstitution r.target
  | .conditional test yes no => isQuick known test && isQuick known yes && isQuick known no
  | .forEach _ _ words body => isQuick known body && !words.any hasSubstitution
  | .choice _ subject arms => !hasSubstitution subject && areQuick known arms
  | .define .. => true
  | .piped _ => false
  | .background .. => false
  | .repeated .. => false

/-- Are all arms done in no time? -/
def areQuick (known : List Bytes) : List (List Word × Command) → Bool
  | [] => true
  | (patterns, body) :: arms => !patterns.any hasSubstitution && isQuick known body && areQuick known arms

end

/-- The names of commands that a process does in no time. -/
def quickNames (own : Own) : List Bytes :=
  let given := quickCommands.filter fun name => (own.definitions.lookup name).isNone
  given ++ (own.definitions.filter fun d => isQuick given d.2).map (·.1)

/-- Is a job that has not begun done in no time? -/
def isQuickJob (j : Job) : Bool :=
  j.parts.all fun part => match part.state with
    | .held child _ c => isQuick (quickNames child) c
    | .ended _ => false

/-- The slots of jobs in the order in which they come to their ends: those
    first that are done in no time, and then the earliest. -/
def slotsInOrder (jobs : List Job) : List Nat :=
  let (quick, slow) := jobs.reverse.partition isQuickJob
  (quick ++ slow).map Job.slot

/-- Let jobs run to their ends. -/
def runJobsOf (run : Runner) (slots : List Nat) (p : Process) : Process :=
  slots.foldl (fun p slot => p.runJob run false slot) p

/-- Let all jobs run to their ends. -/
def runAllJobs (run : Runner) (p : Process) : Process := p.runJobsOf run (slotsInOrder p.jobs)

/-- Let the jobs run that are done in no time. They are before another
    process gets to run. -/
def runQuickJobs (run : Runner) (p : Process) : Process :=
  p.runJobsOf run (slotsInOrder (p.jobs.filter isQuickJob))

/-! ## Section 6: Processes of their own -/

/-- Make room for another job: the number that it gets, and the jobs that
    stay. The first job that was waited for gives its number away. -/
def makeRoom (p : Process) : Nat × List Job :=
  go p.jobs.length 1
where
  /-- Look from the number `slot` on. -/
  go : (count : Nat) → (slot : Nat) → Nat × List Job
    | 0, slot => (slot, p.jobs)
    | count + 1, slot =>
      match p.jobs.find? (·.slot = slot) with
      | none => (slot, p.jobs)
      | some j => if j.isWaited then (slot, p.jobs.filter (·.slot ≠ slot)) else go count (slot + 1)

/-- Run something in a process of its own: what it was at its end, and the
    process that it was split off from as it was at the start. -/
def runSplit (run : Runner) (body : Process → Process) (p : Process) : Process × Process :=
  let (after, number) := (p.runQuickJobs run).takeNumber
  let child : Process := { toOwn := p.splitOff number, ground := after.ground, jobs := [] }
  ((body child).conclude run, { after with jobs := after.makeRoom.2 })

/-- Go on after a child has ended, with its status. -/
def afterChild (p child : Process) : Process :=
  let how := child.ending
  ((p.takeGround child).report how).answer (endingStatus how)

/-- What there is to read in the pipe with a number. -/
def pipeContent (p : Process) (n : Nat) : Bytes :=
  match p.ground.streams[n]? with
  | some (.pipe unread written _) => unread ++ written.reverse.flatten
  | _ => []

/-- Run something in a process of its own and collect its output. -/
def capture (run : Runner) (body : Process → Process) (p : Process) : Process × Bytes :=
  let (p, n) := p.openStream (.pipe [] [] none)
  let (child, p) := p.runSplit run fun child => body (child.connect 1 n)
  let out := child.pipeContent n
  ((p.afterChild child).forgetStreams n, out)

end Process

/-- Has the job come to its end? -/
def Job.isDone (j : Job) : Bool :=
  j.parts.all fun part => match part.state with
    | .ended _ => true
    | .held .. => false

/-- How the last process of a job has ended, if it has. -/
def Job.ending? (j : Job) : Option Ending :=
  match j.parts.getLast?.map JobPart.state with
  | some (.ended how) => some how
  | _ => none

end TestRig.Shell
