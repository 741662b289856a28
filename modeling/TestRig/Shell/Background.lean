import TestRig.Shell.Arguments
import TestRig.Shell.Child

/-! # Commands for jobs and signals

    Commands in the background are jobs. A script calls a job by its slot
    (`%2`), by its place in the row of jobs, the latest being the current
    one (`%+`) and the one before the previous one (`%-`), or by the number
    of its last process. `wait` lets jobs run to their ends; `jobs` shows
    what has become of them and forgets those that are done.

    There is no terminal, so no job can be brought to the foreground. -/

namespace TestRig.Shell

namespace Process

/-! ## Section 1: Names of jobs -/

/-- The job that a script calls by a name, or the complaint that there is
    none. No name stands for the current job. -/
def jobOf (p : Process) (name : Option Bytes) : Except Bytes Job :=
  let first (j : Option Job) (complaint : Bytes) := match j with
    | some j => Except.ok j
    | none => .error complaint
  let current := first p.jobs.head? (text "No current job")
  match name with
  | none => current
  | some [0x25] => current
  | some [0x25, 0x2B] => current
  | some [0x25, 0x25] => current
  | some [0x25, 0x2D] => first (p.jobs.drop 1).head? (text "No previous job")
  -- all jobs have commands in which no text can be found but the empty one
  | some [0x25, 0x3F] =>
    match p.jobs with
    | [j] => .ok j
    | [] => .error (text "No such job: %?")
    | _ => .error (text "%?: ambiguous")
  | some name =>
    let number := if name.head? = some 0x25 then numeral? name.tail else none
    first (number.bind fun n => p.jobs.find? (·.slot = n)) (text "No such job: " ++ name)

/-! ## Section 2: Showing jobs -/

/-- How jobs are shown. -/
inductive JobView where
  | brief
  /-- With the numbers of all their processes. -/
  | full
  /-- By the number of the first process alone. -/
  | number
  deriving DecidableEq

/-- What has become of a job. -/
def jobWords (j : Job) : Bytes :=
  match j.isDone, j.ending? with
  | true, some (.signalled signal) => signalWords signal
  | true, some (.exited code) => if code = 0 then text "Done" else text "Done(" ++ decimal code ++ text ")"
  | _, _ => text "Running"

/-- The column up to which the state of a job is filled with blanks. -/
def commandColumn : Nat := 33

/-- A text filled with blanks, of which there is at least one; `column` is
    where it ends. -/
def filledTo (s : Bytes) (column : Nat) : Bytes := s ++ List.replicate (max 1 (commandColumn - column)) space

/-- The lines that show a job in a row of jobs. -/
def jobLines (jobs : List Job) (view : JobView) (j : Job) : Bytes :=
  let slots := jobs.map Job.slot
  let mark :=
    if slots.head? = some j.slot then text "+"
    else if slots[1]? = some j.slot then text "-"
    else [space]
  let start := text "[" ++ decimal j.slot ++ text "] " ++ mark ++ [space]
  let numbers := j.parts.map fun part => decimal part.number
  match view with
  | .number => numbers.headD [] ++ [newline]
  | .brief =>
    let s := start ++ jobWords j
    filledTo s s.length ++ (j.parts.drop 1).flatMap (fun _ => text " | ") ++ [newline]
  | .full =>
    let s := start ++ numbers.headD [] ++ space :: jobWords j
    filledTo s s.length ++
      (numbers.drop 1).flatMap (fun n =>
        let s := List.replicate start.length space ++ n ++ [space]
        text " |\n" ++ filledTo s s.length) ++ [newline]

/-- Show a job, and forget it if it is done. -/
def showJob (view : JobView) (p : Process) (slot : Nat) : Process × Bytes :=
  match p.jobs.find? (·.slot = slot) with
  | none => (p, [])
  | some j =>
    let isForgotten := j.isDone && view ≠ .number
    ({ p with jobs := if isForgotten then p.jobs.filter (·.slot ≠ slot) else p.jobs },
      jobLines p.jobs view j)

/-- Show jobs, all of them unless some are named. -/
def listJobs (p : Process) (args : List Bytes) : Process :=
  p.withOptions (text "lp") [] args fun options names =>
    let view := match options.getLast? with
      | none => JobView.brief
      | some (0x6C, _) => .full
      | some _ => .number
    let showSlot : Process × Bytes → Nat → Process × Bytes := fun (p, out) slot =>
      let (p, shown) := p.showJob view slot
      (p, out ++ shown)
    let showNamed : Process × Bytes → Bytes → Process × Bytes := fun (p, out) name =>
      if !p.isRunning then (p, out)
      else match p.jobOf (some name) with
        | .ok j => showSlot (p, out) j.slot
        | .error message => (p.abort message, out)
    let (p, out) :=
      if names = [] then (p.jobs.map Job.slot).foldl showSlot (p, [])
      else names.foldl showNamed (p, [])
    let shown := p.print out
    if p.isRunning then shown else { shown with status := p.status }

/-- Bring a job to the foreground, or have it go on in the background:
    neither can be done. -/
def resume (p : Process) (args : List Bytes) : Process :=
  p.withOptions [] [] args fun _ names =>
    match p.jobOf names.head? with
    | .error message => p.abort message
    | .ok _ => p.abort (text "job " ++ names.headD (text "(null)") ++ text " not created under job control")

/-! ## Section 3: Waiting -/

/-- The status that a job gives. -/
def jobStatus (j : Job) : Nat := (j.ending?.map endingStatus).getD 0

/-- Note that jobs were waited for. -/
def markWaited (p : Process) (isMeant : Job → Bool) : Process :=
  { p with jobs := p.jobs.map fun j => if isMeant j && j.isDone then { j with isWaited := true } else j }

/-- The signal that interrupts waiting, if one was received. -/
def interruption? (p : Process) : Option Nat := p.pending.find? (· ≠ childSignal)

/-- Wait for all jobs. -/
def waitForAll (run : Runner) (p : Process) : Process :=
  let p := (slotsInOrder p.jobs).foldl
    (fun p slot =>
      if !p.isRunning || p.interruption?.isSome then p else p.runJob run false slot)
    p
  match p.interruption? with
  | some signal => p.answer (128 + signal)
  | none => (p.markWaited fun _ => true).answer 0

/-- Wait for a job, and take its status. Jobs that were begun before it may
    be done earlier. -/
def waitForJob (run : Runner) (p : Process) (slot : Nat) : Process :=
  let earlier := (p.jobs.dropWhile (·.slot ≠ slot)).drop 1
  let p := p.runJobsOf run (slotsInOrder (earlier.filter isQuickJob))
  let p := if p.isRunning && p.interruption?.isNone then p.runJob run true slot else p
  match p.interruption?, p.jobs.find? (·.slot = slot) with
  | some signal, _ => p.answer (128 + signal)
  | none, some j => (p.markWaited (·.slot = slot)).answer (jobStatus j)
  | none, none => p

/-- Wait for the job that is named or has the number of a process. -/
def waitForNamed (run : Runner) (p : Process) (name : Bytes) : Process :=
  if name.head? = some 0x25 then
    match p.jobOf (some name) with
    | .ok j => p.waitForJob run j.slot
    | .error message => p.abort message
  else
    p.withCount name fun n =>
      match p.jobs.find? fun j => j.parts.getLast?.map JobPart.number = some n with
      | some j => p.waitForJob run j.slot
      | none => p.answer 127

/-- Wait for jobs, all of them unless some are named. -/
def wait (run : Runner) (p : Process) (args : List Bytes) : Process :=
  p.withOptions [] [] args fun _ names =>
    if names = [] then p.waitForAll run
    else
      names.foldl
        (fun p name => if !p.isRunning || p.interruption?.isSome then p else p.waitForNamed run name) p

/-! ## Section 4: Sending signals -/

/-- How `kill` is used. -/
def killUsage : Bytes :=
  text "Usage: kill [-s sigspec | -signum | -sigspec] [pid | job]... or\nkill -l [exitstatus]"

/-- Send a signal to a process, its own ones are received at once. The
    signal zero only asks whether the process is there. -/
def send (p : Process) (signal number : Nat) : Process :=
  if number = p.number then (if signal = 0 then p else p.receive signal)
  else if !p.ground.living.contains number then p.complain (text "No such process\n") 1
  else if signal = 0 then p
  else { p with ground := { p.ground with posted := p.ground.posted ++ [(number, signal)] } }

/-- Send a signal to a target: a number, a group or a job. There are no
    groups, and jobs are none. -/
def sendTo (p : Process) (signal : Nat) (target : Bytes) : Process :=
  let nobody (p : Process) := p.complain (text "No such process\n") 1
  match target with
  | 0x25 :: _ =>
    match p.jobOf (some target) with
    | .ok _ => nobody p
    | .error message => p.abort message
  | 0x2D :: group => p.withCount group fun _ => nobody p
  | number => p.withCount number fun n => p.send signal n

/-- Show the names of signals, or that of the signal which a status tells. -/
def showSignals (p : Process) (args : List Bytes) : Process :=
  match args with
  | [] =>
    let names := (List.range freeSignals.2).map fun n => signalName (n + 1) ++ [newline]
    p.print (text "0\n" ++ names.flatten)
  | code :: _ =>
    p.withCount code fun n =>
      let signal := if 128 < n then n - 128 else n
      if 0 < signal ∧ signal ≤ freeSignals.2 then p.print (signalName signal ++ [newline])
      else p.abort (text "invalid signal number or exit status: " ++ code)

/-- Send signals. -/
def kill (p : Process) (args : List Bytes) : Process :=
  let sendAll (signal : Nat) (targets : List Bytes) :=
    if targets = [] then p.abort killUsage
    else targets.foldl (fun p target => if p.isRunning then p.sendTo signal target else p) (p.answer 0)
  match args with
  | [] => p.abort killUsage
  | (0x2D :: name) :: targets =>
    match signal? 1 name with
    | some signal => sendAll signal targets
    | none =>
      p.withOptions (text "l") (text "s") args fun options targets =>
        let names := options.filterMap fun (option, name) => if option = 0x73 then some name else none
        match names.find? fun name => (signal? 1 name).isNone with
        | some name => p.abort (text "invalid signal number or name: " ++ name)
        | none =>
          let signal := names.getLast?.bind (signal? 1)
          if options.all (·.1 = 0x73) then sendAll (signal.getD endSignal) targets
          else if signal.isSome && targets ≠ [] then p.abort killUsage
          else p.showSignals targets
  | targets => sendAll endSignal targets

end Process

end TestRig.Shell
