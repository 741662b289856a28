import TestRig.Shell.Command
import TestRig.Shell.Signal
import TestRig.World

/-! # Processes that run scripts

    A process has what is its own (`Own`): arguments, variables, commands
    that were given names, descriptors, a current directory. What it does to
    the tree, to the standard input and to open files is seen by all
    processes of a run; that is its `Ground`, which is handed from a process
    to its child and back. A child runs to its end before its parent goes
    on.

    A command in the background is one of the `jobs` of a process. It is
    held until the process waits for something or comes to its end.

    A process that is not `running` does nothing more until what it is
    leaving is left. -/

namespace TestRig.Shell

/-! ## Section 1: Streams -/

/-- What may be done with an open file. -/
structure Access where
  mayRead : Bool
  mayWrite : Bool
  /-- Is everything written at the end? -/
  appends : Bool

/-- What an open descriptor leads to. -/
inductive Stream where
  /-- The standard input of the run. -/
  | input
  /-- The standard output of the run. -/
  | output
  /-- The error output of the run. -/
  | errors
  /-- Nothing to read, and what is written is dropped. -/
  | nothing
  /-- It has no room for what is written. -/
  | full
  /-- What is written is dropped, and it holds NUL bytes without end. -/
  | zeros
  /-- A file, read and written from a position on. -/
  | file (p : Place) (position : Nat) (access : Access)
  /-- A text of which a part is left to read. -/
  | held (unread : Bytes)
  /-- What is written can be read; the latest text is held first. There may
      be a limit to how much is written. -/
  | pipe (unread : Bytes) (written : List Bytes) (room : Option Nat)

/-- What all processes of a run share. -/
structure Ground where
  tree : Tree
  /-- The standard input that was not read. -/
  stdin : Bytes
  /-- What was printed, the latest first. -/
  stdout : List Bytes
  stderr : List Bytes
  /-- The streams that were opened, by number. -/
  streams : List Stream
  /-- The number of the next process. -/
  nextNumber : Nat
  /-- The numbers of the processes that have not ended. -/
  living : List Nat
  /-- Signals on their way: to whom, and which. -/
  posted : List (Nat × Nat)

/-! ## Section 2: Processes -/

/-- A variable. -/
structure Binding where
  value : Option Bytes
  isExported : Bool
  isReadOnly : Bool

/-- What a process is about to do. -/
inductive Flow where
  | running
  /-- Leave so many loops. -/
  | leaving (loops : Nat)
  /-- Leave all but one of so many loops, and go into its next round. -/
  | continuing (loops : Nat)
  /-- Leave a named command or a file of commands; a status may have been
      given for that. -/
  | returning (isNumbered : Bool)
  /-- Exit with its status. -/
  | exiting
  /-- Exit because of an error, unless a command that is not special is
      around. -/
  | failing
  /-- It was ended by a signal. -/
  | killed (signal : Nat)
  /-- It went on as another program, which has ended with its status. -/
  | replaced
  deriving DecidableEq

/-- How a command is run. -/
structure Manner where
  /-- Its failure is asked about, so that it never ends the process by
      itself. -/
  isTested : Bool
  /-- Nothing comes after it in the process. -/
  isLast : Bool

/-- What a named command or a command with assignments has changed for its
    own time, as it was before. -/
inductive Kept where
  | variable (name : Bytes) (before : Option Binding)
  | options (before : Bytes)

/-- A program that was looked up by its name. -/
structure Tracked where
  name : Bytes
  /-- Where its directory comes in the search path. -/
  position : Nat
  /-- Was the current directory changed since then? Directories that are not
      absolute are to be searched again. -/
  isStale : Bool

/-- What is a process's own. -/
structure Own where
  number : Nat
  /-- The number of the process that the script knows as its own: this one,
      or the one that it was split off from. -/
  script : Nat
  /-- The number of the process that started this one. -/
  parent : Nat
  name : Bytes
  args : List Bytes
  cwd : Place
  /-- The current directory as the script calls it; empty if it was gone
      from the start. -/
  directory : Path
  /-- Is the path of the current directory in the tree known to the
      process? -/
  isPhysical : Bool
  bindings : List (Bytes × Binding)
  definitions : List (Bytes × Command)
  aliases : List (Bytes × Bytes)
  /-- The programs that were looked up by name, the earliest first. -/
  tracked : List Tracked
  /-- What is done on a signal; an empty text ignores it. -/
  traps : List (Nat × Bytes)
  /-- The signals that were ignored at its start; they always are. -/
  ignored : List Nat
  /-- Signals that were received and are to be handled, in the order of
      their numbers. -/
  pending : List Nat
  /-- Was a signal received since signals were handled? -/
  isAlerted : Bool
  /-- The letters of the options that are on. -/
  options : Bytes
  /-- The argument that `getopts` looks at next. -/
  optionIndex : Nat
  /-- How far `getopts` has come in the argument before that one. -/
  optionOffset : Option Nat
  /-- The bits that new files do not get. -/
  mask : Nat
  /-- The stream of each descriptor that is open. -/
  descriptors : List (Nat × Nat)
  status : Nat
  flow : Flow
  /-- The line of the command that is run. -/
  line : Nat
  /-- The built-in command in whose name complaints are made. -/
  speaker : Option Bytes
  /-- How many loops are around. -/
  loops : Nat
  /-- How many named commands are around. -/
  depth : Nat
  /-- What commands around have changed for their own time, the innermost
      first. -/
  kept : List (List Kept)
  /-- The status when the signal came whose action is run. -/
  interrupted : Option Nat
  /-- The status of the last command substitution. -/
  substituted : Nat
  /-- The number of the last command that was started in the background. -/
  lastBackground : Option Nat
  /-- Is a text being expanded that is shown before commands? -/
  isTracing : Bool
  /-- Was the text that is being read read to its end? -/
  isAtEnd : Bool

/-- What has become of a process of a job. -/
inductive JobState where
  /-- It has not begun. -/
  | held (child : Own) (manner : Manner) (c : Command)
  | ended (how : Ending)

/-- A process of a job. -/
structure JobPart where
  number : Nat
  state : JobState

/-- Commands in the background whose outputs and inputs are joined; mostly
    it is one command. -/
structure Job where
  /-- The number by which the script may call it. -/
  slot : Nat
  parts : List JobPart
  /-- Has the script waited for its end? -/
  isWaited : Bool

/-- A process that runs a script. -/
structure Process extends Own where
  ground : Ground
  /-- The latest first. -/
  jobs : List Job

/-- The status that tells how a process has ended. -/
def endingStatus : Ending → Nat
  | .exited code => code % 256
  | .signalled signal => 128 + signal
  | .unended => 0

namespace Process

/-- Is the process to go on with the next command? -/
def isRunning (p : Process) : Bool := p.flow = .running

/-- Is the process on its way out of loops, a named command or a file? -/
def isSkipping (p : Process) : Bool :=
  match p.flow with
  | .leaving _ => true
  | .continuing _ => true
  | .returning _ => true
  | _ => false

/-- Was the process split off from the one that reads the script? -/
def isSplit (p : Process) : Bool := p.number ≠ p.script

/-- Give a status. -/
def answer (p : Process) (status : Nat) : Process := { p with status }

/-- Give the status of a test. -/
def decided (p : Process) (b : Bool) : Process := p.answer (if b then 0 else 1)

/-- Is an option on? -/
def has (p : Process) (option : UInt8) : Bool := p.options.contains option

/-! ## Section 3: Signals -/

/-- Does the process do something on a signal? -/
def isTrapping (p : Process) (signal : Nat) : Bool :=
  match p.traps.lookup signal with
  | some action => action ≠ []
  | none => false

/-- Does the process do something on any signal? -/
def hasTraps (p : Process) : Bool := p.traps.any (·.2 ≠ [])

/-- Receive a signal: it is ignored, handled later, or ends the process. -/
def receive (p : Process) (signal : Nat) : Process :=
  match if isUnstoppable signal then none
    else if p.ignored.contains signal then some [] else p.traps.lookup signal with
  | some [] => p
  | some _ =>
    let pending :=
      if p.pending.contains signal then p.pending
      else p.pending.takeWhile (· < signal) ++ signal :: p.pending.dropWhile (· < signal)
    { p with pending, isAlerted := true }
  | none => if isHarmless signal then p else { p with flow := .killed signal }

/-- Receive the signals that were posted to the process. -/
def collect (p : Process) : Process :=
  match p.ground.posted.filter (·.1 = p.number) with
  | [] => p
  | mine =>
    let posted := p.ground.posted.filter (·.1 ≠ p.number)
    let p := { p with ground := { p.ground with posted } }
    let isOver := match p.flow with
      | .killed _ => true
      | _ => false
    mine.foldl (fun p (_, signal) => if isOver then p else p.receive signal) p

/-! ## Section 4: Streams -/

/-- The number of the stream of a descriptor. -/
def streamNumber? (p : Process) (fd : Nat) : Option Nat := p.descriptors.lookup fd

/-- The stream of a descriptor. -/
def stream? (p : Process) (fd : Nat) : Option Stream :=
  (p.streamNumber? fd).bind fun n => p.ground.streams[n]?

/-- Change the stream of a descriptor. -/
def setStream (p : Process) (fd : Nat) (s : Stream) : Process :=
  match p.streamNumber? fd with
  | some n => { p with ground := { p.ground with streams := p.ground.streams.set n s } }
  | none => p

/-- Close a descriptor. -/
def close (p : Process) (fd : Nat) : Process :=
  { p with descriptors := p.descriptors.filter (·.1 ≠ fd) }

/-- Let a descriptor lead to the stream with a number. -/
def connect (p : Process) (fd n : Nat) : Process :=
  { p with descriptors := (fd, n) :: (p.close fd).descriptors }

/-- Open a stream; the answer is its number. -/
def openStream (p : Process) (s : Stream) : Process × Nat :=
  ({ p with ground := { p.ground with streams := p.ground.streams ++ [s] } }, p.ground.streams.length)

/-- Let a descriptor lead to a stream of its own. -/
def attach (p : Process) (fd : Nat) (s : Stream) : Process :=
  let (p, n) := p.openStream s
  p.connect fd n

/-- The numbers of streams that are in use here or in jobs that have not
    begun. -/
def streamsInUse (p : Process) : List Nat :=
  p.descriptors.map (·.2) ++ p.jobs.flatMap fun j => j.parts.flatMap fun part =>
    match part.state with
    | .held child _ _ => child.descriptors.map (·.2)
    | .ended _ => []

/-- Forget the streams from number `n` on, as far as none of them is in
    use. -/
def forgetStreams (p : Process) (n : Nat) : Process :=
  if p.ground.streams.length ≤ n then p
  else
    let n := p.streamsInUse.foldl (fun n m => max n (m + 1)) n
    { p with ground := { p.ground with streams := p.ground.streams.take n } }

/-- The content of the file at a place. -/
def content (p : Process) (place : Place) : Bytes :=
  match p.ground.tree.nodeAt place with
  | some (.file s _) => s
  | _ => []

/-- What is left to read from a descriptor. -/
def unread (p : Process) (fd : Nat) : Bytes :=
  match p.stream? fd with
  | some .input => p.ground.stdin
  | some (.held s) => s
  | some (.pipe s written _) => s ++ written.reverse.flatten
  | some (.file place position access) =>
    if access.mayRead then (p.content place).drop position else []
  | _ => []

/-- Go beyond the next `n` bytes that are left to read from a descriptor. -/
def consume (p : Process) (fd n : Nat) : Process :=
  match p.stream? fd with
  | some .input => { p with ground := { p.ground with stdin := p.ground.stdin.drop n } }
  | some (.held s) => p.setStream fd (.held (s.drop n))
  | some (.pipe s written room) => p.setStream fd (.pipe ((s ++ written.reverse.flatten).drop n) [] room)
  | some (.file place position access) => p.setStream fd (.file place (position + n) access)
  | _ => p

/-- The content of a file after writing at a position; a gap is filled with
    NUL bytes. -/
def overwrite (old : Bytes) (position : Nat) (s : Bytes) : Bytes :=
  old.take position ++ List.replicate (position - old.length) nul ++ s ++ old.drop (position + s.length)

/-- Write to a descriptor; the answer says whether it is open for that and
    has room. -/
def write (p : Process) (fd : Nat) (s : Bytes) : Process × Bool :=
  match p.stream? fd with
  | none => (p, s = [])
  | some .full => (p, s = [])
  | some .output => ({ p with ground := { p.ground with stdout := s :: p.ground.stdout } }, true)
  | some .errors => ({ p with ground := { p.ground with stderr := s :: p.ground.stderr } }, true)
  | some (.held _) => (p, s = [])
  | some .input => (p, s = [])
  | some (.pipe unread written none) => (p.setStream fd (.pipe unread (s :: written) none), true)
  | some (.pipe unread written (some room)) =>
    -- whoever reads from it is taken to have stopped by then
    if room < s.length then (p.receive pipeSignal, false)
    else (p.setStream fd (.pipe unread (s :: written) (some (room - s.length))), true)
  | some (.file place position access) =>
    match access.mayWrite, p.ground.tree.nodeAt place with
    | false, _ => (p, s = [])
    | true, some (.file old executable) =>
      let position := if access.appends then old.length else position
      let node := Node.file (overwrite old position s) executable
      let p := { p with ground := { p.ground with tree := p.ground.tree.put place node } }
      (p.setStream fd (.file place (position + s.length) access), true)
    | true, _ => (p, true)
  | some .nothing => (p, true)
  | some .zeros => (p, true)

/-! ## Section 5: Complaints -/

/-- What a complaint starts with: the script, the line and who complains. -/
def complaintStart (p : Process) : Bytes :=
  p.name ++ text ": " ++ decimal p.line ++ text ": " ++
    match p.speaker with
    | some s => s ++ text ": "
    | none => []

/-- Complain. -/
def warn (p : Process) (message : Bytes) : Process :=
  (p.write 2 (p.complaintStart ++ message ++ [newline])).1

/-- Complain and give a status. -/
def complain (p : Process) (message : Bytes) (status : Nat) : Process := (p.warn message).answer status

/-- Complain of an error. -/
def abort (p : Process) (message : Bytes) : Process :=
  let p := p.complain message 2
  if p.isRunning then { p with flow := .failing } else p

/-! ## Section 6: Variables -/

/-- The largest status or count that a command takes. -/
def largestCount : Int := 2147483647

/-- The number that an argument denotes; the complaint says that it is
    none. -/
def count? (s : Bytes) : Except Bytes Nat :=
  match wholeNumber? s with
  | some n => if 0 ≤ n ∧ n ≤ largestCount then .ok n.toNat else .error (text "Illegal number: " ++ s)
  | none => .error (text "Illegal number: " ++ s)

/-- The variable of a name. -/
def binding? (p : Process) (name : Bytes) : Option Binding := p.bindings.lookup name

/-- The value of a variable, if it is set. -/
def value? (p : Process) (name : Bytes) : Option Bytes := (p.binding? name).bind Binding.value

/-- Let a name stand for a variable, or for none. -/
def setBinding (p : Process) (name : Bytes) (b : Option Binding) : Process :=
  let others := p.bindings.filter (·.1 ≠ name)
  { p with bindings := match b with
      | some b => (name, b) :: others
      | none => others }

/-- Do what a new value of a variable entails: `getopts` starts again, or
    programs are looked up again. -/
def notice (p : Process) (name value : Bytes) : Process :=
  if name = text "OPTIND" then
    match count? value with
    | .error message => p.abort message
    | .ok n => { p with optionIndex := max 1 n, optionOffset := none }
  else if name = text "PATH" then { p with tracked := [] }
  else p

/-- Set a variable without any other effect. -/
def store (p : Process) (name value : Bytes) : Process :=
  match p.binding? name with
  | some b =>
    if b.isReadOnly then p.abort (name ++ text ": is read only")
    else p.setBinding name
      (some { b with value := some value, isExported := b.isExported || p.has 0x61 })
  | none => p.setBinding name (some ⟨some value, p.has 0x61, false⟩)

/-- Set a variable. -/
def assign (p : Process) (name value : Bytes) : Process :=
  if (p.binding? name).any Binding.isReadOnly then p.abort (name ++ text ": is read only")
  else
    let p := p.notice name value
    if p.isRunning then p.store name value else p

/-- Set variables as long as the process goes on. -/
def assignAll (p : Process) (values : List (Bytes × Bytes)) : Process :=
  values.foldl (fun p (name, value) => if p.isRunning then p.assign name value else p) p

/-- Variables that are there from the start for ever; a mark that they are
    to be seen by children stays when they lose their values. -/
def lastingNames : List Bytes :=
  ["IFS", "MAIL", "MAILPATH", "PATH", "PS1", "PS2", "PS4", "OPTIND"].map text

/-- Take a variable its value away. -/
def forget (p : Process) (name : Bytes) : Process :=
  match p.binding? name with
  | none => p
  | some b =>
    if b.isReadOnly then p.abort (name ++ text ": is read only")
    else
      let p := p.notice name []
      if !p.isRunning then p
      else if lastingNames.contains name then p.setBinding name (some { b with value := none })
      else p.setBinding name none

/-- Mark a variable as one that children see. -/
def makeExported (p : Process) (name : Bytes) : Process :=
  match p.binding? name with
  | some b => p.setBinding name (some { b with isExported := true })
  | none => p.setBinding name (some ⟨none, true, false⟩)

/-- Set a variable that children see. -/
def assignExported (p : Process) (name value : Bytes) : Process :=
  let p := p.assign name value
  if p.isRunning then p.makeExported name else p

/-- Remember a variable as it is before the innermost command around changes
    it. -/
def keep (p : Process) (name : Bytes) : Process :=
  match p.kept with
  | [] => p
  | innermost :: outer => { p with kept := (.variable name (p.binding? name) :: innermost) :: outer }

/-- Let something be again as it was. -/
def putBack (p : Process) : Kept → Process
  | .options before => { p with options := before }
  | .variable name before =>
    let restored := p.setBinding name before
    if before.isNone && !isName name then p.abort (name ++ text ": bad variable name") else
    let value := (before.bind Binding.value).getD []
    if name = text "OPTIND" then
      { restored with
        optionIndex := match count? value with
          | .ok n => max 1 n
          | .error _ => 1
        optionOffset := none }
    else if name = text "PATH" then { restored with tracked := [] }
    else restored

/-- Let everything be as it was before the innermost commands around changed
    it, all but `n` of them. -/
def unwind (p : Process) (n : Nat) : Process :=
  let ended := p.kept.take (p.kept.length - n)
  { ended.flatten.foldl putBack p with kept := p.kept.drop (p.kept.length - n) }

/-- Run something during which variables can be changed for its own time.
    They stay changed if it ends the process. -/
def keeping (p : Process) (body : Process → Process) : Process :=
  let after := body { p with kept := [] :: p.kept }
  if after.isRunning || after.isSkipping then after.unwind p.kept.length else after

/-- Run a built-in command; the complaints are made in its name. Only a
    special one exits after an error. -/
def speak (p : Process) (name : Bytes) (isSpecial : Bool) (body : Process → Process) : Process :=
  let after := body { p with speaker := some name }
  let after := { after with speaker := p.speaker }
  if after.flow = .failing && !isSpecial then
    { after with flow := .running }.unwind p.kept.length
  else after

/-- The variables that children see. -/
def environment (p : Process) : List (Bytes × Bytes) :=
  p.bindings.filterMap fun (name, b) =>
    if b.isExported then b.value.map (name, ·) else none

/-- The bytes at which unquoted text is split. -/
def separators (p : Process) : Bytes := (p.value? (text "IFS")).getD [0x20, 0x09, 0x0A]

/-! ## Section 7: Ends -/

/-- How the process has ended. -/
def ending (p : Process) : Ending :=
  match p.flow with
  | .killed signal => .signalled signal
  | _ => .exited (p.status % 256)

/-- The word in which the system reports the end of the process. -/
def waitStatus (p : Process) : WaitStatus :=
  match p.ending with
  | .signalled signal => .ofSignal signal
  | .exited code => .ofExit code
  | .unended => .ofExit 0

/-- Report how a process of a job ended: an end by a signal may be. -/
def report (p : Process) (how : Ending) : Process :=
  match how with
  | .signalled signal =>
    if isReported signal then (p.write 2 (signalWords signal ++ [newline])).1 else p
  | _ => p

/-- Go on after a child has ended, with what it has left behind. -/
def takeGround (p child : Process) : Process :=
  let living := child.ground.living.filter (· ≠ child.number)
  let p := { p with ground := { child.ground with living } }
  (if p.isTrapping childSignal then p.receive childSignal else p).collect

/-- Take the number of a new process. -/
def takeNumber (p : Process) : Process × Nat :=
  let number := p.ground.nextNumber
  ({ p with ground := { p.ground with nextNumber := number + 1, living := number :: p.ground.living } },
   number)

/-- What a process is at first that was split off: it handles no signals
    itself, but still ignores those that are ignored. -/
def splitOff (p : Process) (number : Nat) : Own :=
  { p.toOwn with
    number
    parent := p.number
    traps := p.traps.filter (·.2 = [])
    pending := []
    isAlerted := false }

end Process

end TestRig.Shell
