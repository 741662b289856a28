import TestRig.Text.Bytes

/-! # Signals

    The signals that processes send each other: their numbers, the names by
    which scripts call them, the words in which the end of a child by a
    signal is reported, and whether a process that does not handle a signal
    is ended by it. -/

namespace TestRig.Shell

/-! ## Section 1: Names of signals -/

/-- A signal that has a name. -/
structure NamedSignal where
  number : Nat
  name : String
  /-- What it says of a process that it has ended one. -/
  words : String

/-- The signals that have names. The number zero stands for the end of the
    script in a `trap`. -/
def namedSignals : List NamedSignal :=
  [⟨0, "EXIT", ""⟩, ⟨1, "HUP", "Hangup"⟩, ⟨2, "INT", "Interrupt"⟩, ⟨3, "QUIT", "Quit"⟩,
   ⟨4, "ILL", "Illegal instruction"⟩, ⟨5, "TRAP", "Trace/breakpoint trap"⟩, ⟨6, "ABRT", "Aborted"⟩,
   ⟨7, "BUS", "Bus error"⟩, ⟨8, "FPE", "Floating point exception"⟩, ⟨9, "KILL", "Killed"⟩,
   ⟨10, "USR1", "User defined signal 1"⟩, ⟨11, "SEGV", "Segmentation fault"⟩,
   ⟨12, "USR2", "User defined signal 2"⟩, ⟨13, "PIPE", "Broken pipe"⟩, ⟨14, "ALRM", "Alarm clock"⟩,
   ⟨15, "TERM", "Terminated"⟩, ⟨16, "16", "Stack fault"⟩, ⟨17, "CHLD", "Child exited"⟩,
   ⟨18, "CONT", "Continued"⟩, ⟨19, "STOP", "Stopped (signal)"⟩, ⟨20, "TSTP", "Stopped"⟩,
   ⟨21, "TTIN", "Stopped (tty input)"⟩, ⟨22, "TTOU", "Stopped (tty output)"⟩,
   ⟨23, "URG", "Urgent I/O condition"⟩, ⟨24, "XCPU", "CPU time limit exceeded"⟩,
   ⟨25, "XFSZ", "File size limit exceeded"⟩, ⟨26, "VTALRM", "Virtual timer expired"⟩,
   ⟨27, "PROF", "Profiling timer expired"⟩, ⟨28, "WINCH", "Window changed"⟩,
   ⟨29, "IO", "I/O possible"⟩, ⟨30, "PWR", "Power failure"⟩, ⟨31, "SYS", "Bad system call"⟩,
   ⟨32, "32", "Unknown signal 32"⟩, ⟨33, "33", "Unknown signal 33"⟩]

/-- The number of the first and of the last signal that is for free use. -/
def freeSignals : Nat × Nat := (34, 64)

/-- The name of a signal for free use: its distance from the nearer end. -/
def freeSignalName (signal : Nat) : Bytes :=
  let (first, last) := freeSignals
  if signal = first then text "RTMIN"
  else if signal = last then text "RTMAX"
  else if 2 * signal < first + last + 1 then text "RTMIN+" ++ decimal (signal - first)
  else text "RTMAX-" ++ decimal (last - signal)

/-- The name of a signal. -/
def signalName (signal : Nat) : Bytes :=
  match namedSignals.find? (·.number = signal) with
  | some s => text s.name
  | none => freeSignalName signal

/-- The words that tell an end by a signal. -/
def signalWords (signal : Nat) : Bytes :=
  match namedSignals.find? (·.number = signal) with
  | some s => text s.words
  | none => text "Real-time signal " ++ decimal (signal - freeSignals.1)

/-- The capital letter of a small one. -/
def toCapital (b : UInt8) : UInt8 := if 0x61 ≤ b && b ≤ 0x7A then b - 32 else b

/-- The signal of a number or of a name, if the signal is not below
    `least`. -/
def signal? (least : Nat) (s : Bytes) : Option Nat :=
  match numeral? s with
  | some n => if n ≤ freeSignals.2 then some n else none
  | none =>
    (List.range (freeSignals.2 + 1)).find? fun n => least ≤ n && signalName n = s.map toCapital

/-! ## Section 2: Effects of signals -/

/-- Signals that do not end a process that does not handle them. -/
def isHarmless (signal : Nat) : Bool := [0, 17, 18, 19, 20, 21, 22, 23, 28].contains signal

/-- The signal for an interruption by a user. -/
def interruptSignal : Nat := 2

/-- The signal for a user's wish to end. -/
def quitSignal : Nat := 3

/-- The signal for writing where nobody reads. -/
def pipeSignal : Nat := 13

/-- The signal that asks a process to end. -/
def endSignal : Nat := 15

/-- The signal for the end of a child. -/
def childSignal : Nat := 17

/-- Is the end of a child by a signal reported? -/
def isReported (signal : Nat) : Bool := signal ≠ interruptSignal && signal ≠ pipeSignal

/-- Signals that no process can handle. -/
def isUnstoppable (signal : Nat) : Bool := signal = 9 || signal = 19

end TestRig.Shell
