import TestRig.Shell.Decision
import TestRig.Shell.Lookup
import TestRig.Shell.Printing
import TestRig.Shell.Variable

/-! # Commands that print, read, test and leave

    Built-in commands that run no other command. A command complains of an
    error with `abort`; whether that ends the script is decided by whoever
    runs it. -/

namespace TestRig.Shell

namespace Process

/-! ## Section 1: Printing -/

/-- Write what was filled into a format. -/
def printf (p : Process) (args : List Bytes) : Process :=
  p.withOptions [] [] args fun _ args =>
    match args with
    | [] => p.abort (text "usage: printf format [arg ...]")
    | format :: args =>
      let filling := Shell.printf format args
      let p := filling.complaints.foldl warn p
      let p := p.print filling.out.reverse.flatten
      if p.status = 0 then p.answer filling.status else p

/-! ## Section 2: Reading -/

/-- A line that is being read. -/
structure LineRead where
  /-- Its pieces, the last one first: those after a backslash are never
      split. -/
  pieces : List Piece
  /-- The piece that is being read, its last glyph first. -/
  begun : List Glyph
  /-- How many bytes it took. -/
  length : Nat
  /-- Was its end found? -/
  isWhole : Bool

/-- End the piece that is being read. -/
def LineRead.cut (l : LineRead) : LineRead :=
  { l with pieces := .splitting l.begun.reverse :: l.pieces, begun := [] }

/-- Read on up to the end of a line. Unless the text is taken as it is, a
    backslash keeps the next byte from being split, and joins the line to
    the next one at its end; NUL bytes are left out. -/
def LineRead.readOn (isRaw : Bool) : (isEscaped : Bool) → Bytes → LineRead → LineRead
  | _, [], l => l.cut
  | isEscaped, b :: s, l =>
    let l := { l with length := l.length + 1 }
    if b = nul then readOn isRaw isEscaped s l
    else if isEscaped then
      let l := l.cut
      if b = newline then readOn isRaw false s l
      else readOn isRaw false s { l with pieces := .kept [⟨b, true⟩] :: l.pieces }
    else if b = 0x5C && !isRaw then readOn isRaw true s l
    else if b = newline then { l.cut with isWhole := true }
    else readOn isRaw false s { l with begun := ⟨b, false⟩ :: l.begun }

/-- Set the variable that an argument names. -/
def assignField (p : Process) (a value : Bytes) : Process := p.assignChecked (setting a).1 value

/-- Read a line into variables: a field for each, and all that is left for
    the last one. -/
def read (p : Process) (args : List Bytes) : Process :=
  p.withOptions (text "r") (text "p") args fun options names =>
    if names = [] then p.abort (text "arg count")
    else
      let isRaw := options.any (·.1 = 0x72)
      let line := LineRead.readOn isRaw false (p.unread 0) ⟨[], [], 0, false⟩
      let fields := limitedFieldsOf p.separators names.length line.pieces.reverse
      let values := fields.map plainText ++ List.replicate names.length []
      let p := (names.zip values).foldl
        (fun p (name, value) => if p.isRunning then p.assignField name value else p)
        (p.consume 0 line.length)
      if p.isRunning then p.decided line.isWhole else p

/-! ## Section 3: Tests -/

/-- Do a test and give its status. -/
def test (p : Process) (args : List Bytes) : Process :=
  match (⟨p.ground.tree, p.cwd⟩ : TestScene).decide? args with
  | .ok b => p.decided b
  | .error message => p.abort message

/-- Do a test in brackets. Only the first byte of the closing bracket
    counts. -/
def bracketedTest (p : Process) (args : List Bytes) : Process :=
  if args.getLast?.bind List.head? = some 0x5D then p.test args.dropLast else p.abort (text "missing ]")

/-! ## Section 4: Leaving -/

/-- Exit, with the status of the last command unless another one is given.
    In an action on a signal that is the last command before the signal
    came. -/
def exit (p : Process) : List Bytes → Process
  | [] => { p with flow := .exiting, status := p.interrupted.getD p.status }
  | code :: _ => p.withCount code fun status => { p with flow := .exiting, status }

/-- Leave a named command or a file of commands. -/
def comeBack (p : Process) : List Bytes → Process
  | [] => { p with flow := .returning false }
  | code :: _ => p.withCount code fun status => { p with flow := .returning true, status }

/-- Leave loops, or go into their next round; `flow` says which for a number
    of loops. -/
def leave (p : Process) (flow : Nat → Flow) (args : List Bytes) : Process :=
  p.withCount (args.headD (text "1")) fun n =>
    if n = 0 then p.abort (text "Illegal number: " ++ args.headD [])
    else
      let loops := min n p.loops
      if loops = 0 then p.answer 0 else { p with flow := flow loops, status := 0 }

/-- Drop the first arguments of the script. -/
def shift (p : Process) (args : List Bytes) : Process :=
  p.withCount (args.headD (text "1")) fun n =>
    if p.args.length < n then p.abort (text "can't shift that many")
    else { p.setArguments (p.args.drop n) with status := 0 }

/-! ## Section 5: Signals -/

/-- Set what is done on signals; no action stands for what is done by
    default. -/
def setTraps (p : Process) (action : Option Bytes) : List Bytes → Process
  | [] => p.answer 0
  | s :: signals =>
    match signal? 0 s with
    | none => (p.remark (text "trap: " ++ s ++ text ": bad trap")).answer 1
    | some n =>
      let others := p.traps.filter (·.1 ≠ n)
      let traps := match action with
        | none => others
        | some action => (n, action) :: others
      setTraps { p with traps } action signals

/-- Say what is done on signals, or show it. -/
def trap (p : Process) (args : List Bytes) : Process :=
  p.withOptions [] [] args fun _ args =>
    match args with
    | [] =>
      let shown := (List.range (freeSignals.2 + 1)).filterMap fun n =>
        (p.traps.lookup n).map fun action =>
          text "trap -- " ++ inQuotes action ++ space :: signalName n ++ [newline]
      p.print shown.flatten
    | [s] => p.setTraps none [s]
    | first :: signals =>
      if (numeral? first).any (· ≤ freeSignals.2) then p.setTraps none (first :: signals)
      else p.setTraps (if first = text "-" then none else some first) signals

/-! ## Section 6: Time and room -/

/-- Show how much time was used: next to none. -/
def times (p : Process) : Process :=
  let line := text "0m0.000000s 0m0.000000s\n"
  p.print (line ++ line)

/-- Show how much of something may be used, or change that. -/
def limit (p : Process) (args : List Bytes) : Process :=
  p.withOptions (text "HSatfdscmlpnvwr") [] args fun options args =>
    let isOfAll := options.any (·.1 = 0x61)
    let kinds := (options.map (·.1)).filter fun b => !(text "HSa").contains b
    match args with
    | [] => p.print (if kinds.getLast? = some 0x63 then text "0\n" else text "unlimited\n")
    | value :: rest =>
      if isOfAll ∨ rest ≠ [] then p.abort (text "too many arguments")
      else if value ≠ text "unlimited" ∧ !value.all isDigit then p.abort (text "bad number")
      else p.answer 0

end Process

end TestRig.Shell
