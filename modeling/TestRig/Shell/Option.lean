import TestRig.Shell.Arguments
import TestRig.Shell.Expansion

/-! # Options

    The options of the shell, which have letters and names, and the options
    of scripts: `getopts` takes these from the arguments one after the
    other. -/

namespace TestRig.Shell

/-! ## Section 1: Options of the shell -/

/-- The options that have names. Two have no letter; they are held under
    bytes that are none. -/
def optionNames : List (String × UInt8) :=
  [("errexit", 0x65), ("noglob", 0x66), ("ignoreeof", 0x49), ("interactive", 0x69), ("monitor", 0x6D),
   ("noexec", 0x6E), ("stdin", 0x73), ("xtrace", 0x78), ("verbose", 0x76), ("vi", 0x56), ("emacs", 0x45),
   ("noclobber", 0x43), ("allexport", 0x61), ("notify", 0x62), ("nounset", 0x75), ("privileged", 0x70),
   ("nolog", 0x01), ("debug", 0x02)]

namespace Process

/-- Turn an option on or off. -/
def turn (p : Process) (isOn : Bool) (option : UInt8) : Process :=
  let others := p.options.filter (· ≠ option)
  { p with options := if isOn then option :: others else others }

/-- Turn the option of a letter on or off. Of the two ways to edit lines at
    most one is on. -/
def turnLetter (p : Process) (isOn : Bool) (letter : UInt8) : Except Bytes Process :=
  if !optionLetters.contains letter then .error (text "Illegal option -" ++ [letter])
  else
    let p := p.turn isOn letter
    .ok <|
      if isOn && letter = 0x56 then p.turn false 0x45
      else if isOn && letter = 0x45 then p.turn false 0x56
      else p

/-- Turn the option of a name on or off. -/
def turnNamed (p : Process) (isOn : Bool) (name : Bytes) : Except Bytes Process :=
  match optionNames.find? fun e => text e.1 = name with
  | some (_, option) => .ok (p.turn isOn option)
  | none => .error (text "Illegal option -o " ++ name)

/-- The options with their names, in full or as commands that would set
    them. -/
def shownOptions (p : Process) (isFull : Bool) : Bytes :=
  if isFull then
    text "Current option settings\n" ++ optionNames.flatMap fun (name, option) =>
      text name ++ List.replicate (16 - (text name).length) space ++
        text (if p.has option then "on\n" else "off\n")
  else
    optionNames.flatMap fun (name, option) =>
      text (if p.has option then "set -o " else "set +o ") ++ text name ++ [newline]

/-- Give the script other arguments. -/
def setArguments (p : Process) (args : List Bytes) : Process :=
  { p with args, optionIndex := 1, optionOffset := none }

/-- Set the options of one argument, letter by letter. A name for one of
    them is taken from the arguments after it, which are given back as far
    as they are left. -/
def setLetters (isOn : Bool) : (letters : Bytes) → (args : List Bytes) → Process →
    Except Bytes (Process × List Bytes)
  | [], args, p => .ok (p, args)
  | b :: letters, args, p => do
    if b = 0x6F then
      match args with
      | [] => setLetters isOn letters [] (p.print (p.shownOptions isOn))
      | name :: args => setLetters isOn letters args (← p.turnNamed isOn name)
    else setLetters isOn letters args (← p.turnLetter isOn b)

/-- Set options and the arguments of the script. -/
def setAll (p : Process) : (allowance : Nat) → List Bytes → Except Bytes Process
  | 0, _ => .ok p
  | _ + 1, [] => .ok p
  | n + 1, a :: args =>
    match a with
    | [0x2D] =>
      let p := (p.turn false 0x78).turn false 0x76
      .ok (if args = [] then p else p.setArguments args)
    | [0x2D, 0x2D] => .ok (p.setArguments args)
    | sign :: letters =>
      if sign ≠ 0x2D ∧ sign ≠ 0x2B then .ok (p.setArguments (a :: args))
      else do
        let (p, args) ← setLetters (sign = 0x2D) letters args p
        setAll p n args
    | [] => .ok (p.setArguments (a :: args))

/-- There is no terminal, so jobs are not controlled. -/
def withoutMonitor (p : Process) : Process :=
  if p.has 0x6D then (p.turn false 0x6D).warn (text "can't access tty; job control turned off") else p

/-- The variables in the order of their names. -/
def sortedBindings (p : Process) : List (Bytes × Binding) :=
  p.bindings.mergeSort fun a b => !(decide (b.1 < a.1))

/-- Show the variables, or set options and arguments. -/
def set (p : Process) (args : List Bytes) : Process :=
  if args = [] then
    p.print <| p.sortedBindings.flatMap fun (name, b) =>
      match b.value with
      | some value => settingLine [] name (some value)
      | none => []
  else match p.setAll (args.length + 1) args with
    | .error message => p.abort message
    | .ok p => p.withoutMonitor.answer 0

/-! ## Section 2: Options of scripts -/

/-- What `getopts` has found: a letter, what is told about it, and where to
    look next. -/
structure FoundOption where
  /-- The byte that the variable gets. -/
  letter : UInt8
  /-- The value of `OPTARG`, if it gets one. -/
  argument : Option Bytes
  complaint : Option Bytes
  index : Nat
  offset : Option Nat
  /-- Are there no more options? -/
  isEnd : Bool

/-- What the description of options says of a letter: whether it takes an
    argument, if it is there. -/
def takesArgument? (letter : UInt8) : Bytes → Option Bool
  | [] => none
  | b :: rest =>
    if b = letter then some (rest.head? = some 0x3A)
    else match rest with
      | 0x3A :: rest => takesArgument? letter rest
      | rest => takesArgument? letter rest

/-- Find the next option in arguments. `index` is the number of the argument
    that comes next, and `offset` says how far the one before it was
    read. -/
def findOption (description : Bytes) (args : List Bytes) (index : Nat) (offset : Option Nat) :
    FoundOption :=
  let before := if index ≤ 1 then none else args[index - 2]?
  let left : Bytes := match before, offset with
    | some a, some n => a.drop n
    | _, _ => []
  let noneAt (index : Nat) : FoundOption := ⟨0x3F, none, none, index, none, true⟩
  -- the letters that are left of an argument, and the number of the argument after it
  let letters : FoundOption ⊕ (Bytes × Nat) :=
    if left ≠ [] then .inr (left, index)
    else match args[index - 1]? with
      | some (0x2D :: c :: rest) =>
        if c = 0x2D ∧ rest = [] then .inl (noneAt (index + 1)) else .inr (c :: rest, index + 1)
      | _ => .inl (noneAt index)
  match letters with
  | .inl found => found
  | .inr ([], index) => noneAt index
  | .inr (c :: rest, index) =>
    let length := (args[index - 2]?.getD []).length
    let here : Option Nat := some (length - rest.length)
    let isQuiet := description.head? = some 0x3A
    let failed (letter : UInt8) (complaint : Bytes) (offset : Option Nat) : FoundOption :=
      if isQuiet then ⟨letter, some [c], none, index, offset, false⟩
      else ⟨0x3F, none, some complaint, index, offset, false⟩
    match takesArgument? c description with
    | none => failed 0x3F (text "Illegal option -" ++ [c]) here
    | some false => ⟨c, some [], none, index, here, false⟩
    | some true =>
      if rest ≠ [] then ⟨c, some rest, none, index, none, false⟩
      else match args[index - 1]? with
        | some a => ⟨c, some a, none, index + 1, none, false⟩
        | none => failed 0x3A (text "No arg for -" ++ c :: text " option") none

/-- Set a variable, if the name is one. -/
def assignChecked (p : Process) (name value : Bytes) : Process :=
  if isName name then p.assign name value else p.abort (name ++ text ": bad variable name")

/-- Find the next option of the script or of given arguments. -/
def getopts (p : Process) (args : List Bytes) : Process :=
  match args with
  | description :: name :: given =>
    let all := if given = [] then p.args else given
    let isBeyond := all.length + 1 < p.optionIndex
    let index := if isBeyond then 1 else p.optionIndex
    let offset := if isBeyond then none else p.optionOffset
    let found := findOption description all index offset
    let p := match found.complaint with
      | some complaint => p.remark complaint
      | none => p
    let p := match found.argument, found.isEnd with
      | some a, _ => p.assign (text "OPTARG") a
      | none, false => p.forget (text "OPTARG")
      | none, true => p
    let p := if p.isRunning then p.store (text "OPTIND") (decimal found.index) else p
    let p := if p.isRunning then p.assignChecked name [found.letter] else p
    if !p.isRunning then p
    else { p with optionIndex := found.index, optionOffset := found.offset }.decided (!found.isEnd)
  | _ => p.abort (text "Usage: getopts optstring var [arg...]")

end Process

end TestRig.Shell
