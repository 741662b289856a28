import TestRig.Shell.Option

/-! # Commands for variables and aliases

    A variable may be one that children see, one that keeps its value, or
    one that a named command has made its own. An alias is a text that takes
    the place of a word where a command may start. -/

namespace TestRig.Shell

/-! ## Section 1: How aliases are shown -/

/-- The order in which aliases are shown is that of this number, and of
    their making for equal ones. -/
def aliasRank (name : Bytes) : Nat :=
  (16 * (name.headD 0).toNat + total (name.map UInt8.toNat)) % 39

/-- A line that shows an alias. -/
def aliasLine (name value : Bytes) : Bytes := settingLine [] name (some value)

namespace Process

/-! ## Section 2: Variables -/

/-- The name and the value of an argument of a command that sets
    variables. -/
def setting (a : Bytes) : Bytes × Option Bytes :=
  let name := a.takeWhile (· ≠ 0x3D)
  (name, if name.length < a.length then some (a.drop (name.length + 1)) else none)

/-- Mark variables, and set those that come with a value. -/
def mark (p : Process) (change : Binding → Binding) : List Bytes → Process
  | [] => p.answer 0
  | a :: args =>
    let (name, value) := setting a
    if !isName name then p.abort (name ++ text ": bad variable name")
    else
      let p := match value with
        | some value => p.assign name value
        | none => p
      if !p.isRunning then p
      else
        let b := (p.binding? name).getD ⟨none, false, false⟩
        mark (p.setBinding name (some (change b))) change args

/-- Mark variables, or show those that are marked. -/
def markOrShow (p : Process) (isMarked : Binding → Bool) (change : Binding → Binding)
    (args : List Bytes) : Process :=
  -- only the first letter of the first argument is looked at
  let (first, names) : List Bytes × List Bytes := match args with
    | [0x2D, 0x2D] :: names => ([], names)
    | (0x2D :: letter :: _) :: names => ([[0x2D, letter]], names)
    | names => ([], names)
  p.withOptions (text "p") [] first fun options _ =>
    if options ≠ [] ∨ names = [] then
      let start := p.speaker.getD [] ++ [space]
      let marked := p.sortedBindings.filter fun b => isMarked b.2
      p.print (marked.flatMap fun (name, b) => settingLine start name b.value)
    else p.mark change names

/-- Let children see variables. -/
def makeVisible (p : Process) (args : List Bytes) : Process :=
  p.markOrShow Binding.isExported (fun b => { b with isExported := true }) args

/-- Let variables keep their values. -/
def protect (p : Process) (args : List Bytes) : Process :=
  p.markOrShow Binding.isReadOnly (fun b => { b with isReadOnly := true }) args

/-- Make a variable, or all options, the own of the command that is
    innermost. -/
def keepOwn (p : Process) (a : Bytes) : Process :=
  if a = text "-" then
    match p.kept with
    | [] => p
    | innermost :: outer => { p with kept := (.options p.options :: innermost) :: outer }
  else match setting a with
    | (name, some value) => (p.keep name).assign name value
    | (name, none) =>
      if isName name then p.keep name else p.abort (name ++ text ": bad variable name")

/-- Make variables the named command's own, and set those that come with a
    value. -/
def makeLocal (p : Process) (args : List Bytes) : Process :=
  if p.kept.isEmpty then p.abort (text "not in a function")
  else args.foldl (fun p a => if p.isRunning then p.keepOwn a else p) (p.answer 0)

/-- Forget variables or named commands. -/
def unset (p : Process) (args : List Bytes) : Process :=
  p.withOptions (text "vf") [] args fun options names =>
    -- the last option counts
    let isOfCommands := options.getLast?.map (·.1) = some 0x66
    names.foldl
      (fun p a =>
        let (name, _) := setting a
        if !p.isRunning then p
        else if isOfCommands then { p with definitions := p.definitions.filter (·.1 ≠ a) }
        else if isName name then p.forget name
        else p.abort (name ++ text ": bad variable name"))
      (p.answer 0)

/-! ## Section 3: Aliases -/

/-- Set or show an alias. -/
def makeAlias (p : Process) (a : Bytes) : Process :=
  -- the sign may be the first byte of a name
  let (name, value) := match a with
    | [] => ([], none)
    | b :: rest =>
      let (name, value) := setting rest
      (b :: name, value)
  match value, p.aliases.lookup name with
  | some value, some _ =>
    { p with aliases := p.aliases.map fun e => if e.1 = name then (name, value) else e }
  | some value, none => { p with aliases := p.aliases ++ [(name, value)] }
  | none, some value =>
    let shown := p.print (aliasLine name value)
    if shown.status = 0 then shown.answer p.status else shown
  | none, none => (p.remark (text "alias: " ++ name ++ text " not found")).answer 1

/-- Set or show aliases. -/
def alias_ (p : Process) (args : List Bytes) : Process :=
  match args with
  | [] =>
    let shown := p.aliases.mergeSort fun a b => aliasRank a.1 ≤ aliasRank b.1
    p.print (shown.flatMap fun (name, value) => aliasLine name value)
  | args => args.foldl (fun p a => if p.isRunning then p.makeAlias a else p) (p.answer 0)

/-- Forget aliases. -/
def unalias (p : Process) (args : List Bytes) : Process :=
  p.withOptions (text "a") [] args fun options names =>
    if options ≠ [] then { p with aliases := [], status := 0 }
    else
      names.foldl
        (fun p name =>
          if (p.aliases.lookup name).isSome then
            { p with aliases := p.aliases.filter (·.1 ≠ name) }
          else (p.remark (text "unalias: " ++ name ++ text " not found")).answer 1)
        (p.answer 0)

end Process

end TestRig.Shell
