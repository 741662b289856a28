import TestRig.Text.Bytes

/-! # Reading the arguments of the program

    The first argument names a command; whatever follows it is accepted and
    ignored. There are no options, so an argument that looks like one where
    the command should stand is refused. A `--` ends the recognition of
    options: the first one is dropped, provided that it comes before the
    arguments after the command have begun, and every later `--` is an
    argument like any other.

    `select` is all that the rest of the program sees of the arguments: a
    command to run, or the advice to show how the program is used. -/

namespace TestRig

/-! ## Section 1: Commands and the usage -/

/-- What the program can do. -/
inductive Command where
  /-- Fetch the archives and lay them out. -/
  | setup
  /-- Start the server. -/
  | runserver
  /-- Run all tests. -/
  | runtests
  deriving DecidableEq, Repr

namespace Command

/-- All commands, in the order in which they are listed. -/
def all : List Command := [.setup, .runserver, .runtests]

/-- The argument that names a command. -/
def name : Command → Bytes
  | .setup => text "setup"
  | .runserver => text "runserver"
  | .runtests => text "runtests"

/-- The command of exactly that name. -/
def ofName? (s : Bytes) : Option Command := all.find? fun c => c.name = s

end Command

/-- The line that says how the program is used. -/
def usage : Bytes :=
  text "Choose a command, one of: " ++ (text ", ").intercalate (Command.all.map Command.name)

/-! ## Section 2: Reading the arguments -/

/-- Arguments that were accepted. -/
structure Invocation where
  command : Option Command
  rest : List Bytes
  deriving DecidableEq

/-- Why arguments are refused. -/
inductive Refusal where
  /-- An option, of which there are none. -/
  | unknownArgument
  /-- Something that names no command. -/
  | invalidValue
  deriving DecidableEq, Repr

namespace Invocation

/-- The argument that ends the recognition of options. -/
def separator : Bytes := text "--"

/-- Is the argument taken for an option? A single `-` is not. -/
def looksLikeOption (arg : Bytes) : Bool := arg.head? = some 0x2D && arg.length ≠ 1

/-- Read the name of a command; all that follows is kept. -/
def ofWords (word : Bytes) (rest : List Bytes) : Except Refusal Invocation :=
  match Command.ofName? word with
  | some c => .ok ⟨some c, rest⟩
  | none => .error .invalidValue

/-- The arguments after a command without the separator that they may start
    with. -/
def dropSeparator : List Bytes → List Bytes
  | [] => []
  | arg :: rest => if arg = separator then rest else arg :: rest

/-- Read the arguments that follow the name of the program. -/
def ofArguments : List Bytes → Except Refusal Invocation
  | [] => .ok ⟨none, []⟩
  | arg :: rest =>
    if arg = separator then
      match rest with
      | [] => .ok ⟨none, []⟩
      | word :: rest => ofWords word rest
    else if looksLikeOption arg then .error .unknownArgument
    else ofWords arg (dropSeparator rest)

/-- Read a whole list of arguments, which the name of the program comes
    first in. -/
def parse (args : List Bytes) : Except Refusal Invocation := ofArguments args.tail

end Invocation

/-! ## Section 3: Selecting a command -/

/-- What the arguments ask for. -/
inductive Selection where
  | run (c : Command)
  | showUsage
  deriving DecidableEq

/-- What a list of arguments, program name first, asks for. -/
def select (args : List Bytes) : Selection :=
  match Invocation.parse args with
  | .ok ⟨some c, _⟩ => .run c
  | _ => .showUsage

end TestRig
