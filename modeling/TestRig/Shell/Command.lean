import TestRig.Text.Numeral

/-! # The command language

    The scripts that children run are written in the command language of the
    system. This module holds its structure: words with their quoting,
    redirections, and commands. Words keep their quoting because it decides
    how they are expanded.

    A command substitution is part of a word and holds a command, so words
    and commands are defined together. -/

namespace TestRig.Shell

/-! ## Section 1: Words and commands -/

/-- What a `$` in a word stands for. -/
inductive Parameter where
  /-- All arguments, each of its own. -/
  | arguments
  /-- All arguments in one text. -/
  | argumentText
  | argumentCount
  | processNumber
  | lastStatus
  /-- The number of the last command that was started in the background. -/
  | lastBackground
  | options
  | argument (n : Nat)
  | named (name : Bytes)
  deriving DecidableEq

/-- What is done with the value of a parameter. Four of the uses depend on
    whether the parameter is set, and those with `emptyToo` take an empty
    value for none. -/
inductive Use where
  | value
  | length
  /-- The word takes the place of a missing value. -/
  | orElse (emptyToo : Bool)
  /-- The word becomes the value if there is none. -/
  | orAssign (emptyToo : Bool)
  /-- The word is the complaint if there is no value. -/
  | orRefuse (emptyToo : Bool)
  /-- The word takes the place of a value that is there. -/
  | ifSet (emptyToo : Bool)
  /-- Without the shortest or the longest start that the word matches. -/
  | trimStart (longest : Bool)
  /-- Without the shortest or the longest end that the word matches. -/
  | trimEnd (longest : Bool)
  /-- The value, after which the word of the braces ends the whole word. -/
  | cut
  /-- The braces hold nothing that makes sense. -/
  | unusable
  deriving DecidableEq

/-- What a redirection does with its descriptor. -/
inductive RedirectKind where
  | read
  | readWrite
  /-- Write to a file that is emptied before. -/
  | write
  /-- The same, even if files that are there are to be kept. -/
  | replace
  | append
  /-- Do as another descriptor does. -/
  | duplicate
  /-- Read the text of the word. -/
  | document
  deriving DecidableEq

/-- A redirection of a descriptor. -/
structure RedirectTo (α : Type) where
  fd : Nat
  kind : RedirectKind
  target : α

mutual

/-- A stretch of a word. -/
inductive Fragment where
  /-- Text as it is. Quoted text makes a word even if it is empty. -/
  | literal (s : Bytes) (isQuoted : Bool)
  | parameter (p : Parameter) (use : Use) (word : List Fragment) (isQuoted : Bool)
  /-- What a command prints. -/
  | substitution (c : Command) (isQuoted : Bool)
  | arithmetic (expression : List Fragment) (isQuoted : Bool)

/-- A command, with the line on which it starts where a complaint may need
    it. -/
inductive Command where
  | nothing
  | simple (line : Nat) (assignments : List (Bytes × List Fragment)) (words : List (List Fragment))
      (redirects : List (RedirectTo (List Fragment)))
  | sequence (a b : Command)
  | both (a b : Command)
  | either (a b : Command)
  | negated (a : Command)
  /-- The output of each command is the input of the next one. -/
  | piped (commands : List Command)
  | background (line : Nat) (a : Command)
  /-- In a process of its own. -/
  | enclosed (line : Nat) (a : Command) (redirects : List (RedirectTo (List Fragment)))
  | redirected (line : Nat) (a : Command) (redirects : List (RedirectTo (List Fragment)))
  | conditional (test yes no : Command)
  /-- Repeat as long as the test succeeds, or as long as it fails. -/
  | repeated (untilDone : Bool) (test body : Command)
  | forEach (line : Nat) (name : Bytes) (words : List (List Fragment)) (body : Command)
  /-- The first arm one of whose patterns the subject matches. -/
  | choice (line : Nat) (subject : List Fragment) (arms : List (List (List Fragment) × Command))
  /-- Give a command a name. -/
  | define (line : Nat) (name : Bytes) (body : Command)

end

instance : Inhabited Command := ⟨.nothing⟩

/-- A word of a script. -/
abbrev Word : Type := List Fragment

/-- A redirection in a script. -/
abbrev Redirect : Type := RedirectTo Word

/-- One command after the other. -/
def Command.andThen : Command → Command → Command
  | .nothing, b => b
  | a, b => .sequence a b

/-- Add a fragment to a word whose fragments are held last first. -/
def addFragment (f : Fragment) (w : List Fragment) : List Fragment :=
  match f, w with
  | .literal s q, .literal t r :: w =>
    if q = r then .literal (t ++ s) q :: w else .literal s q :: .literal t r :: w
  | f, w => f :: w

/-- The text of a word that is not quoted and needs no expansion. -/
def bareText? : Word → Option Bytes
  | [.literal s false] => some s
  | _ => none

/-! ## Section 2: Blanks and names -/

/-- Blanks separate words. -/
def isBlank (b : UInt8) : Bool := b = 0x20 || b = 0x09

/-- May a name start with the byte? -/
def isNameStart (b : UInt8) : Bool :=
  (0x41 ≤ b && b ≤ 0x5A) || (0x61 ≤ b && b ≤ 0x7A) || b = 0x5F

/-- May the byte occur in a name? -/
def isNameByte (b : UInt8) : Bool := isNameStart b || isDigit b

/-- Is the text a name? -/
def isName (s : Bytes) : Bool :=
  match s with
  | [] => false
  | b :: s => isNameStart b && s.all isNameByte

/-- The name and the value of a text with a `=` after a name. -/
def assignment? (s : Bytes) : Option (Bytes × Bytes) :=
  let name := s.takeWhile isNameByte
  match s.drop name.length with
  | 0x3D :: value => if isName name then some (name, value) else none
  | _ => none

/-- The name and the value of a word that is an assignment. -/
def Word.assignment? : Word → Option (Bytes × Word)
  | .literal s false :: rest =>
    (Shell.assignment? s).map fun (name, value) =>
      (name, if value = [] then rest else .literal value false :: rest)
  | _ => none

end TestRig.Shell
