import TestRig.Shell.Process

/-! # Arguments and output of built-in commands

    What the built-in commands have in common: options in front of their
    arguments, and output, in which values are quoted so that a script could
    read them. -/

namespace TestRig.Shell

/-! ## Section 1: Options of commands -/

/-- The options that arguments start with, each with its argument if it
    takes one, and the arguments after them; or the complaint about one that
    there is not. -/
def readOptions (plain taking : Bytes) : List Bytes →
    Except Bytes (List (UInt8 × Bytes) × List Bytes)
  | [] => .ok ([], [])
  | a :: args =>
    match a with
    | 0x2D :: b :: letters =>
      if b = 0x2D ∧ letters = [] then .ok ([], args)
      else
        let all := b :: letters
        let known := all.takeWhile plain.contains
        let seen := known.map fun b => (b, [])
        match all.drop known.length, args with
        | [], args => (readOptions plain taking args).map fun (more, rest) => (seen ++ more, rest)
        | [c], value :: args =>
          if taking.contains c then
            (readOptions plain taking args).map fun (more, rest) => (seen ++ (c, value) :: more, rest)
          else .error (text "Illegal option -" ++ [c])
        | [c], [] =>
          if taking.contains c then .error (text "No arg for -" ++ c :: text " option")
          else .error (text "Illegal option -" ++ [c])
        | c :: value, args =>
          if taking.contains c then
            (readOptions plain taking args).map fun (more, rest) => (seen ++ (c, value) :: more, rest)
          else .error (text "Illegal option -" ++ [c])
    | a => .ok ([], a :: args)

/-- A text as it is written in a script: in single quotes, and these in
    double quotes. -/
def inQuotes (s : Bytes) : Bytes := go (s.length + 1) s
where
  /-- Quote text up to the next single quotes, and these. -/
  go : (allowance : Nat) → Bytes → Bytes
    | 0, _ => []
    | n + 1, s =>
      let plain := s.takeWhile (· ≠ 0x27)
      let quotes := (s.drop plain.length).takeWhile (· = 0x27)
      let rest := s.drop (plain.length + quotes.length)
      let start := if plain = [] ∧ quotes ≠ [] then [] else 0x27 :: plain ++ [0x27]
      if quotes = [] then start
      else start ++ 0x22 :: quotes ++ [0x22] ++ if rest = [] then [] else go n rest

/-- A line that sets a variable. -/
def settingLine (start name : Bytes) (value : Option Bytes) : Bytes :=
  start ++ name ++
    (match value with
      | some s => 0x3D :: inQuotes s
      | none => []) ++ [newline]

namespace Process

/-! ## Section 2: Printing and complaining -/

/-- Print on the standard output; a command that cannot fails. -/
def print (p : Process) (s : Bytes) : Process :=
  match p.write 1 s with
  | (p, true) => p.answer 0
  | (p, false) =>
    if p.isRunning then p.complain (p.speaker.getD [] ++ text ": I/O error") 1 else p

/-- Write a line to the error output that does not say who complains. -/
def remark (p : Process) (s : Bytes) : Process := (p.write 2 (s ++ [newline])).1

/-- Do something with the options and the arguments after them, or complain
    of an option. -/
def withOptions (p : Process) (plain taking : Bytes) (args : List Bytes)
    (body : List (UInt8 × Bytes) → List Bytes → Process) : Process :=
  match readOptions plain taking args with
  | .error message => p.abort message
  | .ok (options, args) => body options args

/-- Do something with the number that an argument denotes, or complain that
    it is none. -/
def withCount (p : Process) (s : Bytes) (body : Nat → Process) : Process :=
  match count? s with
  | .error message => p.abort message
  | .ok n => body n

end Process

end TestRig.Shell
