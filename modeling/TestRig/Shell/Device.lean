import TestRig.Tree.Basic

/-! # Devices

    A few entries of the directory `dev` are no files, although the tree has
    files in their places: reading and writing them does something of its
    own. -/

namespace TestRig.Shell

/-- A device. -/
inductive Device where
  /-- It is empty, and drops what is written. -/
  | null
  /-- It has no room for what is written, and holds NUL bytes. -/
  | full
  /-- It drops what is written, and holds NUL bytes. -/
  | zero
  /-- What a descriptor of the process leads to. -/
  | descriptor (fd : Nat)
  /-- It is there, but cannot be opened. -/
  | missing
  deriving DecidableEq

/-- The devices by their names. -/
def devices : List (String × Device) :=
  [("null", .null), ("full", .full), ("zero", .zero), ("random", .zero), ("urandom", .zero),
   ("stdin", .descriptor 0), ("stdout", .descriptor 1), ("stderr", .descriptor 2), ("tty", .missing)]

/-- The device at a place. -/
def device? (p : Place) : Option Device :=
  match p with
  | [dir, name] => if dir = text "dev" then (devices.find? fun e => text e.1 = name).map (·.2) else none
  | _ => none

end TestRig.Shell
