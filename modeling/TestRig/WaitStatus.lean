/-! # How a child ended

    The system reports the end of a child as a word of 32 bits. Its low
    seven bits say how: zero for a normal exit, whose code is the second
    byte; 127 for a child that has not ended at all; anything else for the
    signal that ended it. The eighth bit only says whether memory was
    dumped, and the high half says nothing.

    The exit code of a run is the code of its child, or 128 and the signal,
    so that a child ended by a signal never counts as a success. -/

namespace TestRig

/-- The word in which the system reports the end of a child. -/
abbrev WaitStatus : Type := BitVec 32

/-- How a child ended. -/
inductive Ending where
  | exited (code : Nat)
  | signalled (signal : Nat)
  /-- The word does not report an end. -/
  | unended
  deriving DecidableEq, Repr

namespace WaitStatus

/-- The low seven bits. -/
def manner (w : WaitStatus) : Nat := w.toNat % 128

/-- The second byte. -/
def secondByte (w : WaitStatus) : Nat := w.toNat / 256 % 256

/-- Read the word. -/
def ending (w : WaitStatus) : Ending :=
  if w.manner = 0 then .exited w.secondByte
  else if w.manner = 127 then .unended
  else .signalled w.manner

/-- The exit code that stands for the end of a child. -/
def exitCode (w : WaitStatus) : Nat :=
  match w.ending with
  | .exited code => code
  | .signalled signal => 128 + signal
  | .unended => 1

/-- The word of a child that exited. -/
def ofExit (code : Nat) : WaitStatus := BitVec.ofNat 32 (code % 256 * 256)

/-- The word of a child that a signal ended. -/
def ofSignal (signal : Nat) : WaitStatus := BitVec.ofNat 32 (signal % 128)

end WaitStatus

end TestRig
