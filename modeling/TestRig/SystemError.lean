import TestRig.Text.Bytes

/-! # What the system answers when it refuses

    Most refusals carry one of the system's numbered errors. A NUL byte
    never reaches the system: a text that holds one cannot be passed to it,
    and is refused before. -/

namespace TestRig

/-- The numbered errors that occur when places are looked up, entered or
    run. -/
inductive Errno where
  | noEntry
  | noDevice
  | argumentsTooLong
  | accessDenied
  | alreadyThere
  | notDirectory
  | isDirectory
  | nameTooLong
  | tooManyLinks
  deriving DecidableEq, Repr

/-- The number of the error. -/
def Errno.code : Errno → Nat
  | .noEntry => 2
  | .noDevice => 6
  | .argumentsTooLong => 7
  | .accessDenied => 13
  | .alreadyThere => 17
  | .notDirectory => 20
  | .isDirectory => 21
  | .nameTooLong => 36
  | .tooManyLinks => 40

/-- The system's wording of the error. -/
def Errno.wording : Errno → String
  | .noEntry => "No such file or directory"
  | .noDevice => "No such device or address"
  | .argumentsTooLong => "Argument list too long"
  | .accessDenied => "Permission denied"
  | .alreadyThere => "File exists"
  | .notDirectory => "Not a directory"
  | .isDirectory => "Is a directory"
  | .nameTooLong => "File name too long"
  | .tooManyLinks => "Too many levels of symbolic links"

/-- Why an operation on the file tree, or the start of a child, was
    refused. -/
inductive SystemError where
  /-- The system answered with an error of its own. -/
  | os (e : Errno)
  /-- A path holds a NUL byte. -/
  | nulInPath
  /-- The name of a program, or one of its arguments, holds a NUL byte. -/
  | nulInArgument
  deriving DecidableEq, Repr

/-- The text shown as the cause of a failure. -/
def SystemError.describe : SystemError → Bytes
  | .os e => text e.wording ++ text " (os error " ++ decimal e.code ++ text ")"
  | .nulInPath => text "file name contained an unexpected NUL byte"
  | .nulInArgument => text "nul byte found in provided data"

end TestRig
