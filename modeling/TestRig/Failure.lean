import TestRig.Layout
import TestRig.SystemError
import TestRig.Text.Lossy
import TestRig.Web.Status

/-! # Failures of a run

    A run stops at its first failure. A failure says what was attempted and
    on what; where the system refused the attempt, it also carries the
    cause. `message` is the one place where failures get their wording.

    What the HTTP client has to say about a failure of its own is left out:
    why it could not be set up, why no response arrived, and why a body
    ended early. A report of such a failure goes on with that after the
    lines that `report` gives. -/

namespace TestRig

/-- What a run failed to do. -/
inductive Failure where
  | currentDirectory (cause : SystemError)
  | makeDirectory (path : Path) (cause : SystemError)
  /-- No client for HTTP could be set up. -/
  | client
  /-- No response arrived for the URL. -/
  | get (url : Url)
  /-- The response reports something other than success. -/
  | status (status : Nat) (url : Url)
  | create (dest : Path) (cause : SystemError)
  /-- The body ended early. -/
  | write (url : Url) (dest : Path)
  | launch (program : Bytes) (cause : SystemError)
  deriving DecidableEq

namespace Failure

/-- What is said about the failure. -/
def message : Failure → Bytes
  | currentDirectory _ => text "Failed to get current directory"
  | makeDirectory path _ => text "Failed to create directory " ++ lossy path
  | client => text "Failed to build HTTP client"
  | get url => text "Failed to GET " ++ url
  | status code url => text "HTTP " ++ Status.describe code ++ text ": " ++ url
  | create dest _ => text "Failed to create " ++ lossy dest
  | write url dest => text "Failed to write " ++ url ++ text " to " ++ lossy dest
  | launch program _ => text "Failed to launch " ++ lossy program

/-- Why the system refused the attempt, if it was the system that did. -/
def cause? : Failure → Option SystemError
  | currentDirectory cause => some cause
  | makeDirectory _ cause => some cause
  | create _ cause => some cause
  | launch _ cause => some cause
  | client => none
  | get _ => none
  | status _ _ => none
  | write _ _ => none

/-- What the program prints when it ends in this failure, up to what the
    HTTP client adds. -/
def report (f : Failure) : Bytes :=
  text "Error: " ++ f.message ++ [newline]
    ++ match f.cause? with
      | none => []
      | some cause => text "\nCaused by:\n    " ++ cause.describe ++ [newline]

end Failure

end TestRig
