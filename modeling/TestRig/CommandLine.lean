import TestRig.Layout
import TestRig.Text.Lossy

/-! # Command lines of the runner

    A command line is a program and its arguments, each passed on as one
    unsplit byte string. The runner is started in two ways: as the server
    that browsers attach to, and as the run of all tests. Both name the
    archive after `-jar` and the configuration after `--config`.

    A command line is shown with one space between its words and no
    quoting. -/

namespace TestRig

/-- A program with the arguments it is given. -/
structure CommandLine where
  program : Bytes
  args : List Bytes
  deriving DecidableEq

namespace CommandLine

/-- The words as the child sees them. -/
def argv (c : CommandLine) : List Bytes := c.program :: c.args

/-- The command line as it is shown: each word decoded on its own. -/
def display (c : CommandLine) : Bytes :=
  lossy c.program ++ c.args.flatMap fun a => space :: lossy a

/-- The program that runs the archive. -/
def java : Bytes := text "java"

/-- The port on which the server waits for browsers. -/
def serverPort : Nat := 2309

/-- The browser that the server starts. -/
def browser : Bytes := text "google-chrome"

/-- The server. -/
def server (l : Layout) : CommandLine where
  program := java
  args := [text "-jar", l.runnerJar, text "--port", decimal serverPort,
    text "--config", l.configFile, text "--browser", browser]

/-- A run of all tests. -/
def tests (l : Layout) : CommandLine where
  program := java
  args := [text "-jar", l.runnerJar, text "--config", l.configFile, text "--tests", text "all"]

end CommandLine

end TestRig
