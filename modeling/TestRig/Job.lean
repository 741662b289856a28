import TestRig.Failure
import TestRig.Tree.Edit
import TestRig.Web.Exchange

/-! # Downloads and installations as jobs

    A job is a list of atomic steps on a shared tree, together with what it
    has in hand: the response it got last, the file it has open, and what it
    has requested and printed so far. A job stops at its first failure by
    giving up all steps it has left.

    A download asks for a URL, creates its destination and writes the body
    there; an installation makes two directories and downloads two archives.
    Because the steps are atomic and each job keeps its own hands, the same
    definition serves a job that runs alone (`Job.finish`) and jobs that
    take turns on one tree (`Job.advance`). -/

namespace TestRig

/-! ## Section 1: Steps and what a job has in hand -/

/-- An atomic step of a job. -/
inductive Step where
  | makeDirectory (path : Path)
  /-- Say that the URL is downloaded, and ask for it. -/
  | request (url : Url)
  | create (dest : Path)
  /-- Write the body that arrived to the open file. -/
  | write (url : Url) (dest : Path)
  /-- Say that the installation is complete. -/
  | announce (dir : Path)
  deriving DecidableEq

/-- Where a job is done: the directory it reads relative paths in, and the
    web that it sees. -/
structure Site where
  cwd : Place
  web : Web

/-- A job: the steps it has left, and what it has in hand. -/
structure Job where
  pending : List Step
  /-- The response of the last request. -/
  response : Response
  /-- The place of the file that was created last. -/
  opened : Place
  /-- How many bytes the last download wrote. -/
  written : Nat
  /-- The requests made so far. -/
  requests : List Address
  /-- What was printed so far. -/
  output : Bytes
  /-- Why the job stopped early. -/
  failure : Option Failure

namespace Job

/-! ## Section 2: The two kinds of jobs -/

/-- A job that has all its steps before it. -/
def ofSteps (steps : List Step) : Job where
  pending := steps
  response := default
  opened := []
  written := 0
  requests := []
  output := []
  failure := none

/-- The steps of a download. -/
def downloadSteps (url : Url) (dest : Path) : List Step :=
  [.request url, .create dest, .write url dest]

/-- Download `url` to `dest`. -/
def download (url : Url) (dest : Path) : Job := ofSteps (downloadSteps url dest)

/-- Install the archives as the layout says. -/
def installation (l : Layout) (artifacts : Artifacts) : Job :=
  ofSteps <|
    [.makeDirectory l.installDir, .makeDirectory l.pluginsDir]
      ++ downloadSteps artifacts.runner l.runnerJar
      ++ downloadSteps artifacts.coverage l.coverageJar
      ++ [.announce l.installDir]

/-- The line that says that a URL is downloaded. -/
def downloadLine (url : Url) : Bytes := text "📥 Downloading " ++ url ++ [newline]

/-- The lines that say that an installation is complete. -/
def installedLines (dir : Path) : Bytes :=
  newline :: text "✅ jstestdriver installed in " ++ lossy dir ++ [newline]

/-! ## Section 3: Doing a step -/

/-- The job stopped by a failure. -/
def fail (j : Job) (f : Failure) : Job := { j with pending := [], failure := some f }

/-- Ask for a URL. Only a response that reports success is kept. -/
def request (j : Job) (site : Site) (url : Url) : Job :=
  -- the line is printed whether or not the URL turns out to be one
  let answer := site.web.exchange url
  let j := { j with
    output := j.output ++ downloadLine url
    requests := j.requests ++ answer.requests }
  match answer.response with
  | none => j.fail (.get url)
  | some r =>
    if Status.isSuccess r.status then { j with response := r }
    else j.fail (.status r.status url)

/-- Do one step. -/
def perform (site : Site) (step : Step) (j : Job) (t : Tree) : Job × Tree :=
  match step with
  | .makeDirectory path =>
    match t.makeDirectory site.cwd path with
    | .error e => (j.fail (.makeDirectory path e), t)
    | .ok t => (j, t)
  | .request url => (j.request site url, t)
  | .create dest =>
    match t.createFile site.cwd dest with
    | .error e => (j.fail (.create dest e), t)
    | .ok (t, p) => ({ j with opened := p }, t)
  | .write url dest =>
    -- what arrived is written even if it is not all
    let t := t.write j.opened j.response.body
    if j.response.complete then ({ j with written := j.response.body.length }, t)
    else (j.fail (.write url dest), t)
  | .announce dir => ({ j with output := j.output ++ installedLines dir }, t)

/-! ## Section 4: Going on -/

/-- Do the next step of a job, if it has one left. -/
def advance (site : Site) (j : Job) (t : Tree) : Job × Tree :=
  match j.pending with
  | [] => (j, t)
  | step :: rest => perform site step { j with pending := rest } t

/-- Do at most `n` further steps. -/
def advanceBy (site : Site) : (n : Nat) → Job → Tree → Job × Tree
  | 0, j, t => (j, t)
  | n + 1, j, t =>
    let (j, t) := j.advance site t
    advanceBy site n j t

/-- Do all the steps that a job has left. -/
def finish (site : Site) (j : Job) (t : Tree) : Job × Tree := advanceBy site j.pending.length j t

end Job

end TestRig
