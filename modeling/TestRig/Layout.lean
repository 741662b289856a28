import TestRig.Path

/-! # What is installed, and where

    A project gets two archives: the test runner and its coverage plugin.
    Each is stored under the last segment of the URL that serves it.
    `Layout.resolve` says where the archives, their directories and the
    configuration of the project belong; it only joins paths and looks at no
    tree.

    Two layouts are the same (`Layout.Same`) when their paths have the same
    components, so `a//b` and `a/./b` do not make a difference although they
    are not the same bytes. -/

namespace TestRig

/-! ## Section 1: Archives and their URLs -/

/-- A URL as it is written. -/
abbrev Url : Type := Bytes

/-- The name under which the file that a URL serves is stored: what follows
    its last separator. -/
def fileName (url : Url) : Bytes := afterLast slash url

/-- The URLs of the two archives. -/
structure Artifacts where
  runner : Url
  coverage : Url
  deriving DecidableEq

/-- The release that is installed unless another one is asked for. -/
def Artifacts.release : Artifacts where
  runner := text "http://js-test-driver.googlecode.com/files/JsTestDriver-1.3.3c.jar"
  coverage := text "http://js-test-driver.googlecode.com/files/coverage-1.3.3c.jar"

/-! ## Section 2: The paths of an installation -/

/-- The five paths of an installation. -/
structure Layout where
  /-- The directory that an installation makes. -/
  installDir : Path
  /-- The directory in it that the runner loads its plugins from. -/
  pluginsDir : Path
  /-- The archive that is run. -/
  runnerJar : Path
  /-- The archive of the plugin. -/
  coverageJar : Path
  /-- The configuration, which the project brings itself. -/
  configFile : Path
  deriving DecidableEq

namespace Layout

/-- The name of the directory that an installation makes. -/
def installName : Bytes := text "jstestdriver"

/-- The name of the plugin directory in it. -/
def pluginsName : Bytes := text "plugins"

/-- The name of the configuration of a project. -/
def configName : Bytes := text "jstestdriver.conf"

/-- Where everything belongs in the project at `root`. -/
def resolve (root : Path) (artifacts : Artifacts) : Layout :=
  let installDir := Path.join root installName
  let pluginsDir := Path.join installDir pluginsName
  { installDir
    pluginsDir
    runnerJar := Path.join installDir (fileName artifacts.runner)
    coverageJar := Path.join pluginsDir (fileName artifacts.coverage)
    configFile := Path.join root configName }

/-! ## Section 3: Layouts that name the same paths -/

/-- The components of the five paths, in the order of the fields. -/
def components (l : Layout) : List (List Path.Component) :=
  [l.installDir, l.pluginsDir, l.runnerJar, l.coverageJar, l.configFile].map Path.components

/-- Do two layouts name the same paths? -/
def Same (l m : Layout) : Prop := l.components = m.components

instance (l m : Layout) : Decidable (l.Same m) := inferInstanceAs (Decidable (_ = _))

end Layout

end TestRig
