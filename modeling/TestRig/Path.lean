import TestRig.Text.Bytes

/-! # Paths

    A path is a byte string. Joining never normalises; comparing does: two
    paths are the same when their components are, and repeated separators, a
    trailing separator and every `.` but a leading one of a relative path do
    not count as components. -/

namespace TestRig

/-- A path as it is written. -/
abbrev Path : Type := Bytes

/-- The name of a directory in itself. -/
def dot : Bytes := [0x2E]

/-- The name of a directory's parent in it. -/
def dotDot : Bytes := [0x2E, 0x2E]

namespace Path

/-- Does the path start at the root? -/
def isAbsolute (p : Path) : Bool := p.head? = some slash

/-- Does the path end in a separator? -/
def endsInSlash (p : Path) : Bool := p.getLast? = some slash

/-- The path with a separator at its end, which the empty path does not
    need. -/
def asDirectory (p : Path) : Path := if p = [] ∨ p.endsInSlash then p else p ++ [slash]

/-- The entry that `name` denotes seen from `base`. An absolute `name`
    stands for itself. -/
def join (base name : Path) : Path := if name.isAbsolute then name else base.asDirectory ++ name

/-- The names between the separators, empty ones left out. -/
def names (p : Path) : List Bytes := (pieces slash p).filter (· ≠ [])

/-- What a path is made of, as far as comparing goes. -/
inductive Component where
  | root
  | here
  | parent
  | name (n : Bytes)
  deriving DecidableEq

/-- The component that a name in the middle of a path stands for: a `.`
    stands for none. -/
def Component.ofName? (n : Bytes) : Option Component :=
  if n = dot then none else if n = dotDot then some .parent else some (.name n)

/-- The components that compare: the root if the path starts there, else a
    leading `.`, then the names. -/
def components (p : Path) : List Component :=
  let start := if p.isAbsolute then [Component.root]
    else if (pieces slash p).head? = some dot then [Component.here] else []
  start ++ p.names.filterMap Component.ofName?

end Path

end TestRig
