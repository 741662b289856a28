import TestRig.Text.Lossy
import TestRig.Web.Reader

/-! # A reader of plain URLs

    To run the program in a world, some reader of URLs has to be given.
    `UrlReader.plain` reads the common ones. Blanks around a URL go away,
    letters of the host are made small, the default port is left out, `.`
    and `..` segments are resolved, and what may not stand in an address is
    percent-encoded.

    Hosts of which more would have to be known are unreadable to it: those
    that are encoded or hold letters beyond ASCII, and those that are
    numbers, unless they are four plain ones between dots. No result about
    exchanges depends on this reader. -/

namespace TestRig

/-! ## Section 1: The parts of an address -/

/-- The parts of an address. -/
structure Locator where
  /-- Is it asked for over HTTPS? -/
  isSecure : Bool
  host : Bytes
  /-- The port, unless it is the default one. -/
  port : Option Nat
  /-- The segments of the path. There is at least one, which may be empty. -/
  segments : List Bytes
  query : Option Bytes
  deriving DecidableEq

namespace Locator

/-! ## Section 2: Classes of bytes -/

def isDigit (b : UInt8) : Bool := 0x30 ≤ b && b ≤ 0x39

def isLetter (b : UInt8) : Bool := (0x41 ≤ b && b ≤ 0x5A) || (0x61 ≤ b && b ≤ 0x7A)

/-- The small letter of a letter; other bytes stay. -/
def small (b : UInt8) : UInt8 := if 0x41 ≤ b && b ≤ 0x5A then b + 0x20 else b

/-- May the byte occur in the name of a scheme after its first letter? -/
def isSchemeByte (b : UInt8) : Bool := isLetter b || isDigit b || (text "+-.").contains b

/-- Separators of segments: a backslash counts as a slash. -/
def isSlash (b : UInt8) : Bool := b = slash || b = 0x5C

/-- Bytes that are encoded wherever they occur: controls, blanks, all that
    is not ASCII, and quotes and brackets. -/
def isUnsafe (b : UInt8) : Bool := b ≤ 0x20 || 0x7F ≤ b || (text "\"<>").contains b

/-- Bytes that are encoded in the segments of a path. -/
def isUnsafeInPath (b : UInt8) : Bool :=
  isUnsafe b || b = 0x60 || b = 0x7B || b = 0x7D || (text "#?").contains b

/-- Bytes that are encoded in a query. -/
def isUnsafeInQuery (b : UInt8) : Bool := isUnsafe b || b = 0x27 || b = 0x23

/-- May the byte stand in the name of a host? -/
def isHostByte (b : UInt8) : Bool :=
  0x20 < b && b < 0x7F && !(text "#/:<>?@[\\]^|%").contains b

/-! ## Section 3: Paths and queries -/

/-- The capital hexadecimal digit of a number below sixteen. -/
def hexDigit (n : UInt8) : UInt8 := if n < 10 then 0x30 + n else 0x37 + n

/-- Percent-encode the bytes of one class. -/
def encode (isEncoded : UInt8 → Bool) (s : Bytes) : Bytes :=
  s.flatMap fun b => if isEncoded b then [0x25, hexDigit (b / 16), hexDigit (b % 16)] else [b]

/-- The pieces of a text between slashes of either kind. -/
def rawSegments (s : Bytes) : List Bytes :=
  pieces slash (s.map fun b => if isSlash b then slash else b)

/-- Does the segment stand for its own directory? The dot may be written
    encoded. -/
def isHere (s : Bytes) : Bool := [text ".", text "%2e"].contains (s.map small)

/-- Does the segment stand for the directory above? -/
def isAbove (s : Bytes) : Bool :=
  [text "..", text ".%2e", text "%2e.", text "%2e%2e"].contains (s.map small)

/-- Append segments to those read so far. A dot segment at the end leaves an
    empty one. -/
def appendSegments : List Bytes → List Bytes → List Bytes
  | done, [] => done
  | done, s :: rest =>
    let done := if isAbove s then done.dropLast else if isHere s then done
      else done ++ [encode isUnsafeInPath s]
    if rest = [] ∧ (isAbove s ∨ isHere s) then done ++ [[]] else appendSegments done rest

/-- The text before the first byte of a class, and the text from it on. -/
def splitBefore (stop : UInt8 → Bool) (s : Bytes) : Bytes × Bytes :=
  (s.takeWhile fun b => !stop b, s.dropWhile fun b => !stop b)

/-- The query that a text after a path starts with. -/
def queryOf (s : Bytes) : Option Bytes :=
  match s with
  | 0x3F :: s => some (encode isUnsafeInQuery s)
  | _ => none

/-! ## Section 4: Hosts and ports -/

/-- Four numbers below 256 without leading zeros, between dots. -/
def isDottedNumber (s : Bytes) : Bool :=
  let labels := pieces 0x2E s
  labels.length = 4 && labels.all fun label =>
    match numeral? label with
    | none => false
    | some n => n < 256 && label = decimal n

/-- Might the host be meant as a number? -/
def looksLikeNumber (s : Bytes) : Bool :=
  match ((pieces 0x2E s).filter (· ≠ [])).getLast? with
  | some (b :: _) => isDigit b
  | _ => false

/-- Read a host, which is small-lettered. -/
def readHost? (s : Bytes) : Option Bytes :=
  if s = [] ∨ ¬ s.all isHostByte then none
  else if looksLikeNumber s && !isDottedNumber s then none
  else some (s.map small)

/-- The port that is meant if none is given. -/
def defaultPort (isSecure : Bool) : Nat := if isSecure then 443 else 80

/-- Read a port. An empty one and the default one both stand for the
    default. -/
def readPort? (isSecure : Bool) (s : Bytes) : Option (Option Nat) :=
  if s = [] then some none
  else match numeral? s with
    | none => none
    | some n =>
      if n = defaultPort isSecure then some none else if n < 65536 then some (some n) else none

/-- Read what follows the slashes after the scheme: host, port, path and
    query. -/
def readAuthority? (isSecure : Bool) (s : Bytes) : Option Locator :=
  let (authority, rest) := splitBefore (fun b => isSlash b || b = 0x3F || b = 0x23) s
  -- a name of a user before an at sign is no part of the address
  let (host, port) := splitBefore (· = 0x3A) (afterLast 0x40 authority)
  match readHost? host, readPort? isSecure (port.drop 1) with
  | some host, some port =>
    let (path, rest) := splitBefore (fun b => b = 0x3F || b = 0x23) rest
    let query := queryOf (splitBefore (· = 0x23) rest).1
    some ⟨isSecure, host, port, appendSegments [] (rawSegments (path.drop 1)), query⟩
  | _, _ => none

/-! ## Section 5: URLs and references -/

/-- The text without blanks and controls around it and without tabs and ends
    of lines in it. -/
def trimmed (s : Bytes) : Bytes :=
  let inner := ((s.dropWhile (· ≤ 0x20)).reverse.dropWhile (· ≤ 0x20)).reverse
  inner.filter fun b => b ≠ 0x09 && b ≠ 0x0A && b ≠ 0x0D

/-- The scheme of a text in small letters, and what follows its colon. -/
def splitScheme? (s : Bytes) : Option (Bytes × Bytes) :=
  let (scheme, rest) := splitBefore (fun b => !isSchemeByte b) s
  match scheme, rest with
  | b :: _, 0x3A :: rest => if isLetter b then some (scheme.map small, rest) else none
  | _, _ => none

/-- Is the scheme the secure one? Nothing is said of a scheme that cannot be
    asked for. -/
def isSecureScheme? (scheme : Bytes) : Option Bool :=
  if scheme = text "http" then some false
  else if scheme = text "https" then some true
  else none

/-- Read a text without a scheme relative to an address. -/
def readRelative? (base : Locator) (s : Bytes) : Option Locator :=
  let (path, rest) := splitBefore (fun b => b = 0x3F || b = 0x23) s
  let query := queryOf (splitBefore (· = 0x23) rest).1
  match path with
  | [] => some { base with query := if rest.head? = some 0x3F then query else base.query }
  | b :: path' =>
    if isSlash b && path'.head?.any isSlash then
      readAuthority? base.isSecure (s.dropWhile isSlash)
    else if isSlash b then
      some { base with segments := appendSegments [] (rawSegments path'), query }
    else
      some { base with segments := appendSegments base.segments.dropLast (rawSegments path), query }

/-- The written form of an address. -/
def toText (l : Locator) : Address :=
  (if l.isSecure then text "https://" else text "http://") ++ l.host
    ++ (match l.port with | none => [] | some n => 0x3A :: decimal n)
    ++ l.segments.flatMap (fun s => slash :: s)
    ++ (match l.query with | none => [] | some q => 0x3F :: q)

/-- What a text names that was read as the parts of an address. -/
def reference : Option Locator → Reference
  | none => .unreadable
  | some l => .address l.toText

/-- Read a text as the URL of a resource. -/
def read (url : Url) : Reference :=
  match splitScheme? (trimmed url) with
  | none => .unreadable
  | some (scheme, rest) =>
    match isSecureScheme? scheme with
    | none => .foreign
    | some isSecure => reference (readAuthority? isSecure (rest.dropWhile isSlash))

/-- The parts of an address that has been read before. -/
def ofText? (a : Address) : Option Locator :=
  match splitScheme? a with
  | none => none
  | some (scheme, rest) =>
    match isSecureScheme? scheme with
    | none => none
    | some isSecure => readAuthority? isSecure (rest.dropWhile isSlash)

/-- Read a text that was found in the response of an address. -/
def refer (base : Locator) (s : Bytes) : Reference :=
  match splitScheme? (trimmed s) with
  | none => reference (readRelative? base (trimmed s))
  | some (scheme, rest) =>
    match isSecureScheme? scheme with
    | none => .foreign
    | some isSecure =>
      -- after the scheme of the address itself, a text may still be relative
      if isSecure = base.isSecure ∧ ¬ ((rest.take 2).all isSlash ∧ rest.length ≥ 2) then
        reference (readRelative? base rest)
      else reference (readAuthority? isSecure (rest.dropWhile isSlash))

end Locator

/-- The reader of plain URLs. A `Location` that is not UTF-8 means nothing
    to it. -/
def UrlReader.plain : UrlReader where
  read := Locator.read
  refer base location :=
    match Locator.ofText? base with
    | none => .unreadable
    | some l => if lossy location = location then l.refer location else .unreadable

end TestRig
