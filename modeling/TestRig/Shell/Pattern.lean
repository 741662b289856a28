import TestRig.Shell.Command

/-! # Patterns

    A pattern is a text in which `*` stands for any text, `?` for any byte
    and brackets for one byte out of a set, unless they are quoted. Patterns
    choose the arm of a `case`, trim values and name the entries of
    directories. -/

namespace TestRig.Shell

/-! ## Section 1: Bytes that may be quoted -/

/-- A byte of an expanded word, and whether it is quoted. -/
structure Glyph where
  byte : UInt8
  isQuoted : Bool
  deriving DecidableEq

/-- Text that is quoted, or is not. -/
def glyphs (s : Bytes) (isQuoted : Bool) : List Glyph := s.map fun b => ⟨b, isQuoted⟩

/-- The text of glyphs. -/
def plainText (gs : List Glyph) : Bytes := gs.map Glyph.byte

/-- Is the glyph the byte, not quoted? -/
def Glyph.isBare (g : Glyph) (b : UInt8) : Bool := g.byte = b && !g.isQuoted

/-- Take each backslash that is not quoted for a quote of the byte after
    it. -/
def resolveEscapes : List Glyph → List Glyph
  | [] => []
  | [g] => [if g.isBare 0x5C then { g with isQuoted := true } else g]
  | g :: c :: gs =>
    if g.isBare 0x5C then { c with isQuoted := true } :: resolveEscapes gs
    else g :: resolveEscapes (c :: gs)

/-! ## Section 2: Patterns -/

/-- What a set of bytes in brackets names. -/
inductive Member where
  | range (low high : UInt8)
  | family (name : Bytes)
  deriving DecidableEq

/-- A part of a pattern. -/
inductive PatternItem where
  | exactly (b : UInt8)
  | anyByte
  | anyText
  | oneOf (isNegated : Bool) (members : List Member)
  deriving DecidableEq

/-- A pattern. -/
abbrev Pattern : Type := List PatternItem

/-- Is the byte a capital letter? -/
def isUpper (b : UInt8) : Bool := 0x41 ≤ b && b ≤ 0x5A

/-- Is the byte a small letter? -/
def isLower (b : UInt8) : Bool := 0x61 ≤ b && b ≤ 0x7A

/-- The families of bytes that can be named in brackets. -/
def families : List (String × (UInt8 → Bool)) :=
  let isAlnum (b : UInt8) := isUpper b || isLower b || isDigit b
  [("alpha", fun b => isUpper b || isLower b), ("digit", isDigit), ("alnum", isAlnum),
   ("upper", isUpper), ("lower", isLower), ("blank", fun b => b = 0x20 || b = 0x09),
   ("space", isSpace), ("cntrl", fun b => b < 0x20 || b = 0x7F),
   ("print", fun b => 0x20 ≤ b && b < 0x7F), ("graph", fun b => 0x20 < b && b < 0x7F),
   ("punct", fun b => 0x20 < b && b < 0x7F && !isAlnum b), ("xdigit", isDigitOf 16)]

/-- Is the byte in the family of a name? -/
def isInFamily (name : Bytes) (b : UInt8) : Bool :=
  families.any fun (s, holds) => text s = name && holds b

/-- A byte as a number with a sign; ranges go by the order of these. -/
def signedByte (b : UInt8) : Int8 := b.toInt8

/-- Does the member name the byte? -/
def Member.holds (b : UInt8) : Member → Bool
  | .range low high => signedByte low ≤ signedByte b && signedByte b ≤ signedByte high
  | .family name => isInFamily name b

/-! ## Section 3: Reading a pattern -/

/-- The family that glyphs after a bracket name between colons, and the
    glyphs after its own bracket. -/
def familyName? (gs : List Glyph) : Option (Bytes × List Glyph) :=
  match gs with
  | [] => none
  | c :: gs =>
    let name := gs.takeWhile fun g => isLower g.byte
    match gs.drop name.length with
    | d :: e :: rest =>
      let isKnown := families.any fun (s, _) => text s = plainText name
      if c.isBare 0x3A && d.isBare 0x3A && e.isBare 0x5D && isKnown then some (plainText name, rest)
      else none
    | _ => none

/-- The members of a set up to its closing bracket, and the glyphs after it;
    nothing if it has none. A bracket at the start is a member. -/
def readMembers : (allowance : Nat) → (isFirst : Bool) → List Glyph → Option (List Member × List Glyph)
  | 0, _, _ => none
  | _ + 1, _, [] => none
  | n + 1, isFirst, g :: gs =>
    if g.isBare 0x5D && !isFirst then some ([], gs)
    else
      let after (m : Member) (gs : List Glyph) :=
        (readMembers n false gs).map fun (ms, gs) => (m :: ms, gs)
      match if g.isBare 0x5B then familyName? gs else none with
      | some (name, gs) => after (.family name) gs
      | none =>
        match gs with
        | mid :: high :: rest =>
          if mid.isBare 0x2D && !high.isBare 0x5D then after (.range g.byte high.byte) rest
          else after (.range g.byte g.byte) gs
        | gs => after (.range g.byte g.byte) gs

/-- Read a pattern whose escapes were resolved. A bracket that is not closed
    stands for itself. -/
def readPattern : (allowance : Nat) → List Glyph → Pattern
  | 0, _ => []
  | _ + 1, [] => []
  | n + 1, g :: gs =>
    if g.isBare 0x2A then .anyText :: readPattern n gs
    else if g.isBare 0x3F then .anyByte :: readPattern n gs
    else if g.isBare 0x5B then
      let (isNegated, inner) := match gs with
        | c :: rest => if c.isBare 0x21 then (true, rest) else (false, gs)
        | [] => (false, gs)
      match readMembers (inner.length + 1) true inner with
      | some (ms, rest) => .oneOf isNegated ms :: readPattern n rest
      | none => .exactly g.byte :: readPattern n gs
    else .exactly g.byte :: readPattern n gs

/-- The pattern that glyphs denote. -/
def Pattern.ofGlyphs (gs : List Glyph) : Pattern := readPattern (gs.length + 1) (resolveEscapes gs)

/-! ## Section 4: Matching -/

/-- The ends of a text, the longest first. -/
def suffixes : Bytes → List Bytes
  | [] => [[]]
  | b :: s => (b :: s) :: suffixes s

/-- Does the whole text match the pattern? -/
def Pattern.isMatch : Pattern → Bytes → Bool
  | [], s => s.isEmpty
  | .exactly b :: p, s =>
    match s with
    | c :: s => b = c && isMatch p s
    | [] => false
  | .anyByte :: p, s =>
    match s with
    | _ :: s => isMatch p s
    | [] => false
  | .oneOf isNegated members :: p, s =>
    match s with
    | c :: s => (members.any (·.holds c) != isNegated) && isMatch p s
    | [] => false
  | .anyText :: p, s => (suffixes s).any fun t => isMatch p t

/-- Is there a closing bracket? `gs` comes after a bracket, the mark of a
    negation and one more glyph. -/
def isClosed (gs : List Glyph) : Bool :=
  (gs.takeWhile (·.byte ≠ slash)).any (·.isBare 0x5D)

/-- May the glyphs, their escapes resolved, match a name other than their
    own? -/
def isSearching : List Glyph → Bool
  | [] => false
  | g :: gs =>
    let inner := match gs with
      | c :: rest => if c.isBare 0x21 then rest else gs
      | [] => gs
    let opens := match inner with
      | c :: rest => g.isBare 0x5B && c.byte ≠ slash && isClosed rest
      | [] => false
    g.isBare 0x2A || g.isBare 0x3F || opens || isSearching gs

/-! ## Section 5: Trimming

    Arguments that were joined by NUL bytes count as one text that ends at
    the first of these, as far as matching goes. -/

/-- The text up to the first NUL byte. -/
def untilNul (s : Bytes) : Bytes := s.takeWhile (· ≠ nul)

/-- The lengths up to `n`, the greatest first. -/
def lengthsDown (n : Nat) : List Nat := (List.range (n + 1)).reverse

/-- The text without the shortest or the longest start that matches. -/
def trimStart (longest : Bool) (p : Pattern) (s : Bytes) : Bytes :=
  let lengths := if longest then lengthsDown s.length else List.range ((untilNul s).length + 1)
  match lengths.find? fun n => p.isMatch (untilNul (s.take n)) with
  | some n => s.drop n
  | none => s

/-- The text without the shortest or the longest end that matches. -/
def trimEnd (longest : Bool) (p : Pattern) (s : Bytes) : Bytes :=
  let lengths := if longest then List.range ((untilNul s).length + 1) else lengthsDown s.length
  match lengths.find? fun n => p.isMatch (untilNul (s.drop n)) with
  | some n => s.take n
  | none => s

end TestRig.Shell
