import TestRig.Shell.Arithmetic
import TestRig.Shell.Child
import TestRig.Shell.Fields
import TestRig.Tree.Edit

/-! # Expanding words

    A word is expanded in three steps. First its parameters, substitutions
    and expressions are replaced, and a tilde by a home directory
    (`piecesOf`), which may change the process; then what was not quoted is
    split into fields (`fieldsOf`); last, a field that is a pattern is
    replaced by the paths that match it (`matchingPaths`).

    Where one text is wanted, a word is neither split nor matched
    (`expandText`). -/

namespace TestRig.Shell

/-! ## Section 1: Paths that match -/

/-- The names in a directory. -/
def entryNames (t : Tree) (dir : Place) : List Name :=
  t.entries.filterMap fun e =>
    if e.1.length = dir.length + 1 ∧ isWithin dir e.1 then e.1.getLast? else none

/-- The names in the directory that `path` leads to that match a pattern. A
    name that starts with a dot is matched only by a pattern that does
    too. -/
def matchingNames (t : Tree) (cwd : Place) (path : Bytes) (gs : List Glyph) : List Name :=
  match t.look cwd (if path = [] then text "." else path) with
  | .ok (dir, .directory) =>
    let pattern := readPattern (gs.length + 1) gs
    let all := dot :: dotDot :: entryNames t dir
    let showsDots := gs.head?.map Glyph.byte = some 0x2E
    all.filter fun name => pattern.isMatch name && (showsDots || name.head? ≠ some 0x2E)
  | _ => []

/-- Split glyphs at the separators of paths. -/
def segments (gs : List Glyph) : List (List Glyph) :=
  gs.foldr
    (fun g parts =>
      if g.byte = slash then [] :: parts
      else match parts with
        | [] => [[g]]
        | part :: parts => (g :: part) :: parts)
    [[]]

/-- The paths that match the segments of a pattern, each after `path`. -/
def pathsFrom (t : Tree) (cwd : Place) : List (List Glyph) → (path : Bytes) → List Bytes
  | [], path => [path]
  | [gs], path =>
    if isSearching gs then (matchingNames t cwd path gs).map (path ++ ·)
    else
      let path := path ++ plainText gs
      let isThere := match Path.endsInSlash path, t.look cwd path, t.placeOf cwd path with
        | true, found, _ => found.toOption.isSome
        | false, _, found => found.toOption.any fun p => (t.nodeAt p).isSome
      if isThere then [path] else []
  | gs :: rest, path =>
    if isSearching gs then
      (matchingNames t cwd path gs).flatMap fun name => pathsFrom t cwd rest (path ++ name ++ [slash])
    else pathsFrom t cwd rest (path ++ plainText gs ++ [slash])

/-- The paths that match a field, in order; the field itself if there are
    none. -/
def matchingPaths (t : Tree) (cwd : Place) (gs : List Glyph) : List Bytes :=
  let parts := segments (resolveEscapes gs)
  let found := if parts.any isSearching then pathsFrom t cwd parts [] else []
  if found = [] then [plainText gs] else found.mergeSort fun a b => !(decide (b < a))

/-! ## Section 2: Parameters -/

/-- What a word is expanded for. -/
structure Wanted where
  /-- Is it to be split into fields? -/
  fields : Bool
  /-- Is it in the braces of a parameter, so that its own text is split
      too? -/
  isInner : Bool
  /-- Is it the value of an assignment, in which a tilde may also stand
      after a colon? -/
  isValue : Bool

namespace Wanted

/-- Fields. -/
def someFields : Wanted := ⟨true, false, false⟩

/-- One text. -/
def oneText : Wanted := ⟨false, false, false⟩

/-- The value of an assignment. -/
def value : Wanted := ⟨false, false, true⟩

end Wanted

namespace Process

/-- The letters of options, in the order in which they are shown. -/
def optionLetters : Bytes := text "pubaCEVvxsnmiIfe"

/-- What is put between arguments that are made one text. -/
def joint (p : Process) (isQuoted fields : Bool) : Bytes :=
  match p.value? (text "IFS") with
  | none => [space]
  | some s => if fields && !isQuoted then [nul] else s.take 1

/-- All arguments in one text, with something between each two. -/
def joinedArguments (p : Process) (joint : Bytes) : Bytes := (p.args.intersperse joint).flatten

/-- The value of a parameter; nothing if it is not set. -/
def parameter? (p : Process) (isQuoted fields : Bool) : Parameter → Option Bytes
  | .arguments => some (p.joinedArguments (if isQuoted && fields then [nul] else p.joint isQuoted fields))
  | .argumentText => some (p.joinedArguments (p.joint isQuoted fields))
  | .argumentCount => some (decimal p.args.length)
  | .processNumber => some (decimal p.script)
  | .lastStatus => some (decimal p.status)
  | .lastBackground => p.lastBackground.map decimal
  | .options => some (optionLetters.filter p.has)
  | .argument 0 => some p.name
  | .argument (n + 1) => p.args[n]?
  | .named name => p.value? name

/-- The name of a parameter in complaints. -/
def parameterName : Parameter → Bytes
  | .arguments => text "@"
  | .argumentText => text "*"
  | .argumentCount => text "#"
  | .processNumber => text "$"
  | .lastStatus => text "?"
  | .lastBackground => text "!"
  | .options => text "-"
  | .argument n => decimal n
  | .named name => name

/-- Does a use of a parameter take the value for missing? -/
def isMissing (value : Option Bytes) (emptyToo : Bool) : Bool :=
  match value with
  | none => true
  | some s => emptyToo && s.isEmpty

/-- The pieces of a text that took the place of a part of a word. -/
def textPieces (s : Bytes) (isQuoted : Bool) : List Piece :=
  if isQuoted then [.kept (glyphs s true)] else [.splitting (glyphs s false)]

/-- The pieces of the value of a parameter. In quotes, all arguments are
    nothing if there are none. -/
def valuePieces (p : Process) (q : Parameter) (s : Bytes) (isQuoted fields : Bool) : List Piece :=
  match q, isQuoted && fields with
  | .arguments, true =>
    if p.args = [] then [] else [.arguments (s.map fun b => ⟨b, b ≠ nul⟩)]
  | _, _ => textPieces s isQuoted

/-- What a command substitution is replaced by: no NUL bytes, and no ends of
    lines at its end. -/
def trimOutput (s : Bytes) : Bytes :=
  ((s.filter (· ≠ nul)).reverse.dropWhile (· = newline)).reverse

/-- Run the command of a substitution and give what it is replaced by. -/
def substitute (run : Runner) (c : Command) (p : Process) : Process × Bytes :=
  match c with
  | .nothing => (p, [])
  | c =>
    let (after, out) := p.capture run (run.perform ⟨false, true⟩ c)
    ({ after with status := p.status, substituted := after.status }, trimOutput out)

/-- The signal for a computation that makes no sense. -/
def computationSignal : Nat := 8

/-- Compute an expression. -/
def compute (p : Process) (expression : Bytes) : Process × Bytes :=
  let isProtected (name : Bytes) := (p.binding? name).any Binding.isReadOnly
  let (result, made) := Arithmetic.evaluate ⟨fun name => (p.value? name).getD [], isProtected⟩ expression
  let p := p.assignAll made
  match result with
  | .ok n => (p, Arithmetic.numeral n)
  | .error .overflow => ({ p with flow := .killed computationSignal }, [])
  | .error fault => (if p.isRunning then p.abort (fault.describe expression) else p, [])

/-- Do what a use of a parameter says; `word` gives the pieces of its word,
    in a process that may have changed by that. `isEmptyWord` says that no
    word was written. -/
def useParameter (p : Process) (q : Parameter) (use : Use) (isEmptyWord isQuoted fields : Bool)
    (word : Wanted → Process → Process × List Piece) : Process × List Piece :=
  let fields := fields && use ≠ .length
  let value := p.parameter? isQuoted fields q
  let own (p : Process) (s : Bytes) := p.valuePieces q s isQuoted fields
  let instead := word ⟨fields, true, false⟩
  -- with the option `u` a missing value is an error where nothing takes its place
  let needed (emptyToo : Bool) (answer : Bytes → Process × List Piece) : Process × List Piece :=
    match value, isMissing value emptyToo with
    | some s, false => answer s
    | _, _ =>
      if p.has 0x75 then (p.abort (parameterName q ++ text ": parameter not set"), [])
      else if use = .length then (p, textPieces (decimal 0) isQuoted)
      else (p, [])
  let trimmed (trim : Pattern → Bytes → Bytes) (s : Bytes) :=
    let (after, pieces) := word .oneText p
    if !after.isRunning then (after, [])
    else (after, p.valuePieces q (trim (.ofGlyphs (unsplit pieces)) s) isQuoted fields)
  match use with
  | .value => needed false fun s => (p, own p s)
  | .cut =>
    let (p, pieces) := needed true fun s => (p, own p s)
    if !p.isRunning then (p, [])
    else
      let (p, more) := word ⟨fields, false, false⟩ p
      (p, pieces ++ more)
  | .length => needed false fun s => (p, textPieces (decimal s.length) isQuoted)
  | .orElse emptyToo => if isMissing value emptyToo then instead p else (p, own p (value.getD []))
  | .ifSet emptyToo => if isMissing value emptyToo then (p, []) else instead p
  | .orAssign emptyToo =>
    if !isMissing value emptyToo then (p, own p (value.getD []))
    else
      let (p, pieces) := word .oneText p
      if !p.isRunning then (p, [])
      else
        let s := plainText (unsplit pieces)
        match q with
        | .named name =>
          let p := p.assign name s
          (p, own p s)
        | q => (p.abort (parameterName q ++ text ": bad variable name"), [])
  | .orRefuse emptyToo =>
    if !isMissing value emptyToo then (p, own p (value.getD []))
    else
      let (p, pieces) := word .oneText p
      if !p.isRunning then (p, [])
      else
        let message :=
          if !isEmptyWord then plainText (unsplit pieces)
          else if emptyToo then text "parameter not set or null"
          else text "parameter not set"
        (p.abort (parameterName q ++ text ": " ++ message), [])
  | .trimStart longest => needed false (trimmed (Shell.trimStart longest))
  | .trimEnd longest => needed false (trimmed (Shell.trimEnd longest))
  | .unusable => (p.abort (text "Bad substitution"), [])

/-! ## Section 3: Home directories -/

/-- The home directory of a user, as the system's list of users has it. -/
def homeOf? (p : Process) (user : Bytes) : Option Bytes :=
  ((lines (p.content [text "etc", text "passwd"])).map (pieces 0x3A)).findSome? fun entry =>
    if entry.head? = some user then entry[5]? else none

/-- The home directory that the text after a tilde stands for. -/
def home? (p : Process) (user : Bytes) : Option Bytes :=
  if user = [] then p.value? (text "HOME") else p.homeOf? user

/-- The pieces of a tilde and a name after it, and the text that comes after
    them; nothing if they stand for themselves. `isWhole` says that the word
    ends with the text. -/
def tilde? (p : Process) (wanted : Wanted) (isWhole : Bool) (s : Bytes) : Option (List Piece × Bytes) :=
  match s with
  | 0x7E :: s =>
    let user := s.takeWhile fun b => b ≠ slash && !(wanted.isValue && b = 0x3A)
    if user.length = s.length ∧ !isWhole then none
    else (p.home? user).map fun home =>
      (if home = [] then [] else [.kept (glyphs home true)], s.drop user.length)
  | _ => none

/-- The pieces of text of the word itself that is not quoted. `isStart` says
    that the word starts with it, and `isEnd` that it ends with it. -/
def plainPieces (p : Process) (wanted : Wanted) (isStart isEnd : Bool) (s : Bytes) : List Piece :=
  let own (s : Bytes) : List Piece :=
    if s = [] then []
    else if wanted.isInner then [.splitting (glyphs s false)] else [.kept (glyphs s false)]
  go own s.length isStart s
where
  /-- Go from one place where a tilde may stand to the next one. -/
  go (own : Bytes → List Piece) : (count : Nat) → (mayBeTilde : Bool) → Bytes → List Piece
    | 0, _, s => own s
    | count + 1, mayBeTilde, s =>
      match if mayBeTilde then p.tilde? wanted isEnd s else none with
      | some (home, rest) => home ++ go own count false rest
      | none =>
        let start := if wanted.isValue then s.takeWhile (· ≠ 0x3A) else s
        match s.drop start.length with
        | [] => own s
        | b :: rest => own (start ++ [b]) ++ go own count true rest

/-! ## Section 4: Words -/

mutual

/-- The pieces of a word. `isStart` says that nothing of the word comes
    before. -/
def piecesOf (run : Runner) (wanted : Wanted) (isStart : Bool) (p : Process) :
    List Fragment → Process × List Piece
  | [] => (p, [])
  | f :: rest =>
    let (p, pieces) := fragmentPieces run wanted isStart rest.isEmpty p f
    let isCut := match f with
      | .parameter _ .cut _ _ => true
      | _ => false
    if !p.isRunning then (p, [])
    else if isCut then (p, pieces)
    else
      let (p, more) := piecesOf run wanted false p rest
      (p, pieces ++ more)

/-- The pieces of a stretch of a word. -/
def fragmentPieces (run : Runner) (wanted : Wanted) (isStart isEnd : Bool) (p : Process) :
    Fragment → Process × List Piece
  | .literal s true => (p, [.kept (glyphs s true)])
  | .literal s false => (p, p.plainPieces wanted isStart isEnd s)
  | .parameter q use word isQuoted =>
    p.useParameter q use word.isEmpty isQuoted wanted.fields fun inner p =>
      piecesOf run { inner with isValue := wanted.isValue } true p word
  | .substitution c isQuoted =>
    let (p, s) := p.substitute run c
    (p, textPieces s isQuoted)
  | .arithmetic expression isQuoted =>
    let (p, pieces) := piecesOf run .oneText false p expression
    if !p.isRunning then (p, [])
    else
      let (p, s) := p.compute (plainText (unsplit pieces))
      (p, textPieces s isQuoted)

end

/-- The fields that a word expands to. -/
def expand (run : Runner) (p : Process) (w : Word) : Process × List Bytes :=
  let (p, pieces) := p.piecesOf run .someFields true w
  let fields := fieldsOf p.separators pieces
  if p.has 0x66 then (p, fields.map plainText)
  else (p, fields.flatMap (matchingPaths p.ground.tree p.cwd))

/-- The fields that words expand to. -/
def expandAll (run : Runner) (p : Process) : List Word → Process × List Bytes
  | [] => (p, [])
  | w :: ws =>
    let (p, fields) := p.expand run w
    if !p.isRunning then (p, [])
    else
      let (p, more) := expandAll run p ws
      (p, fields ++ more)

/-- The one text that a word expands to, with its quoting. -/
def expandGlyphs (run : Runner) (p : Process) (w : Word) : Process × List Glyph :=
  let (p, pieces) := p.piecesOf run .oneText true w
  (p, unsplit pieces)

/-- The one text that a word expands to. -/
def expandText (run : Runner) (p : Process) (w : Word) : Process × Bytes :=
  let (p, gs) := p.expandGlyphs run w
  (p, plainText gs)

/-- The one text that the value of an assignment expands to. -/
def expandValue (run : Runner) (p : Process) (w : Word) : Process × Bytes :=
  let (p, pieces) := p.piecesOf run .value true w
  (p, plainText (unsplit pieces))

/-- The one text that the text of a redirection expands to. -/
def expandDocument (run : Runner) (p : Process) (w : Word) : Process × Bytes :=
  let (p, pieces) := p.piecesOf run .oneText false w
  (p, plainText (unsplit pieces))

end Process

end TestRig.Shell
