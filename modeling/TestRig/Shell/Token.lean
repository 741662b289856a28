import TestRig.Shell.Command

/-! # Tokens of scripts

    A script is a row of tokens: operators, words, and the words that are
    reserved where a command may start. Reading goes along a `Source`, which
    knows the line it is on, the last token, which may be asked for again,
    and the last word; a text that is no script is refused with the line at
    which that shows.

    A word may be an alias. Its text is then put in its place in the source
    and read on; as long as reading has not come to the end of that text the
    alias is no alias.

    The text of a redirection stands on the lines after the one that
    announces it, and is read when the end of that line is reached. The
    redirection itself is made before. So a line is read twice if there are
    such texts: the second reading knows them.

    Words are read elsewhere, because a command substitution in a word is a
    script again. -/

namespace TestRig.Shell

/-! ## Section 1: Tokens -/

/-- The reserved words. -/
def reservedWords : List Bytes :=
  ["!", "case", "do", "done", "elif", "else", "esac", "fi", "for", "if", "in", "then", "until", "while",
   "\x7b", "\x7d"].map text

/-- A token of a script. -/
inductive Token where
  | endOfText
  | endOfLine
  | semicolon
  | ampersand
  | andThen
  | orElse
  | pipe
  | opening
  | closing
  /-- The end of an arm of a `case`. -/
  | armEnd
  | redirect (fd : Nat) (kind : RedirectKind)
  /-- A redirection whose text follows on the next lines; tabs may lead
      these lines. -/
  | document (fd : Nat) (stripsTabs : Bool)
  | word (w : Word)
  | reserved (s : Bytes)

instance : Inhabited Token := ⟨.endOfText⟩

/-- The text in quotation marks. -/
def inMarks (s : Bytes) : Bytes := 0x22 :: s ++ [0x22]

/-- What a complaint calls the token. -/
def Token.describe : Token → Bytes
  | .endOfText => text "end of file"
  | .endOfLine => text "newline"
  | .semicolon => inMarks (text ";")
  | .ampersand => inMarks (text "&")
  | .andThen => inMarks (text "&&")
  | .orElse => inMarks (text "||")
  | .pipe => inMarks (text "|")
  | .opening => inMarks (text "(")
  | .closing => inMarks (text ")")
  | .armEnd => inMarks (text ";;")
  | .redirect .. => text "redirection"
  | .document .. => text "redirection"
  | .word _ => text "word"
  | .reserved s => inMarks s

/-- Is the token the reserved word `s`? -/
def Token.isReserved (s : String) : Token → Bool
  | .reserved t => t = text s
  | _ => false

/-- Does the token end a list of commands inside a compound command? -/
def Token.endsList : Token → Bool
  | .endOfText => true
  | .closing => true
  | .armEnd => true
  | .reserved s => (["do", "done", "elif", "else", "esac", "fi", "then", "\x7d"].map text).contains s
  | _ => false

/-! ## Section 2: Sources -/

/-- The text of an alias that is being read. -/
structure Insertion where
  name : Bytes
  /-- How many bytes come after it. -/
  after : Nat
  endsInBlank : Bool

/-- A text that was announced by a redirection and is still to come. -/
structure Announced where
  number : Nat
  mark : Bytes
  stripsTabs : Bool
  /-- Is the text taken as it is? -/
  isPlain : Bool

/-- What is left of a script. -/
structure Source where
  rest : Bytes
  line : Nat
  /-- Is the last token to be given again? -/
  isHeld : Bool
  last : Token
  /-- The last word that was read, a reserved one too. -/
  lastWord : Word
  aliases : List (Bytes × Bytes)
  insertions : List Insertion
  /-- How many texts were announced. -/
  announcements : Nat
  awaited : List Announced
  /-- The texts that were read, by number. -/
  texts : List (Nat × Word)
  /-- The texts that an earlier reading has found. -/
  known : List (Nat × Word)

/-- A script from its start. -/
def Source.ofText (s : Bytes) (line : Nat) : Source where
  rest := s
  line := line
  isHeld := false
  last := .endOfText
  lastWord := []
  aliases := []
  insertions := []
  announcements := 0
  awaited := []
  texts := []
  known := []

/-- How much of the script itself is left, texts of aliases apart. -/
def Source.left (s : Source) : Nat :=
  s.insertions.foldl (fun n i => min n i.after) s.rest.length

/-- The source with more text at its end. -/
def Source.append (s : Source) (more : Bytes) : Source :=
  { s with
    rest := s.rest ++ more
    insertions := s.insertions.map fun i => { i with after := i.after + more.length } }

/-- Why a text is no script. -/
structure Malformed where
  line : Nat
  message : Bytes
  /-- How much of the script was left. -/
  left : Nat

/-- A step along a source. -/
abbrev Reading (α : Type) : Type := StateT Source (Except Malformed) α

/-- Refuse the text. -/
def refuse {α : Type} (message : Bytes) : Reading α := do
  let s ← get
  throw ⟨s.line, message, s.left⟩

/-- Refuse the text because of a token; another one may be expected. -/
def unexpected {α : Type} (t : Token) (expected : Option Token) : Reading α :=
  match expected with
  | none => refuse (t.describe ++ text " unexpected")
  | some e => refuse (t.describe ++ text " unexpected (expecting " ++ e.describe ++ text ")")

/-- Go beyond `n` bytes. -/
def skip (n : Nat) : Reading Unit :=
  modify fun s => { s with rest := s.rest.drop n, line := s.line + (s.rest.take n).count newline }

/-- How many bytes take away the end of a line before the next byte. -/
def continuations : Bytes → Nat
  | 0x5C :: 0x0A :: s => continuations s + 2
  | _ => 0

/-- The next byte, if there is one; ends of lines that are taken away are
    left out before. -/
def peek : Reading (Option UInt8) := do
  let n := continuations (← get).rest
  if n ≠ 0 then skip n
  return (← get).rest.head?

/-- Go beyond the next byte if it is the given one. -/
def takes (b : UInt8) : Reading Bool := do
  if (← peek) = some b then
    skip 1
    return true
  else return false

/-- Go beyond the bytes of a class and give them. -/
def takeRun (isWanted : UInt8 → Bool) : Reading Bytes := do
  let run := (← get).rest.takeWhile isWanted
  skip run.length
  return run

/-- The same where lines may be continued in between. -/
def takeJoined (isWanted : UInt8 → Bool) : (allowance : Nat) → Reading Bytes
  | 0 => return []
  | n + 1 => do
    let _ ← peek
    let run ← takeRun isWanted
    if continuations (← get).rest = 0 then return run
    else return run ++ (← takeJoined isWanted n)

/-- Have the last token given again. -/
def hold : Reading Unit := modify fun s => { s with isHeld := true }

/-- Remember a token as the last one. -/
def remember (t : Token) : Reading Token := do
  modify fun s => { s with last := t, lastWord := match t with | .word w => w | _ => s.lastWord }
  return t

/-! ## Section 3: Aliases -/

/-- Leave out the aliases to the end of whose texts reading has come; the
    answer says whether one of them ended in a blank, after which the next
    word may be an alias too. -/
def leaveAliases : Reading Bool := do
  let s ← get
  if s.insertions.isEmpty then return false
  let left := s.rest.length
  set { s with insertions := s.insertions.filter (·.after ≤ left) }
  return s.insertions.any fun i => i.endsInBlank && left < i.after

/-- The text of the alias that a word is, unless it is being read. -/
def aliasText? (w : Word) : Reading (Option (Bytes × Bytes)) := do
  let s ← get
  match bareText? w with
  | none => return none
  | some name =>
    if s.insertions.any (·.name = name) then return none
    else return (s.aliases.lookup name).map (name, ·)

/-- Put the text of an alias in its place. -/
def insertAlias (name value : Bytes) : Reading Unit :=
  modify fun s =>
    if value = [] then s
    else
      let endsInBlank := value.getLast? = some 0x20 || value.getLast? = some 0x09
      { s with
        rest := value ++ s.rest
        insertions := ⟨name, s.rest.length, endsInBlank⟩ :: s.insertions }

/-! ## Section 4: Bytes that separate -/

/-- Bytes that end a word. -/
def isMeta (b : UInt8) : Bool := isBlank b || (text "\n;&|<>()").contains b

/-- How many bytes come before the next token: blanks, continued lines and a
    comment. -/
def gap : Bytes → Nat
  | [] => 0
  | b :: s =>
    if isBlank b then gap s + 1
    else if b = 0x23 then (s.takeWhile (· ≠ newline)).length + 1
    else if b = 0x5C then
      match s with
      | 0x0A :: s => gap s + 2
      | _ => 0
    else 0

/-- Read an operator; nothing if a word or a redirection comes next. -/
def operator? : Reading (Option Token) := do
  match (← get).rest.head? with
  | none => return some .endOfText
  | some b =>
    let double (b : UInt8) (single double : Token) : Reading (Option Token) := do
      skip 1
      return some (if ← takes b then double else single)
    if b = newline then
      skip 1
      return some .endOfLine
    else if b = 0x26 then double b .ampersand .andThen
    else if b = 0x7C then double b .pipe .orElse
    else if b = 0x3B then double b .semicolon .armEnd
    else if b = 0x28 then
      skip 1
      return some .opening
    else if b = 0x29 then
      skip 1
      return some .closing
    else return none

/-- Read the operator of a redirection, for the descriptor `fd` if one was
    given. -/
def redirection (fd : Option Nat) : Reading Token := do
  if ← takes 0x3E then
    let output (kind : RedirectKind) : Token := .redirect (fd.getD 1) kind
    if ← takes 0x3E then return output .append
    else if ← takes 0x7C then return output .replace
    else if ← takes 0x26 then return output .duplicate
    else return output .write
  else
    skip 1
    let source (kind : RedirectKind) : Token := .redirect (fd.getD 0) kind
    if ← takes 0x3C then return .document (fd.getD 0) (← takes 0x2D)
    else if ← takes 0x26 then return source .duplicate
    else if ← takes 0x3E then return source .readWrite
    else return source .read

/-- The descriptor of the redirection whose operator comes after a word, or
    nothing if it is a word of its own. -/
def redirected? (w : Word) : Reading (Option (Option Nat)) := do
  let b := (← get).rest.head?
  if b ≠ some 0x3C ∧ b ≠ some 0x3E then return none
  match w with
  | [] => return some none
  | [.literal [d] false] => return if isDigit d then some (some (d.toNat - 0x30)) else none
  | _ => return none

/-! ## Section 5: Texts on the lines after a redirection -/

/-- How many bytes the line takes that ends a text, if it comes next. -/
def markLength? (mark : Bytes) (stripsTabs : Bool) (s : Bytes) : Option Nat :=
  let tabs := if stripsTabs then (s.takeWhile (· = 0x09)).length else 0
  let line := s.drop tabs
  if line.take mark.length = mark then
    match line.drop mark.length with
    | [] => some (tabs + mark.length)
    | b :: _ => if b = newline then some (tabs + mark.length + 1) else none
  else none

/-- Take the lines up to the one that is the mark, which is left out. -/
def takePlain (mark : Bytes) (stripsTabs : Bool) : (allowance : Nat) → Reading Bytes
  | 0 => return []
  | n + 1 => do
    let s := (← get).rest
    match markLength? mark stripsTabs s with
    | some length =>
      skip length
      return []
    | none =>
      if s = [] then return []
      else
        if stripsTabs then let _ ← takeRun (· = 0x09)
        let line ← takeRun (· ≠ newline)
        let lineEnd := (← get).rest.take 1
        skip 1
        return line ++ lineEnd ++ (← takePlain mark stripsTabs n)

end TestRig.Shell
