import TestRig.Shell.Token

/-! # Reading scripts

    The grammar of the command language, one function for each of its parts.
    Reading recurses on an allowance computed from the length of the text
    and of the aliases in it.

    A script is read and run line by line (`readLine`): a text that turns
    out to be no script further down does not keep the lines before it from
    being run. -/

namespace TestRig.Shell

/-! ## Section 1: Where a word is read -/

/-- What a word is read in: it says which bytes end it and whether text in
    it is quoted. -/
inductive Surroundings where
  | bare
  /-- The word is the mark that ends the text of a redirection: nothing in
      it is replaced. -/
  | mark
  /-- Between double quotes, perhaps in the braces of a parameter. -/
  | quoted (inBraces : Bool)
  /-- In the braces of a parameter, perhaps between further double quotes. -/
  | braces (isQuoted inner : Bool)
  /-- In an arithmetic expression. -/
  | arithmetic
  /-- In the text of a redirection. -/
  | document
  deriving DecidableEq

/-- Is text quoted there without further quotes? -/
def Surroundings.quotes : Surroundings → Bool
  | .bare => false
  | .mark => false
  | .quoted _ => true
  | .braces q _ => q
  | .arithmetic => true
  | .document => true

/-- Does the byte have no special meaning there? -/
def Surroundings.isOrdinary (u : Surroundings) (b : UInt8) : Bool :=
  match u with
  | .bare => !isMeta b && !(text "\\\"'$`").contains b
  | .mark => !isMeta b && !(text "\\\"'$`").contains b
  | .quoted _ => !(text "\\\"$`").contains b
  | .braces false _ => !(text "\\\"'$`\x7d").contains b
  | .braces true _ => !(text "\\\"$`\x7d").contains b
  | .arithmetic => !(text "\\$`()").contains b
  | .document => !(text "\\$`").contains b

/-- May a backslash take the meaning of the byte away there? -/
def Surroundings.escapes (u : Surroundings) (b : UInt8) : Bool :=
  match u with
  | .bare => true
  | .mark => true
  | .quoted inBraces => (text "\\\"$`").contains b || (inBraces && b = 0x7D)
  | .braces false _ => true
  | .braces true _ => (text "\\\"$`\x7d").contains b
  | .arithmetic => (text "\\\"$`").contains b
  | .document => (text "\\$`").contains b

/-- The complaint if the text ends there; `inDocument` says that the text of
    a redirection does. -/
def Surroundings.endComplaint? (u : Surroundings) (inDocument : Bool) : Option Bytes :=
  match u with
  | .bare => none
  | .mark => none
  | .document => none
  | .arithmetic => some (text "Missing '))'")
  | .quoted inBraces =>
    if inDocument && inBraces then some (text "Missing '\x7d'") else some (text "Unterminated quoted string")
  | .braces isQuoted _ =>
    if isQuoted && !inDocument then some (text "Unterminated quoted string")
    else some (text "Missing '\x7d'")

/-! ## Section 2: Parameters -/

/-- The text of a substitution in backquotes up to its end: the script, and
    how many bytes that took, or nothing if it has no end. A backslash
    before a backslash, a dollar sign or a backquote is left out, and where
    text is quoted one before a double quote. -/
def untilBackquote (isQuoted : Bool) : Bytes → Option (Bytes × Nat)
  | [] => none
  | 0x60 :: _ => some ([], 1)
  | 0x5C :: b :: s =>
    let isLeftOut := (text "\\$`").contains b || (isQuoted && b = 0x22)
    let kept := if b = newline then [] else if isLeftOut then [b] else [0x5C, b]
    (untilBackquote isQuoted s).map fun (t, n) => (kept ++ t, n + 2)
  | b :: s => (untilBackquote isQuoted s).map fun (t, n) => (b :: t, n + 1)

/-- The special parameter of a byte. -/
def specialParameter? (b : UInt8) : Option Parameter :=
  if isDigit b then some (.argument (b.toNat - 0x30))
  else ([(0x40, .arguments), (0x2A, .argumentText), (0x23, .argumentCount), (0x24, .processNumber),
    (0x3F, .lastStatus), (0x21, .lastBackground), (0x2D, .options)] :
    List (UInt8 × Parameter)).lookup b

/-- The text of a word without its quotes, as a mark that ends the text of a
    redirection. -/
def Word.mark (w : Word) : Bytes :=
  w.flatMap fun
    | .literal s _ => s
    | _ => []

/-- Is a part of the word quoted? -/
def Word.isQuoted (w : Word) : Bool :=
  w.any fun
    | .literal _ q => q
    | _ => false

/-- Add a word that stood between double quotes. It counts as quoted text
    even if it is empty, except that all arguments in quotes are nothing if
    there are none. -/
def addQuoted (w : Word) (done : List Fragment) : List Fragment :=
  match w with
  | [.parameter .arguments .value [] true] => addFragment (.parameter .arguments .value [] true) done
  | w => w.foldl (fun done f => addFragment f done) (addFragment (.literal [] true) done)

/-- Read a name or the digits of an argument in braces, if one comes next. -/
def readName? : Reading (Option Parameter) := do
  match ← peek with
  | none => return none
  | some b =>
    let allowance := (← get).rest.length + 1
    if isNameStart b then return some (.named (← takeJoined isNameByte allowance))
    else if isDigit b then
      return some (.argument ((numeral? (← takeJoined isDigit allowance)).getD 0))
    else return none

/-- Read what is done with a parameter in braces: the use, and whether the
    braces end with it. -/
def readUse : Reading (Use × Bool) := do
  let emptyToo ← takes 0x3A
  match ← peek with
  | none => return (.unusable, false)
  | some b =>
    skip 1
    if b = 0x7D then return if emptyToo then (.cut, false) else (.value, true)
    else if b = 0x2D then return (.orElse emptyToo, false)
    else if b = 0x3D then return (.orAssign emptyToo, false)
    else if b = 0x3F then return (.orRefuse emptyToo, false)
    else if b = 0x2B then return (.ifSet emptyToo, false)
    else if emptyToo then return (.unusable, false)
    else if b = 0x23 then return (.trimStart (← takes 0x23), false)
    else if b = 0x25 then return (.trimEnd (← takes 0x25), false)
    else return (.unusable, false)

/-- Read what the braces of a parameter hold, up to the word after it: the
    parameter, what is done with it, and whether the braces end there. -/
def readBracesStart : Reading (Parameter × Use × Bool) := do
  let useOf (p : Parameter) : Reading (Parameter × Use × Bool) := do
    let (use, isEnd) ← readUse
    return (p, use, isEnd)
  let unusable : Parameter × Use × Bool := (.lastStatus, .unusable, false)
  match ← readName? with
  | some p => useOf p
  | none =>
    match ← peek with
    | none => return unusable
    | some b =>
      match specialParameter? b with
      | none =>
        if b ≠ 0x7D then skip 1
        return unusable
      | some p =>
        skip 1
        if b ≠ 0x23 then return ← useOf p
        -- a length, unless the sign is the parameter itself
        match ← readName? with
        | some q => return if ← takes 0x7D then (q, .length, true) else unusable
        | none =>
          let s := (← get).rest
          match s with
          | c :: 0x7D :: _ =>
            if c = 0x7D then useOf p
            else match specialParameter? c with
              | some q => skip 2; return (q, .length, true)
              | none => skip 1; return unusable
          | _ => useOf p

/-- Commands whose names cannot be given to other commands. -/
def specialCommands : List Bytes :=
  [".", ":", "break", "continue", "eval", "exec", "exit", "export", "local", "readonly", "return", "set",
   "shift", "times", "trap", "unset"].map text

/-! ## Section 3: Parts of words -/

/-- Go beyond the mark that ends the text of a redirection, if it comes
    next. -/
def atMark (d : Option Announced) : Reading Bool := do
  let s := (← get).rest
  match d.bind fun a => markLength? a.mark a.stripsTabs s with
  | some length =>
    skip length
    return true
  | none =>
    if (d.map Announced.stripsTabs).getD false then let _ ← takeRun (· = 0x09)
    return false

/-- Read text between single quotes, after the first one. -/
def readSingleQuoted (inDocument : Bool) : Reading Fragment := do
  let s ← takeRun (· ≠ 0x27)
  if (← get).rest = [] then
    refuse (text (if inDocument then "Missing '\x7d'" else "Unterminated quoted string"))
  skip 1
  return .literal s true

/-! ## Section 4: The grammar -/

mutual

/-- Read a word up to its end. `d` is the text of a redirection that the
    word is in, `done` holds the fragments so far, last first, and `depth`
    counts the parentheses that are open in an arithmetic expression. -/
def readFragments : (allowance : Nat) → Surroundings → (d : Option Announced) → (depth : Nat) →
    (done : List Fragment) → Reading Word
  | 0, _, _, _, _ => refuse (text "too long")
  | n + 1, u, d, depth, done => do
    let run ← takeRun fun b => u.isOrdinary b && (d.isNone || b ≠ newline)
    let done := if run = [] then done else addFragment (.literal run u.quotes) done
    let add (s : Bytes) (isQuoted : Bool) : Reading Word :=
      readFragments n u d depth (addFragment (.literal s isQuoted) done)
    match (← get).rest with
    | [] =>
      match u.endComplaint? d.isSome with
      | some complaint => refuse complaint
      | none => return done.reverse
    | b :: s =>
      if b = newline && d.isSome then
        skip 1
        let done := addFragment (.literal [b] u.quotes) done
        if ← atMark d then
          match u.endComplaint? true with
          | some complaint => refuse complaint
          | none => return done.reverse
        else readFragments n u d depth done
      else if b = 0x5C then
        skip 1
        match s with
        | [] => add [b] true
        | c :: _ =>
          skip 1
          if c = newline then readFragments n u d depth done
          else if u.escapes c then add [c] true
          else add [b, c] u.quotes
      else if b = 0x24 then
        if u = .mark then
          skip 1
          add [b] false
        else
          let f ← readDollar n u.quotes d
          readFragments n u d depth (addFragment f done)
      else if b = 0x60 then
        skip 1
        if u = .mark then add [b] true
        else
          let c ← readBackquoted n u.quotes
          readFragments n u d depth (.substitution c u.quotes :: done)
      else
        match u with
        | .document => return done.reverse
        | .quoted _ =>
          skip 1
          return done.reverse
        | .arithmetic =>
          skip 1
          if b = 0x28 then readFragments n u d (depth + 1) (addFragment (.literal [b] true) done)
          else if depth ≠ 0 then readFragments n u d (depth - 1) (addFragment (.literal [b] true) done)
          else if ← takes 0x29 then return done.reverse
          else add [b] true
        | .braces true inner =>
          skip 1
          if b = 0x22 then readFragments n (.braces true (!inner)) d depth done
          else if inner then add [b] true
          else return done.reverse
        | .braces false _ =>
          skip 1
          if b = 0x7D then return done.reverse
          else if b = 0x22 then
            let w ← readFragments n (.quoted true) d 0 []
            readFragments n u d depth (addQuoted w done)
          else
            let f ← readSingleQuoted d.isSome
            readFragments n u d depth (addFragment f done)
        | u =>
          if b = 0x22 then
            skip 1
            let w ← readFragments n (if u = .mark then .mark else .quoted false) d 0 []
            readFragments n u d depth (addQuoted w done)
          else if b = 0x27 then
            skip 1
            let f ← readSingleQuoted false
            readFragments n u d depth (addFragment f done)
          else return done.reverse

/-- Read the script of a substitution in backquotes, after the first one.
    Its lines are counted from one. -/
def readBackquoted : (allowance : Nat) → (isQuoted : Bool) → Reading Command
  | 0, _ => refuse (text "too long")
  | n + 1, isQuoted => do
    match untilBackquote isQuoted (← get).rest with
    | none =>
      skip (← get).rest.length
      refuse (text "EOF in backquote substitution")
    | some (script, length) =>
      skip length
      let here ← get
      -- an alias whose text is being read out there is still none in here
      let insertions := here.insertions.map fun i => Insertion.mk i.name 0 false
      set { here with rest := script, line := 1, awaited := [], insertions }
      let c ← tryCatch (readWhole n) fun m => throw { m with left := here.left }
      let there ← get
      set { here with isHeld := false, announcements := there.announcements, texts := there.texts }
      return c

/-- Read commands up to the end of the text. -/
def readWhole : (allowance : Nat) → Reading Command
  | 0 => refuse (text "too long")
  | n + 1 => do
    let c ← readBody n true .nothing
    let t ← nextToken n false false false
    match t with
    | .endOfText => return c
    | t => unexpected t none

/-- Read what starts with a dollar sign. -/
def readDollar : (allowance : Nat) → (isQuoted : Bool) → (d : Option Announced) → Reading Fragment
  | 0, _, _ => refuse (text "too long")
  | n + 1, isQuoted, d => do
    skip 1
    match ← peek with
    | none => return .literal [0x24] isQuoted
    | some b =>
      if b = 0x28 then
        skip 1
        if ← takes 0x28 then
          return .arithmetic (← readFragments n .arithmetic d 0 []) isQuoted
        else
          let awaited := (← get).awaited
          modify fun s => { s with awaited := [] }
          let c ← readBody n true .nothing
          let t ← nextToken n false false false
          match t with
          | .closing =>
            modify fun s => { s with awaited }
            return .substitution c isQuoted
          | t => unexpected t (some .closing)
      else if b = 0x7B then
        skip 1
        let (p, use, isEnd) ← readBracesStart
        if isEnd then return .parameter p use [] isQuoted
        -- a pattern is read as if there were no quotes around it
        let isPattern := match use with
          | .trimStart _ => true
          | .trimEnd _ => true
          | _ => false
        let word ← readFragments n (.braces (isQuoted && !isPattern) false) d 0 []
        return .parameter p use word isQuoted
      else if isNameStart b then
        let name ← takeJoined isNameByte ((← get).rest.length + 1)
        return .parameter (.named name) .value [] isQuoted
      else match specialParameter? b with
        | some p =>
          skip 1
          return .parameter p .value [] isQuoted
        | none => return .literal [0x24] isQuoted

/-- Read the next token as it stands; `isMark` says that a word would be the
    mark of a text. -/
def readToken : (allowance : Nat) → (isMark : Bool) → Reading Token
  | 0, _ => refuse (text "too long")
  | n + 1, isMark => do
    let s ← get
    if s.isHeld then
      set { s with isHeld := false }
      return s.last
    skip (gap s.rest)
    match ← operator? with
    | some t => remember t
    | none =>
      let w ← readFragments n (if isMark then .mark else .bare) none 0 []
      match ← redirected? w with
      | some fd => remember (← redirection fd)
      | none => remember (.word w)

/-- Read the next token. `skipsEnds` says that ends of lines are left out,
    `reserves` that a command may start here, so that some words are
    reserved, and `expands` that a word may be an alias. -/
def nextToken : (allowance : Nat) → (skipsEnds reserves expands : Bool) → Reading Token
  | 0, _, _, _ => refuse (text "too long")
  | n + 1, skipsEnds, reserves, expands => do
    let t ← readToken n false
    let expands := (← leaveAliases) || expands
    match t with
    | .endOfLine =>
      if skipsEnds then
        readTexts n
        nextToken n skipsEnds reserves expands
      else return t
    | .word w =>
      let name := (bareText? w).getD []
      if reserves && reservedWords.contains name then
        modify fun s => { s with last := .reserved name }
        return .reserved name
      else
        match ← if expands then aliasText? w else pure none with
        | some (name, value) =>
          insertAlias name value
          nextToken n skipsEnds reserves expands
        | none => return t
    | t => return t

/-- Read the texts that redirections have announced, at the end of a line. -/
def readTexts : (allowance : Nat) → Reading Unit
  | 0 => refuse (text "too long")
  | n + 1 => do
    let s ← get
    match s.awaited with
    | [] => return
    | a :: awaited =>
      set { s with awaited }
      let body ←
        if a.isPlain then pure [.literal (← takePlain a.mark a.stripsTabs (s.rest.length + 1)) true]
        else
          let _ ← peek
          if ← atMark (some a) then pure [] else readFragments n .document (some a) 0 []
      modify fun s => { s with texts := (a.number, body) :: s.texts, lastWord := body }
      readTexts n

/-- Read what a redirection is to or from. -/
def readTarget : (allowance : Nat) → Token → Reading Redirect
  | 0, _ => refuse (text "too long")
  | n + 1, t => do
    match t with
    | .redirect fd kind =>
      let target ← nextToken n false false false
      match target with
      | .word w => return ⟨fd, kind, w⟩
      | target => unexpected target none
    | .document fd stripsTabs =>
      let target ← readToken n true
      match target with
      | .word w =>
        let s ← get
        let number := s.announcements
        set { s with
          announcements := number + 1
          awaited := s.awaited ++ [Announced.mk number w.mark stripsTabs w.isQuoted] }
        return ⟨fd, .document, (s.known.lookup number).getD []⟩
      | target => unexpected target none
    | t => unexpected t none

/-- Read the redirections after a compound command. `isFirst` says that none
    was read before. -/
def readRedirects : (allowance : Nat) → (isFirst : Bool) → Reading (List Redirect)
  | 0, _ => refuse (text "too long")
  | n + 1, isFirst => do
    let t ← nextToken n false isFirst isFirst
    match t with
    | .redirect .. => do
      let r ← readTarget n t
      return r :: (← readRedirects n false)
    | .document .. => do
      let r ← readTarget n t
      return r :: (← readRedirects n false)
    | _ =>
      hold
      return []

/-- Read the commands inside a compound command, up to what ends them.
    `mayEnd` says that they may end here, and `done` holds those that were
    read. -/
def readBody : (allowance : Nat) → (mayEnd : Bool) → (done : Command) → Reading Command
  | 0, _, _ => refuse (text "too long")
  | n + 1, mayEnd, done => do
    let t ← nextToken n true true true
    hold
    match t with
    | .endOfText => readEndOfText n done
    | t =>
      if mayEnd && t.endsList then return done
      let c ← readJoined n
      let line := (← get).line
      let t ← nextToken n false false false
      match t with
      | .ampersand => readBody n true (done.andThen (.background line c))
      | .semicolon => readBody n true (done.andThen c)
      | .endOfLine =>
        hold
        readBody n true (done.andThen c)
      | .endOfText =>
        hold
        readEndOfText n (done.andThen c)
      | _ =>
        hold
        return done.andThen c

/-- Come to the end of the text after the commands that were read. -/
def readEndOfText : (allowance : Nat) → (done : Command) → Reading Command
  | 0, _ => refuse (text "too long")
  | n + 1, done => do
    readTexts n
    modify fun s => { s with isHeld := true, last := .endOfText }
    return done

/-- Read commands joined by `&&` and `||`. -/
def readJoined : (allowance : Nat) → Reading Command
  | 0 => refuse (text "too long")
  | n + 1 => do
    let c ← readPipeline n false
    readJoints n c

/-- Read what is joined to a command that was read before. -/
def readJoints : (allowance : Nat) → Command → Reading Command
  | 0, _ => refuse (text "too long")
  | n + 1, a => do
    let t ← nextToken n false false false
    match t with
    | .andThen => readJoints n (.both a (← readPipeline n true))
    | .orElse => readJoints n (.either a (← readPipeline n true))
    | _ =>
      hold
      return a

/-- Read commands whose outputs and inputs are joined by `|`. `isAfter` says
    that an operator stands before them. -/
def readPipeline : (allowance : Nat) → (isAfter : Bool) → Reading Command
  | 0, _ => refuse (text "too long")
  | n + 1, isAfter => do
    let t ← nextToken n isAfter isAfter isAfter
    let isNegated := t.isReserved "!"
    if !isNegated then hold
    let a ← readCommand n false isNegated
    let more ← readPiped n
    let c := if more.isEmpty then a else .piped (a :: more)
    return if isNegated then .negated c else c

/-- Read the commands that the output of a command goes through. -/
def readPiped : (allowance : Nat) → Reading (List Command)
  | 0 => refuse (text "too long")
  | n + 1 => do
    let t ← nextToken n false false false
    match t with
    | .pipe => do
      let a ← readCommand n true true
      return a :: (← readPiped n)
    | _ =>
      hold
      return []

/-- Read one command. `skipsEnds` says that ends of lines may stand before
    it, and `starts` that words are reserved and may be aliases. -/
def readCommand : (allowance : Nat) → (skipsEnds starts : Bool) → Reading Command
  | 0, _, _ => refuse (text "too long")
  | n + 1, skipsEnds, starts => do
    let line := (← get).line
    let t ← nextToken n skipsEnds starts starts
    let simple : Reading Command := do
      hold
      readSimple n (← get).line [] [] []
    match t with
    | .word _ => simple
    | .redirect .. => simple
    | .document .. => simple
    | .opening =>
      let body ← readBody n false .nothing
      readEnd n .closing
      return .enclosed line body (← readRedirects n true)
    | t =>
      let c ←
        if t.isReserved "if" then readBranches n
        else if t.isReserved "while" || t.isReserved "until" then
          let test ← readBody n false .nothing
          readEnd n (.reserved (text "do"))
          let body ← readBody n false .nothing
          readEnd n (.reserved (text "done"))
          pure (.repeated (t.isReserved "until") test body)
        else if t.isReserved "for" then readFor n line
        else if t.isReserved "case" then readCase n line
        else if t.isReserved "\x7b" then
          let body ← readBody n false .nothing
          readEnd n (.reserved (text "\x7d"))
          pure body
        else unexpected t none
      let rs ← readRedirects n true
      return if rs.isEmpty then c else .redirected line c rs

/-- Read the token that must come next. -/
def readEnd : (allowance : Nat) → (expected : Token) → Reading Unit
  | 0, _ => refuse (text "too long")
  | n + 1, expected => do
    let t ← nextToken n false false false
    if t.describe = expected.describe then return else unexpected t (some expected)

/-- Read an `if` after its first word. -/
def readBranches : (allowance : Nat) → Reading Command
  | 0 => refuse (text "too long")
  | n + 1 => do
    let test ← readBody n false .nothing
    readEnd n (.reserved (text "then"))
    let yes ← readBody n false .nothing
    let t ← nextToken n false false false
    if t.isReserved "elif" then return .conditional test yes (← readBranches n)
    else if t.isReserved "else" then
      let no ← readBody n false .nothing
      readEnd n (.reserved (text "fi"))
      return .conditional test yes no
    else if t.isReserved "fi" then return .conditional test yes .nothing
    else unexpected t (some (.reserved (text "fi")))

/-- Read a `for` after its first word. -/
def readFor : (allowance : Nat) → (line : Nat) → Reading Command
  | 0, _ => refuse (text "too long")
  | n + 1, line => do
    let t ← nextToken n false false false
    match t with
    | .word w =>
      let name := (bareText? w).getD []
      if !isName name then refuse (text "Bad for loop variable")
      let t ← nextToken n true true true
      let words ←
        if t.isReserved "in" then readItems n []
        else do
          match t with
          | .semicolon => pure ()
          | _ => hold
          pure [[.parameter .arguments .value [] true]]
      let t ← nextToken n true true true
      if !t.isReserved "do" then unexpected t (some (.reserved (text "do")))
      let body ← readBody n false .nothing
      readEnd n (.reserved (text "done"))
      return .forEach line name words body
    | _ => refuse (text "Bad for loop variable")

/-- Read the words that a `for` runs through. -/
def readItems : (allowance : Nat) → (done : List Word) → Reading (List Word)
  | 0, _ => refuse (text "too long")
  | n + 1, done => do
    let t ← nextToken n false false false
    match t with
    | .word w => readItems n (w :: done)
    | .semicolon => return done.reverse
    | .endOfLine => return done.reverse
    | t => unexpected t none

/-- Read a `case` after its first word. -/
def readCase : (allowance : Nat) → (line : Nat) → Reading Command
  | 0, _ => refuse (text "too long")
  | n + 1, line => do
    let t ← nextToken n false false false
    match t with
    | .word subject =>
      let t ← nextToken n true true true
      if !t.isReserved "in" then unexpected t (some (.reserved (text "in")))
      return .choice line subject (← readArms n)
    | t => unexpected t (some (.word []))

/-- Read the arms of a `case`. -/
def readArms : (allowance : Nat) → Reading (List (List Word × Command))
  | 0 => refuse (text "too long")
  | n + 1 => do
    let t ← nextToken n true true false
    if t.isReserved "esac" then return []
    match t with
    | .opening => let _ ← nextToken n false false false
    | _ => pure ()
    let patterns ← readPatterns n
    let body ← readBody n true .nothing
    let t ← nextToken n true true false
    match t with
    | .armEnd => return (patterns, body) :: (← readArms n)
    | t => if t.isReserved "esac" then return [(patterns, body)] else unexpected t (some .armEnd)

/-- Read the patterns of an arm after the first token. A token that is no
    word is let through: it stands for the last word before it. -/
def readPatterns : (allowance : Nat) → Reading (List Word)
  | 0 => refuse (text "too long")
  | n + 1 => do
    let w := (← get).lastWord
    let t ← nextToken n false false false
    match t with
    | .pipe => do
      let _ ← nextToken n false false false
      return w :: (← readPatterns n)
    | .closing => return [w]
    | t => unexpected t (some .closing)

/-- Read the words and redirections of a simple command, or the body of a
    command that is given a name. What was read before is held last
    first. -/
def readSimple : (allowance : Nat) → (line : Nat) → List (Bytes × Word) → List Word → List Redirect →
    Reading Command
  | 0, _, _, _, _ => refuse (text "too long")
  | n + 1, line, assignments, words, redirects => do
    let t ← nextToken n false false words.isEmpty
    let complete : Reading Command := do
      hold
      return .simple line assignments.reverse words.reverse redirects.reverse
    match t with
    | .redirect .. => do
      let r ← readTarget n t
      readSimple n line assignments words (r :: redirects)
    | .document .. => do
      let r ← readTarget n t
      readSimple n line assignments words (r :: redirects)
    | .opening =>
      match words, assignments, redirects with
      | [w], [], [] =>
        let t ← nextToken n false false false
        match t with
        | .closing => pure ()
        | t => unexpected t (some .closing)
        let name := (bareText? w).getD []
        if !isName name || specialCommands.contains name then refuse (text "Bad function name")
        let line := (← get).line
        return .define line name (← readCommand n true true)
      | _, _, _ => complete
    | .word w =>
      match if words.isEmpty then w.assignment? else none with
      | some a => readSimple n line (a :: assignments) words redirects
      | none => readSimple n line assignments (w :: words) redirects
    | _ => complete

end

/-! ## Section 5: Lines -/

/-- What there is on a line of a script. -/
inductive Line where
  /-- The script has ended. -/
  | finished
  /-- Commands; `isLast` says that the script ends with the line. -/
  | commands (c : Command) (isLast : Bool)

/-- Read commands up to the end of a line. `done` holds those that were
    read. -/
def readLineFrom : (allowance : Nat) → (isFirst : Bool) → (done : Command) → Reading Line
  | 0, _, _ => refuse (text "too long")
  | n + 1, isFirst, done => do
    let atEnd (done : Command) : Reading Line := do
      readTexts n
      return .commands done true
    let t ← nextToken n false true true
    match t with
    | .endOfLine =>
      readTexts n
      return .commands done false
    | .endOfText => if isFirst then return .finished else atEnd done
    | _ =>
      hold
      let c ← readJoined n
      let line := (← get).line
      let t ← nextToken n false false false
      match t with
      | .ampersand => readLineFrom n false (done.andThen (.background line c))
      | .semicolon => readLineFrom n false (done.andThen c)
      | .endOfLine =>
        hold
        readLineFrom n false (done.andThen c)
      | .endOfText => atEnd (done.andThen c)
      | t => unexpected t none

/-- How far reading may recurse in a text with aliases: each may be put in
    once into another one. -/
def readingAllowance (s : Source) : Nat :=
  let inserted := total (s.aliases.map (·.2.length)) + 1
  16 * (s.rest.length + 4) * inserted.pow (min s.aliases.length 4) + 64

/-- Read the next line of a script. -/
def readLine (s : Source) : Except Malformed (Line × Source) := do
  let allowance := readingAllowance s
  let s := { s with announcements := 0, awaited := [], texts := [], known := [], isHeld := false }
  let (line, after) ← (readLineFrom allowance true .nothing).run s
  if after.texts.isEmpty then return (line, after)
  else (readLineFrom allowance true .nothing).run { s with known := after.texts }

/-- Does the next line depend on what comes after the text? -/
def Source.isOpen (s : Source) : Bool :=
  match readLine s with
  | .error m => m.left = 0
  | .ok (.commands _ false, after) =>
    after.left = 0 && (!after.texts.isEmpty || s.rest.getLast? ≠ some newline)
  | .ok _ => true

/-- Read a text as the text of a redirection is read. If another text was
    read to its end before (`isAtEnd`), this end is what the first
    substitution in the text finds; the answer says whether it is still to
    be found. -/
def readText (isAtEnd : Bool) (s : Bytes) (aliases : List (Bytes × Bytes)) :
    Except Malformed (Word × Bool) :=
  let source := { Source.ofText s 1 with aliases, isHeld := isAtEnd }
  -- no line is the mark of its end
  let document : Announced := ⟨0, [nul], false, false⟩
  ((readFragments (readingAllowance source) .document (some document) 0 []).run source).map
    fun (w, after) => (w, after.isHeld)

end TestRig.Shell
