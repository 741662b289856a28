import TestRig.Shell.Device
import TestRig.Tree.Edit
import TestRig.Text.Numeral

/-! # Tests

    The command `test` decides an expression on texts, numbers and files.
    Its words are read from left to right: a comparison if an operator of
    two operands comes second, else a question about one operand, else
    whether the word is empty. A word is taken for an operator of one
    operand only if an operand is there for it. All parts are decided,
    whatever the outcome of the parts before. -/

namespace TestRig.Shell

/-! ## Section 1: Questions and comparisons -/

/-- What an operator asks about one operand. -/
inductive Question where
  | isEmpty
  | isText
  | isFile
  | isDirectory
  | isThere
  | isLink
  | isDevice
  | hasContent
  | mayRun
  /-- Is the descriptor that of a terminal? -/
  | isTerminal
  /-- A kind of node or a mode that no node has here. -/
  | isOther
  deriving DecidableEq

/-- The questions that operators ask. All that is there may be read and
    written. -/
def questions : List (String × Question) :=
  [("-z", .isEmpty), ("-n", .isText), ("-f", .isFile), ("-d", .isDirectory), ("-e", .isThere),
   ("-h", .isLink), ("-L", .isLink), ("-s", .hasContent), ("-r", .isThere), ("-w", .isThere),
   ("-x", .mayRun), ("-O", .isThere), ("-G", .isThere), ("-c", .isDevice), ("-b", .isOther),
   ("-p", .isOther), ("-u", .isOther), ("-g", .isOther), ("-k", .isOther), ("-S", .isOther),
   ("-t", .isTerminal)]

/-- What compares two operands. -/
inductive Comparison where
  | text (holds : Bytes → Bytes → Bool)
  | number (holds : Int → Int → Bool)
  /-- Are both the same node? -/
  | isSame
  /-- Is the one older? All nodes are equally old. -/
  | byAge

/-- The comparisons by their operators. -/
def comparisons : List (String × Comparison) :=
  [("=", .text fun a b => a = b), ("!=", .text fun a b => a ≠ b),
   ("<", .text fun a b => decide (a < b)), (">", .text fun a b => decide (b < a)),
   ("-eq", .number fun m n => m = n), ("-ne", .number fun m n => m ≠ n),
   ("-gt", .number fun m n => n < m), ("-ge", .number fun m n => n ≤ m),
   ("-lt", .number fun m n => m < n), ("-le", .number fun m n => m ≤ n),
   ("-ef", .isSame), ("-nt", .byAge), ("-ot", .byAge)]

/-- What a word is in a test. -/
inductive TestWord where
  | operand
  | question (q : Question)
  | comparison (c : Comparison)
  | not
  | both
  | either
  | opening
  | closing
  | endOfWords

/-- The comparison that a word asks for. -/
def comparison? (s : Bytes) : Option Comparison := (comparisons.find? fun e => text e.1 = s).map (·.2)

/-- Is a word that asks a question taken for an operand, with these words
    after it? It is if no operand comes after it, or if it stands before a
    comparison. -/
def isOperand (rest : List Bytes) : Bool :=
  match rest with
  | [] => true
  | [_] => false
  | op :: _ :: _ => (comparison? op).isSome

/-- What the first of some words is. -/
def TestWord.ofWords : List Bytes → TestWord
  | [] => .endOfWords
  | s :: rest =>
    match (questions.find? fun e => text e.1 = s), comparison? s with
    | some (_, q), _ => if isOperand rest then .operand else .question q
    | none, some c => .comparison c
    | none, none =>
      if s = text "!" then .not
      else if s = text "-a" then .both
      else if s = text "-o" then .either
      else if s = text "(" && !rest.isEmpty then .opening
      else if s = text ")" then .closing
      else .operand

/-! ## Section 2: Asking about files and numbers -/

/-- What a test is asked about: the tree, and the directory that paths start
    from. -/
structure TestScene where
  tree : Tree
  cwd : Place

namespace TestScene

/-- What a path leads to. -/
def node? (t : TestScene) (path : Bytes) : Option (Place × Node) := (t.tree.look t.cwd path).toOption

/-- Is the path that of a link? A separator at its end asks for what the
    link leads to. -/
def isLink (t : TestScene) (path : Bytes) : Bool :=
  !Path.endsInSlash path &&
    match (t.tree.placeOf t.cwd path).toOption.bind t.tree.nodeAt with
    | some (.link _) => true
    | _ => false

/-- The number that an operand denotes, or the complaint that it is none. -/
def number (s : Bytes) : Except Bytes Int :=
  match wholeNumber? s with
  | some n => .ok n
  | none => .error (text "Illegal number: " ++ s)

/-- Answer a question about an operand. -/
def ask (t : TestScene) (q : Question) (operand : Bytes) : Except Bytes Bool :=
  let found := t.node? operand
  let device := found.bind fun (p, _) => device? p
  match q with
  | .isEmpty => .ok (operand = [])
  | .isText => .ok (operand ≠ [])
  | .isLink => .ok (t.isLink operand)
  | .isDevice => .ok device.isSome
  | .isOther => .ok false
  | .isTerminal => (number operand).map fun _ => false
  | .isThere => .ok found.isSome
  | .isDirectory => .ok (found.any fun (_, n) => n = .directory)
  | .isFile => .ok (device.isNone && found.any fun (_, n) => n matches .file ..)
  | .hasContent => .ok (device.isNone && found.any fun (_, n) => !(n matches .file [] _))
  | .mayRun => .ok (found.any fun (_, n) => !(n matches .file _ false))

/-- Compare two operands; the complaint says what makes no sense. -/
def compare (t : TestScene) (c : Comparison) (a b : Bytes) : Except Bytes Bool :=
  match c with
  | .text holds => .ok (holds a b)
  | .number holds => do return holds (← number a) (← number b)
  | .isSame =>
    match t.node? a, t.node? b with
    | some (p, _), some (q, _) => .ok (p = q)
    | _, _ => .ok false
  | .byAge => .ok false

/-! ## Section 3: Deciding -/

mutual

/-- Decide alternatives joined by `-o`; the words that are left come with
    the answer. -/
def decideEither (t : TestScene) : (allowance : Nat) → List Bytes → Except Bytes (Bool × List Bytes)
  | 0, _ => .error (text "too long")
  | n + 1, words => do
    let (a, rest) ← decideBoth t n words
    match TestWord.ofWords rest with
    | .either =>
      let (b, rest) ← decideEither t n rest.tail
      return (a || b, rest)
    | _ => return (a, rest)

/-- Decide conditions joined by `-a`. -/
def decideBoth (t : TestScene) : (allowance : Nat) → List Bytes → Except Bytes (Bool × List Bytes)
  | 0, _ => .error (text "too long")
  | n + 1, words => do
    let (a, rest) ← decideOne t n words
    match TestWord.ofWords rest with
    | .both =>
      let (b, rest) ← decideBoth t n rest.tail
      return (a && b, rest)
    | _ => return (a, rest)

/-- Decide a condition. No words at all are false. -/
def decideOne (t : TestScene) : (allowance : Nat) → List Bytes → Except Bytes (Bool × List Bytes)
  | 0, _ => .error (text "too long")
  | _ + 1, [] => return (false, [])
  | n + 1, a :: rest => do
    match TestWord.ofWords (a :: rest) with
    | .not =>
      let (b, rest) ← decideOne t n rest
      return (!b, rest)
    | .opening =>
      match TestWord.ofWords rest with
      | .closing => return (false, rest.tail)
      | _ =>
        let (b, rest) ← decideEither t n rest
        match TestWord.ofWords rest with
        | .closing => return (b, rest.tail)
        | _ => throw (text "closing paren expected")
    | .question q => return (← t.ask q (rest.headD []), rest.tail)
    | _ => t.decideOperand a rest

/-- Decide what starts with an operand. -/
def decideOperand (t : TestScene) (a : Bytes) (rest : List Bytes) : Except Bytes (Bool × List Bytes) := do
  match TestWord.ofWords rest with
  | .comparison c =>
    match rest with
    | _ :: b :: rest => return (← t.compare c a b, rest)
    | rest => throw (rest.headD [] ++ text ": argument expected")
  | _ => return (a ≠ [], rest)

end

/-- Decide the words of a test, all of them. `isCompared` says that the
    first one is an operand whatever it looks like. -/
def decideAll (t : TestScene) (isCompared : Bool) (words : List Bytes) : Except Bytes Bool := do
  let (answer, rest) ← match isCompared, words with
    | true, a :: rest => t.decideOperand a rest
    | _, words => t.decideEither (4 * words.length + 8) words
  match rest with
  | [] => return answer
  | _ :: _ =>
    -- the word before the first that is left is the one that no operator follows
    throw ((words[words.length - rest.length - 1]?).getD [] ++ text ": unexpected operator")

/-- Decide a test. With three or four words, their number says what an
    exclamation mark or parentheses around them mean; the first of two marks
    has no effect then. -/
def decide? (t : TestScene) (words : List Bytes) : Except Bytes Bool :=
  go false words.length words
where
  /-- Decide `count` words, and turn the answer around if a mark stood
      before them. -/
  go (isNegated : Bool) : (count : Nat) → List Bytes → Except Bytes Bool
    | 0, _ => .ok false
    | count + 1, words =>
      let answer (isCompared : Bool) (words : List Bytes) :=
        (t.decideAll isCompared words).map fun b => b != isNegated
      match words with
      | [] => .ok isNegated
      | [a, op, b] =>
        if (comparison? op).isSome then answer true words
        else if a = text "(" ∧ b = text ")" then answer false [op]
        else if a = text "!" then go true count [op, b]
        else answer false words
      | [a, b, c, d] =>
        if a = text "(" ∧ d = text ")" then answer false [b, c]
        else if a = text "!" then go true count [b, c, d]
        else answer false words
      | words => answer false words

end TestScene

end TestRig.Shell
