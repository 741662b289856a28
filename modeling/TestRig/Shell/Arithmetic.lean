import TestRig.Shell.Command

/-! # Arithmetic expressions

    An arithmetic expression computes with words of 64 bits that wrap
    around. It is read once from left to right and evaluated on the way, so
    that the first fault that comes up is the one that counts; what the
    outcome does not depend on is read without being evaluated.

    An expression looks variables up and assigns to them. The assignments
    that it has made are part of its outcome, also if it has failed after
    them. -/

namespace TestRig.Shell.Arithmetic

/-! ## Section 1: Tokens -/

/-- An operator between two numbers. -/
inductive Operator where
  | add | subtract | multiply | divide | remainder
  | shiftLeft | shiftRight
  | less | lessEqual | greater | greaterEqual | equal | unequal
  | and | xor | or
  deriving DecidableEq

/-- A token of an expression. -/
inductive Token where
  | number (n : Int64)
  | name (s : Bytes)
  | operator (op : Operator)
  /-- An assignment, perhaps of a value computed from the old one. -/
  | assign (op : Option Operator)
  | both
  | either
  | not
  | complement
  | opening
  | closing
  | question
  | colon
  | endOfText
  /-- The text goes on with something else. -/
  | other
  deriving DecidableEq

/-- The tokens that are written in one way only; of those that fit the first
    one counts. -/
def spellings : List (String × Token) :=
  [("<<=", .assign (some .shiftLeft)), (">>=", .assign (some .shiftRight)),
   ("<<", .operator .shiftLeft), (">>", .operator .shiftRight), ("<=", .operator .lessEqual),
   (">=", .operator .greaterEqual), ("==", .operator .equal), ("!=", .operator .unequal),
   ("&&", .both), ("||", .either), ("*=", .assign (some .multiply)), ("/=", .assign (some .divide)),
   ("%=", .assign (some .remainder)), ("+=", .assign (some .add)), ("-=", .assign (some .subtract)),
   ("&=", .assign (some .and)), ("^=", .assign (some .xor)), ("|=", .assign (some .or)),
   ("<", .operator .less), (">", .operator .greater), ("*", .operator .multiply),
   ("/", .operator .divide), ("%", .operator .remainder), ("+", .operator .add),
   ("-", .operator .subtract), ("&", .operator .and), ("^", .operator .xor), ("|", .operator .or),
   ("=", .assign none), ("!", .not), ("~", .complement), ("(", .opening), (")", .closing),
   ("?", .question), (":", .colon)]

/-- The token that a text starts with, and what comes after it. -/
def tokenOf (s : Bytes) : Token × Bytes :=
  match s.dropWhile fun b => isBlank b || b = newline with
  | [] => (.endOfText, [])
  | b :: rest =>
    let s := b :: rest
    if isDigit b then
      match prefixedDigits? s with
      | some (n, rest) => (.number (Int64.ofNat (min Int64.maxValue.toNatClampNeg n)), rest)
      | none => (.other, s)
    else if isNameStart b then
      let name := s.takeWhile isNameByte
      (.name name, s.drop name.length)
    else
      match spellings.find? fun e => s.take (text e.1).length = text e.1 with
      | some (spelling, t) => (t, s.drop (text spelling).length)
      | none => (.other, s)

/-! ## Section 2: Evaluation -/

/-- Why an expression has no value. -/
inductive Fault where
  | expectingPrimary
  | expectingClosing
  | expectingColon
  | expectingEnd
  | divisionByZero
  /-- The value of a variable is no number. -/
  | notANumber (value : Bytes)
  /-- The variable keeps its value. -/
  | isProtected (name : Bytes)
  /-- A quotient does not fit into a word. -/
  | overflow
  deriving DecidableEq

/-- What an expression sees of the variables. -/
structure Variables where
  value : Bytes → Bytes
  isProtected : Bytes → Bool

/-- How far reading has come. -/
structure Progress where
  /-- The token that comes next, and the text after it. -/
  next : Token
  rest : Bytes
  /-- The assignments that were made, the latest first. -/
  made : List (Bytes × Int64)

/-- A step of an evaluation. -/
abbrev Evaluation (α : Type) : Type := ReaderT Variables (ExceptT Fault (StateM Progress)) α

/-- Go beyond the next token. -/
def advance : Evaluation Unit :=
  modify fun p =>
    let (next, rest) := tokenOf p.rest
    { p with next, rest }

/-- The token that comes next. -/
def peekToken : Evaluation Token := return (← get).next

/-- The numeral of a number. -/
def numeral (n : Int64) : Bytes :=
  if n.toInt < 0 then 0x2D :: decimal n.toInt.natAbs else decimal n.toInt.natAbs

/-- The number that the value of a variable denotes; blanks count as zero. -/
def ofValue? (value : Bytes) : Option Int64 :=
  match Numeral.read? prefixedDigits? value with
  | some n =>
    if n.rest.all isSpace && n.toSigned.2 then some (Int64.ofInt n.value) else none
  | none => if value.all isSpace then some 0 else none

/-- The number that a variable stands for. -/
def valueOf (name : Bytes) : Evaluation Int64 := do
  match (← get).made.lookup name with
  | some n => return n
  | none =>
    let value := (← read).value name
    match ofValue? value with
    | some n => return n
    | none => throw (.notANumber value)

/-- Give a variable a value. -/
def assignValue (name : Bytes) (n : Int64) : Evaluation Unit := do
  if (← read).isProtected name then throw (.isProtected name)
  modify fun p => { p with made := (name, n) :: p.made }

/-- The number that stands for a truth value. -/
def ofBool (b : Bool) : Int64 := if b then 1 else 0

/-- Divide, or give the fault that keeps from it. -/
def division (a b : Int64) (answer : Int64) : Except Fault Int64 :=
  if b = 0 then .error .divisionByZero
  else if b = -1 ∧ a = Int64.minValue then .error .overflow
  else .ok answer

/-- Apply an operator. Shifts take the amount modulo the width of a word. -/
def Operator.apply (op : Operator) (a b : Int64) : Except Fault Int64 :=
  match op with
  | .add => .ok (a + b)
  | .subtract => .ok (a - b)
  | .multiply => .ok (a * b)
  | .divide => division a b (a / b)
  | .remainder => division a b (a % b)
  | .shiftLeft => .ok (a <<< (b &&& 63))
  | .shiftRight => .ok (a >>> (b &&& 63))
  | .less => .ok (ofBool (decide (a < b)))
  | .lessEqual => .ok (ofBool (decide (a ≤ b)))
  | .greater => .ok (ofBool (decide (b < a)))
  | .greaterEqual => .ok (ofBool (decide (b ≤ a)))
  | .equal => .ok (ofBool (decide (a = b)))
  | .unequal => .ok (ofBool (decide (a ≠ b)))
  | .and => .ok (a &&& b)
  | .xor => .ok (a ^^^ b)
  | .or => .ok (a ||| b)

/-- How weakly an operator binds. -/
def Operator.level : Operator → Nat
  | .multiply => 0
  | .divide => 0
  | .remainder => 0
  | .add => 1
  | .subtract => 1
  | .shiftLeft => 2
  | .shiftRight => 2
  | .less => 3
  | .lessEqual => 3
  | .greater => 3
  | .greaterEqual => 3
  | .equal => 4
  | .unequal => 4
  | .and => 5
  | .xor => 6
  | .or => 7

/-- All operators bind less weakly. -/
def topLevel : Nat := 8

/-- Apply an operator in an evaluation. -/
def applied (op : Operator) (a b : Int64) : Evaluation Int64 :=
  match op.apply a b with
  | .ok n => return n
  | .error fault => throw fault

mutual

/-- Evaluate an assignment, or an expression that is none. With `isIdle` the
    value does not matter, and nothing is looked up or assigned. -/
def evalAssignment : (allowance : Nat) → (isIdle : Bool) → Evaluation Int64
  | 0, _ => throw .expectingPrimary
  | n + 1, isIdle => do
    match ← peekToken with
    | .name name =>
      advance
      match ← peekToken with
      | .assign op =>
        advance
        let value ← evalAssignment n isIdle
        if isIdle then return value
        let value ← match op with
          | none => pure value
          | some op => applied op (← valueOf name) value
        assignValue name value
        return value
      | _ => evalChoice n isIdle (some name)
    | _ => evalChoice n isIdle none

/-- Evaluate a choice between two expressions, or an expression that is
    none. `first` is a name that was read already. -/
def evalChoice : (allowance : Nat) → (isIdle : Bool) → (first : Option Bytes) → Evaluation Int64
  | 0, _, _ => throw .expectingPrimary
  | n + 1, isIdle, first => do
    let a ← evalEither n isIdle first
    match ← peekToken with
    | .question =>
      advance
      let b ← evalAssignment n (isIdle || a = 0)
      if (← peekToken) ≠ .colon then throw .expectingColon
      advance
      let c ← evalChoice n (isIdle || a ≠ 0) none
      return if a ≠ 0 then b else c
    | _ => return a

/-- Evaluate expressions joined by `||`. -/
def evalEither : (allowance : Nat) → (isIdle : Bool) → (first : Option Bytes) → Evaluation Int64
  | 0, _, _ => throw .expectingPrimary
  | n + 1, isIdle, first => do
    let a ← evalBoth n isIdle first
    match ← peekToken with
    | .either =>
      advance
      let b ← evalEither n (isIdle || a ≠ 0) none
      return ofBool (a ≠ 0 || b ≠ 0)
    | _ => return a

/-- Evaluate expressions joined by `&&`. -/
def evalBoth : (allowance : Nat) → (isIdle : Bool) → (first : Option Bytes) → Evaluation Int64
  | 0, _, _ => throw .expectingPrimary
  | n + 1, isIdle, first => do
    let a ← evalPrimary n isIdle first
    let a ← evalOperands n isIdle topLevel a
    match ← peekToken with
    | .both =>
      advance
      let b ← evalBoth n (isIdle || a = 0) none
      return ofBool (a ≠ 0 && b ≠ 0)
    | _ => return a

/-- Evaluate what operators that bind stronger than `level` join to a
    number. -/
def evalOperands : (allowance : Nat) → (isIdle : Bool) → (level : Nat) → Int64 → Evaluation Int64
  | 0, _, _, _ => throw .expectingPrimary
  | n + 1, isIdle, level, a => do
    match ← peekToken with
    | .operator op =>
      if level ≤ op.level then return a
      advance
      let b ← evalPrimary n isIdle none
      let b ← evalOperands n isIdle op.level b
      let a ← if isIdle then pure b else applied op a b
      evalOperands n isIdle level a
    | _ => return a

/-- Evaluate a number, a variable, or an expression with a sign or in
    parentheses. -/
def evalPrimary : (allowance : Nat) → (isIdle : Bool) → (first : Option Bytes) → Evaluation Int64
  | 0, _, _ => throw .expectingPrimary
  | n + 1, isIdle, first => do
    let lookedUp (name : Bytes) : Evaluation Int64 := if isIdle then pure 0 else valueOf name
    match first with
    | some name => lookedUp name
    | none =>
      match ← peekToken with
      | .number value =>
        advance
        return value
      | .name name =>
        advance
        lookedUp name
      | .opening =>
        advance
        let value ← evalAssignment n isIdle
        if (← peekToken) ≠ .closing then throw .expectingClosing
        advance
        return value
      | .operator .add =>
        advance
        evalPrimary n isIdle none
      | .operator .subtract =>
        advance
        return -(← evalPrimary n isIdle none)
      | .not =>
        advance
        return ofBool ((← evalPrimary n isIdle none) = 0)
      | .complement =>
        advance
        return ~~~(← evalPrimary n isIdle none)
      | _ => throw .expectingPrimary

end

/-- Evaluate all of a text: its value, or why it has none, and the
    assignments that were made, the earliest first. -/
def evaluate (vars : Variables) (s : Bytes) : Except Fault Int64 × List (Bytes × Bytes) :=
  let (next, rest) := tokenOf s
  let all : Evaluation Int64 := do
    let value ← evalAssignment (8 * s.length + 64) false
    if (← peekToken) ≠ .endOfText then throw .expectingEnd
    return value
  let (result, progress) := ((all.run vars).run).run ⟨next, rest, []⟩
  (result, progress.made.reverse.map fun (name, n) => (name, numeral n))

/-- What a complaint says of a fault in an expression. -/
def Fault.describe (expression : Bytes) : Fault → Bytes
  | .notANumber value => text "Illegal number: " ++ value
  | .isProtected name => name ++ text ": is read only"
  | .expectingPrimary => about "expecting primary"
  | .expectingClosing => about "expecting ')'"
  | .expectingColon => about "expecting ':'"
  | .expectingEnd => about "expecting EOF"
  | .divisionByZero => about "division by zero"
  | .overflow => about "overflow"
where
  about (s : String) : Bytes :=
    text "arithmetic expression: " ++ text s ++ text ": \"" ++ expression ++ text "\""

end TestRig.Shell.Arithmetic
