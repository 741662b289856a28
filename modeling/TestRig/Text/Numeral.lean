import TestRig.Text.Bytes

/-! # Numbers in texts

    Scripts hand numbers around as texts. A `Numeral` is what reading a text
    as a whole number has come to: a sign, a magnitude and the text after
    it. It may stand for a word of 64 bits, with a sign or without one; a
    number that is too large for the word is then replaced by the nearest
    one. -/

namespace TestRig

/-! ## Section 1: Digits -/

/-- Is the byte a decimal digit? -/
def isDigit (b : UInt8) : Bool := 0x30 ≤ b && b ≤ 0x39

/-- May the byte stand before a number without being part of it? -/
def isSpace (b : UInt8) : Bool := b = 0x20 || (0x09 ≤ b && b ≤ 0x0D)

/-- The value of a digit up to sixteen. -/
def digitValue (b : UInt8) : Nat :=
  if isDigit b then b.toNat - 0x30 else if b < 0x60 then b.toNat - 0x37 else b.toNat - 0x57

/-- Is the byte a digit to the base, which is at most sixteen? -/
def isDigitOf (base : Nat) (b : UInt8) : Bool :=
  (isDigit b || (0x41 ≤ b && b ≤ 0x46) || (0x61 ≤ b && b ≤ 0x66)) && digitValue b < base

/-- The number that digits to a base denote. -/
def ofDigits (base : Nat) (digits : Bytes) : Nat :=
  digits.foldl (fun n b => base * n + digitValue b) 0

/-- The digits that `n` has to a base. -/
def inBase (base n : Nat) : Bytes := (Nat.toDigits base n).map fun c => c.toNat.toUInt8

/-- The number that the digits at the start of a text denote, and what comes
    after them. -/
def digits? (base : Nat) (s : Bytes) : Option (Nat × Bytes) :=
  match s.takeWhile (isDigitOf base) with
  | [] => none
  | digits => some (ofDigits base digits, s.drop digits.length)

/-- The same where the start of the number says what its base is. -/
def prefixedDigits? (s : Bytes) : Option (Nat × Bytes) :=
  match s with
  | 0x30 :: x :: rest =>
    let base := if x = 0x78 || x = 0x58 then 16 else if x = 0x62 || x = 0x42 then 2 else 8
    match if base = 8 then none else digits? base rest with
    | some found => some found
    | none => digits? 8 s
  | [0x30] => digits? 8 s
  | s => digits? 10 s

/-! ## Section 2: Numerals with a sign -/

/-- A whole number at the start of a text. -/
structure Numeral where
  isNegative : Bool
  magnitude : Nat
  /-- What comes after the number. -/
  rest : Bytes

namespace Numeral

/-- The sign that a text starts with, and what comes after it. -/
def sign (s : Bytes) : Bool × Bytes :=
  match s with
  | 0x2D :: s => (true, s)
  | 0x2B :: s => (false, s)
  | s => (false, s)

/-- Read a number after blanks and a sign; `digits?` reads its digits. -/
def read? (digits? : Bytes → Option (Nat × Bytes)) (s : Bytes) : Option Numeral :=
  let (isNegative, s) := sign (s.dropWhile isSpace)
  (digits? s).map fun (magnitude, rest) => ⟨isNegative, magnitude, rest⟩

/-- The number. -/
def value (n : Numeral) : Int := if n.isNegative then -n.magnitude else n.magnitude

/-- The word with a sign that is nearest to the number, and whether it is
    the number itself. -/
def toSigned (n : Numeral) : Int × Bool :=
  let nearest := max Int64.minValue.toInt (min Int64.maxValue.toInt n.value)
  (nearest, nearest = n.value)

/-- The word without a sign that stands for the number, negative ones
    wrapped around, and whether the magnitude fits into it; the largest one
    if not. -/
def toUnsigned (n : Numeral) : Nat × Bool :=
  if UInt64.size ≤ n.magnitude then (UInt64.size - 1, false)
  else ((n.value % UInt64.size).toNat, true)

end Numeral

/-- The number that a whole text denotes in decimal digits, with a sign and
    blanks around it, if it is a word with a sign. -/
def wholeNumber? (s : Bytes) : Option Int :=
  match Numeral.read? (digits? 10) s with
  | some n => if n.rest.all isSpace && n.toSigned.2 then some n.value else none
  | none => none

end TestRig
