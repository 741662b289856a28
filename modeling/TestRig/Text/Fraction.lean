import TestRig.Text.Numeral

/-! # Fractions

    Numbers of 64 bits with a fraction, as `printf` takes and writes them. A
    number is kept as a whole number of 53 bits times a power of two, so it
    is an exact ratio, and all texts are computed from that ratio: a half
    goes to the even neighbour, both when a text is read and when it is
    written. -/

namespace TestRig

/-! ## Section 1: The nearest fraction -/

/-- A number of 64 bits with a fraction. -/
inductive Fraction where
  /-- The number `significand * 2 ^ exponent`. -/
  | finite (isNegative : Bool) (significand : Nat) (exponent : Int)
  | infinite (isNegative : Bool)
  | undefined (isNegative : Bool)

namespace Fraction

/-- The whole number nearest to a ratio; of two the even one. -/
def roundDiv (num den : Nat) : Nat :=
  let q := num / den
  let r := num % den
  if 2 * r < den then q else if den < 2 * r then q + 1 else q + q % 2

/-- The exponent of the smallest steps between numbers. -/
def leastExponent : Int := -1074

/-- The largest exponent. -/
def greatestExponent : Int := 971

/-- Significands are smaller than this. -/
def significandLimit : Nat := Nat.pow 2 53

/-- Significands are at least this, unless the exponent is the least one. -/
def leastFullSignificand : Nat := Nat.pow 2 52

/-- A ratio divided by a power. -/
def dividedBy (base num den : Nat) (e : Int) : Nat × Nat :=
  if e < 0 then (num * base.pow e.natAbs, den) else (num, den * base.pow e.natAbs)

/-- The number nearest to a ratio, and whether it is near enough: not so far
    from zero or so close to it that the steps between numbers do not
    fit. -/
def nearest (isNegative : Bool) (num den : Nat) : Fraction × Bool :=
  if num = 0 then (.finite isNegative 0 leastExponent, true)
  else
    let low : Int := num.log2 - den.log2 - 53
    let (n, d) := dividedBy 2 num den low
    let exponent := max leastExponent (if n / d < significandLimit then low else low + 1)
    let (n, d) := dividedBy 2 num den exponent
    let significand := roundDiv n d
    let isCarried := significand = significandLimit
    let exponent := if isCarried then exponent + 1 else exponent
    let significand := if isCarried then leastFullSignificand else significand
    if greatestExponent < exponent then (.infinite isNegative, false)
    else (.finite isNegative significand exponent, leastFullSignificand ≤ significand || n % d = 0)

/-! ## Section 2: Reading -/

/-- Is the text after blanks and a sign one of the words for numbers that
    are not finite? The number comes with the rest of the text. -/
def word? (isNegative : Bool) (s : Bytes) : Option (Fraction × Bytes) :=
  let lower (s : Bytes) := s.map fun b => if 0x41 ≤ b && b ≤ 0x5A then b + 32 else b
  let starts (w : String) := lower (s.take (text w).length) = text w
  if starts "infinity" then some (.infinite isNegative, s.drop 8)
  else if starts "inf" then some (.infinite isNegative, s.drop 3)
  else if starts "nan" then
    let inner := (s.drop 4).takeWhile fun b =>
      isDigit b || (0x41 ≤ b && b ≤ 0x5A) || (0x61 ≤ b && b ≤ 0x7A) || b = 0x5F
    let isClosed := s[3]? = some 0x28 && s[4 + inner.length]? = some 0x29
    some (.undefined isNegative, s.drop (if isClosed then 5 + inner.length else 3))
  else none

/-- Digits to a base with a point among them: the number without the point,
    how many digits come after it, and the rest; nothing if there is no
    digit. -/
def pointed? (base : Nat) (s : Bytes) : Option (Nat × Nat × Bytes) :=
  let whole := s.takeWhile (isDigitOf base)
  let after := s.drop whole.length
  let (part, rest) := match after with
    | 0x2E :: t =>
      let part := t.takeWhile (isDigitOf base)
      if whole = [] ∧ part = [] then ([], after) else (part, t.drop part.length)
    | _ => ([], after)
  if whole = [] ∧ part = [] then none else some (ofDigits base (whole ++ part), part.length, rest)

/-- The exponent that a letter announces, and the rest; zero if there is
    none. -/
def exponent (isLetter : UInt8 → Bool) (s : Bytes) : Int × Bytes :=
  match s with
  | b :: t =>
    if isLetter b then
      let (isNegative, t) := Numeral.sign t
      match digits? 10 t with
      | some (n, rest) => (if isNegative then -n else n, rest)
      | none => (0, s)
    else (0, s)
  | [] => (0, [])

/-- Exponents beyond this bound are as good as the bound, for numbers with
    `n` digits. -/
def exponentBound (n : Nat) : Int := 4 * n + 5000

/-- Read a number at the start of a text after blanks: the number, whether
    it is near enough to what the text says, and the rest. -/
def read? (s : Bytes) : Option (Fraction × Bool × Bytes) :=
  let (isNegative, s) := Numeral.sign (s.dropWhile isSpace)
  let ofBase (base step : Nat) (isLetter : UInt8 → Bool) (s : Bytes) :=
    (pointed? base s).map fun (n, places, rest) =>
      let (e, rest) := exponent isLetter rest
      let bound := exponentBound s.length
      let e := max (-bound) (min bound e) - (if base = 16 then 4 else 1) * places
      let (num, den) := dividedBy step n 1 (-e)
      let (f, isNear) := nearest isNegative num den
      (f, isNear, rest)
  match word? isNegative s with
  | some (f, rest) => some (f, true, rest)
  | none =>
    let isHex := match s with
      | 0x30 :: x :: _ => x = 0x78 || x = 0x58
      | _ => false
    match if isHex then ofBase 16 2 (fun b => b = 0x70 || b = 0x50) (s.drop 2) else none with
    | some found => some found
    | none => ofBase 10 10 (fun b => b = 0x65 || b = 0x45) s

/-! ## Section 3: Writing -/

/-- So many zeros. -/
def zeros (n : Nat) : Bytes := List.replicate n 0x30

/-- The ratio of a finite number. -/
def ratio (significand : Nat) (exponent : Int) : Nat × Nat := dividedBy 2 significand 1 (-exponent)

/-- A whole number written with some places after a point, which may be kept
    without places. -/
def withPoint (n places : Nat) (keepsPoint : Bool) : Bytes :=
  let digits := decimal n
  let digits := zeros (places + 1 - digits.length) ++ digits
  let whole := digits.length - places
  digits.take whole ++
    if places = 0 ∧ !keepsPoint then [] else 0x2E :: digits.drop whole

/-- The exponent of the largest power of ten that is not above a ratio. -/
def decimalExponent (num den : Nat) : Int :=
  let estimate : Int := ((num.log2 : Int) - den.log2) * 30103 / 100000
  let candidates := [estimate + 2, estimate + 1, estimate, estimate - 1, estimate - 2]
  (candidates.find? fun k =>
    let (n, d) := dividedBy 10 num den k
    d ≤ n).getD 0

/-- Digits of a ratio, one before the point and some after it, as one
    number; and its exponent. -/
def scientific (num den places : Nat) : Nat × Int :=
  if num = 0 then (0, 0)
  else
    let k := decimalExponent num den
    let (n, d) := dividedBy 10 num den (k - places)
    let digits := roundDiv n d
    if digits = Nat.pow 10 (places + 1) then (Nat.pow 10 places, k + 1) else (digits, k)

/-- A number with a letter, a sign and digits at its end, at least `least`
    of them. -/
def withExponent (start : Bytes) (letter : UInt8) (least : Nat) (e : Int) : Bytes :=
  let digits := decimal e.natAbs
  start ++ letter :: (if e < 0 then 0x2D else 0x2B) ::
    (zeros (least - digits.length) ++ digits)

/-- How a number is to be written. -/
structure Format where
  precision : Option Nat
  /-- Is the point written even if nothing comes after it? Then no zeros are
      left out either. -/
  keepsPoint : Bool

/-- Without the zeros at the end, and without the point if nothing else
    follows it. -/
def trimZeros (s : Bytes) : Bytes :=
  if s.contains 0x2E then
    ((s.reverse.dropWhile (· = 0x30)).dropWhile (· = 0x2E)).reverse
  else s

/-- With a fixed number of places. -/
def fixed (f : Format) (num den : Nat) : Bytes :=
  let places := f.precision.getD 6
  withPoint (roundDiv (num * Nat.pow 10 places) den) places f.keepsPoint

/-- With an exponent. -/
def exponential (f : Format) (num den : Nat) : Bytes :=
  let places := f.precision.getD 6
  let (digits, e) := scientific num den places
  withExponent (withPoint digits places f.keepsPoint) 0x65 2 e

/-- In the shorter one of these two ways, with so many digits in all. -/
def general (f : Format) (num den : Nat) : Bytes :=
  let digits := max 1 (f.precision.getD 6)
  let (n, e) := scientific num den (digits - 1)
  let trim (s : Bytes) := if f.keepsPoint then s else trimZeros s
  if -4 ≤ e ∧ e < digits then
    trim (fixed { f with precision := some ((digits : Int) - 1 - e).toNat } num den)
  else withExponent (trim (withPoint n (digits - 1) f.keepsPoint)) 0x65 2 e

/-- With digits to the base sixteen and a power of two; the mark in front of
    it is left out. -/
def hexadecimal (f : Format) (significand : Nat) (exponent : Int) : Bytes :=
  let places := f.precision.getD 13
  let scaled := if places < 13 then roundDiv significand (Nat.pow 16 (13 - places)) else significand
  let shown := min places 13
  let digits := inBase 16 (scaled % Nat.pow 16 shown)
  let digits := if shown = 0 then [] else zeros (shown - digits.length) ++ digits
  let digits := match f.precision with
    | none => (digits.reverse.dropWhile (· = 0x30)).reverse
    | some p => digits ++ zeros (p - 13)
  let point := if digits = [] ∧ !f.keepsPoint then [] else [0x2E]
  let e := if significand = 0 then 0 else exponent + 52
  withExponent (decimal (scaled / Nat.pow 16 shown) ++ point ++ digits) 0x70 1 e

/-- Capital letters for small ones. -/
def capitals (s : Bytes) : Bytes := s.map fun b => if 0x61 ≤ b && b ≤ 0x7A then b - 32 else b

/-- The text of a number without its sign: a mark that stands before all
    zeros that fill it up, and the rest. The letter says how it is written,
    and a capital one that all letters are. -/
def write (f : Format) (letter : UInt8) (n : Fraction) : Bytes × Bytes :=
  let isUpper := letter < 0x60
  let style := if isUpper then letter + 32 else letter
  let (mark, body) := match n with
    | .infinite _ => ([], text "inf")
    | .undefined _ => ([], text "nan")
    | .finite _ significand e =>
      let (num, den) := ratio significand e
      if style = 0x66 then ([], fixed f num den)
      else if style = 0x65 then ([], exponential f num den)
      else if style = 0x67 then ([], general f num den)
      else (text "0x", hexadecimal f significand e)
  if isUpper then (capitals mark, capitals body) else (mark, body)

/-- Is there a minus in front of the number? -/
def isBelow : Fraction → Bool
  | .finite b _ _ => b
  | .infinite b => b
  | .undefined b => b

/-- Is the number finite? -/
def isFinite : Fraction → Bool
  | .finite .. => true
  | _ => false

end Fraction

end TestRig
