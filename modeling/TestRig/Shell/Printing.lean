import TestRig.Text.Fraction

/-! # Printing from scripts

    The two commands that print: `echo` writes its arguments with one blank
    between them, and `printf` fills them into a format, which is used again
    as long as arguments are left. Both read a backslash as the start of an
    escape. -/

namespace TestRig.Shell

/-! ## Section 1: Escapes -/

/-- The byte that a letter after a backslash stands for. -/
def escaped? (b : UInt8) : Option UInt8 :=
  [(0x61, 0x07), (0x62, 0x08), (0x65, 0x1B), (0x66, 0x0C), (0x6E, 0x0A), (0x72, 0x0D), (0x74, 0x09),
   (0x76, 0x0B), (0x5C, 0x5C)].lookup b

/-- Is the byte an octal digit? -/
def isOctal (b : UInt8) : Bool := 0x30 ≤ b && b ≤ 0x37

/-- The byte that octal digits denote. -/
def octal (digits : Bytes) : UInt8 := digits.foldl (fun n b => 8 * n + (b - 0x30)) 0

/-- The byte that an escape denotes, and how many bytes after the backslash
    belong to it. -/
def escape? (s : Bytes) : Option (UInt8 × Nat) :=
  let digits := (s.take 3).takeWhile isOctal
  if digits ≠ [] then some (octal digits, digits.length)
  else (s.head?.bind escaped?).map (·, 1)

/-- The text of an argument with its escapes read, and whether it ends all
    printing: the escape `\c` does. A numeral after `\0` may have three
    digits more. -/
def unescape : (allowance : Nat) → Bytes → Bytes × Bool
  | 0, _ => ([], false)
  | _ + 1, [] => ([], false)
  | n + 1, b :: s =>
    let continued (bytes : Bytes) (rest : Bytes) :=
      let (out, isEnd) := unescape n rest
      (bytes ++ out, isEnd)
    if b ≠ 0x5C then continued [b] s
    else match s with
      | 0x63 :: _ => ([], true)
      | 0x30 :: rest =>
        let digits := (rest.take 3).takeWhile isOctal
        continued [octal digits] (rest.drop digits.length)
      | s =>
        match escape? s with
        | some (e, length) => continued [e] (s.drop length)
        | none => continued [b] s

/-- What `echo` writes. -/
def echo (args : List Bytes) : Bytes :=
  let isBare := args.head? = some (text "-n")
  let line := joined space (if isBare then args.tail else args)
  match unescape (line.length + 1) line with
  | (out, true) => out
  | (out, false) => if isBare then out else out ++ [newline]

/-! ## Section 2: Formats -/

/-- How a directive of a format wants its argument. -/
structure Directive where
  flags : Bytes
  width : Nat
  precision : Option Nat

/-- The widest field that the system can count. -/
def widthLimit : Nat := 2147483647

/-- The widest field for which there is room. -/
def roomLimit : Nat := 16777216

/-- Why a field cannot be made, if it cannot. -/
def Directive.refusal? (d : Directive) (conversion : UInt8) : Option Bytes :=
  let length := if (text "sb").contains conversion then 0 else d.precision.getD 0
  if widthLimit < max d.width (d.precision.getD 0) then some (text "xvsnprintf failed")
  else if roomLimit < max d.width length then some (text "Out of space")
  else none

/-- Does the directive have a flag? -/
def Directive.has (d : Directive) (flag : UInt8) : Bool := d.flags.contains flag

/-- A field of at least the width of the directive. -/
def Directive.pad (d : Directive) (s : Bytes) : Bytes :=
  let blanks := List.replicate (d.width - s.length) space
  if d.has 0x2D then s ++ blanks else blanks ++ s

/-- A field that is filled up with zeros between its mark and the rest, if
    the directive wants that. -/
def Directive.padZeros (d : Directive) (mark body : Bytes) : Bytes :=
  if d.has 0x30 && !d.has 0x2D then mark ++ Fraction.zeros (d.width - (mark ++ body).length) ++ body
  else d.pad (mark ++ body)

/-- The sign of a number that may be negative. -/
def Directive.sign (d : Directive) (isNegative : Bool) : Bytes :=
  if isNegative then [0x2D] else if d.has 0x2B then [0x2B] else if d.has 0x20 then [space] else []

/-- The digits of a number, as many as the precision wants; zero with a
    precision of zero has none. -/
def Directive.digitsOf (d : Directive) (base n : Nat) : Bytes :=
  let digits := if n = 0 then [] else inBase base n
  Fraction.zeros (d.precision.getD 1 - digits.length) ++ digits

/-- A field for a number: its sign or mark, and its digits. A precision
    leaves no room for more zeros. -/
def Directive.padNumber (d : Directive) (mark digits : Bytes) : Bytes :=
  if d.precision.isSome then d.pad (mark ++ digits) else d.padZeros mark digits

/-- The field of a whole number. -/
def wholeField (d : Directive) (conversion : UInt8) (n : Int) : Bytes :=
  let magnitude := n.natAbs
  if conversion = 0x64 ∨ conversion = 0x69 then
    d.padNumber (d.sign (n < 0)) (d.digitsOf 10 magnitude)
  else if conversion = 0x75 then d.padNumber [] (d.digitsOf 10 magnitude)
  else if conversion = 0x6F then
    let digits := d.digitsOf 8 magnitude
    d.padNumber [] (if d.has 0x23 && digits.head? ≠ some 0x30 then 0x30 :: digits else digits)
  else
    let digits := d.digitsOf 16 magnitude
    let digits := if conversion = 0x58 then Fraction.capitals digits else digits
    d.padNumber (if d.has 0x23 && magnitude ≠ 0 then [0x30, conversion] else []) digits

/-- The field of a fraction. -/
def fractionField (d : Directive) (conversion : UInt8) (n : Fraction) : Bytes :=
  let (mark, body) := n.write ⟨d.precision, d.has 0x23⟩ conversion
  let sign := d.sign n.isBelow
  if n.isFinite then d.padZeros (sign ++ mark) body else d.pad (sign ++ body)

/-- What an argument has come to, and a complaint if it is not all of it or
    beyond what there is. -/
abbrev Converted (α : Type) : Type := α × Option Bytes

/-- Read an argument as a number. A quote in front stands for the number of
    the byte after it. `read?` gives a number, whether it is in range, and
    the rest. -/
def converted {α : Type} (ofNat : Nat → α) (read? : Bytes → Option (α × Bool × Bytes)) (s : Bytes) :
    Converted α :=
  match s with
  | [] => (ofNat 0, none)
  | q :: rest =>
    if q = 0x22 ∨ q = 0x27 then (ofNat (rest.headD 0).toNat, none)
    else match read? s with
      | none => (ofNat 0, some (s ++ text ": expected numeric value"))
      | some (n, _, _ :: _) => (n, some (s ++ text ": not completely converted"))
      | some (n, false, []) => (n, some (s ++ text ": Numerical result out of range"))
      | some (n, true, []) => (n, none)

/-- Read an argument as a number with a sign. -/
def convertSigned : Bytes → Converted Int :=
  converted Int.ofNat fun s => (Numeral.read? prefixedDigits? s).map fun n =>
    let (value, isInRange) := n.toSigned
    (value, isInRange, n.rest)

/-- Read an argument as a number without a sign. -/
def convertUnsigned : Bytes → Converted Int :=
  converted Int.ofNat fun s => (Numeral.read? prefixedDigits? s).map fun n =>
    let (value, isInRange) := n.toUnsigned
    ((value : Int), isInRange, n.rest)

/-- Read an argument as a fraction. -/
def convertFraction : Bytes → Converted Fraction :=
  converted (fun n => (Fraction.nearest false n 1).1) Fraction.read?

/-- What filling a format has come to. -/
structure Filling where
  /-- What is printed, the latest first. -/
  out : List Bytes
  /-- The arguments that are left. -/
  left : List Bytes
  complaints : List Bytes
  status : Nat
  /-- No more is printed. -/
  isEnded : Bool

namespace Filling

/-- Print. -/
def print (f : Filling) (s : Bytes) : Filling := { f with out := s :: f.out }

/-- The next argument, empty if none is left, and the filling after it. -/
def next (f : Filling) : Bytes × Filling := (f.left.headD [], { f with left := f.left.tail })

/-- End it with a complaint. -/
def fail (f : Filling) (complaint : Bytes) : Filling :=
  { f with complaints := f.complaints ++ [complaint], status := 2, isEnded := true }

/-- The next argument as a number. -/
def nextNumber {α : Type} (convert : Bytes → Converted α) (f : Filling) : α × Filling :=
  let (s, f) := f.next
  match convert s with
  | (n, none) => (n, f)
  | (n, some complaint) => (n, { f with complaints := f.complaints ++ [complaint], status := 1 })

/-- A number of a directive, given by digits or, as `*`, by an argument; and
    the rest of the format. -/
def measure (f : Filling) : Bytes → Option Int × Bytes × Filling
  | 0x2A :: s =>
    let (n, f) := f.nextNumber convertSigned
    (some (n.bmod UInt32.size), s, f)
  | s =>
    let digits := s.takeWhile isDigit
    ((numeral? digits).map Int.ofNat, s.drop digits.length, f)

/-- Print the next argument as a directive with the given conversion wants
    it; `written` is how the directive is written. -/
def convert (f : Filling) (d : Directive) (written : Bytes) (conversion : UInt8) : Filling :=
  if conversion = 0x64 ∨ conversion = 0x69 then
    let (n, f) := f.nextNumber convertSigned
    f.print (wholeField d conversion n)
  else if (text "ouxX").contains conversion then
    let (n, f) := f.nextNumber convertUnsigned
    f.print (wholeField d conversion n)
  else if (text "aAeEfFgG").contains conversion then
    let (n, f) := f.nextNumber convertFraction
    f.print (fractionField d conversion n)
  else if conversion = 0x73 then
    let (s, f) := f.next
    f.print (d.pad (s.take (d.precision.getD s.length)))
  else if conversion = 0x63 then
    let (s, f) := f.next
    f.print (d.pad [s.headD 0])
  else if conversion = 0x62 then
    let (s, f) := f.next
    let (s, isEnd) := unescape (s.length + 1) s
    { f.print (d.pad (s.take (d.precision.getD s.length))) with isEnded := isEnd }
  else f.fail (written ++ text ": invalid directive")

/-- Fill arguments into a format once. -/
def once : (allowance : Nat) → (format : Bytes) → Filling → Filling
  | 0, _, f => f
  | _ + 1, [], f => f
  | n + 1, b :: s, f =>
    if f.isEnded then f
    else if b = 0x5C then
      match escape? s with
      | some (e, length) => once n (s.drop length) (f.print [e])
      | none => once n s (f.print [b])
    else if b ≠ 0x25 then once n s (f.print [b])
    else if s.head? = some 0x25 then once n s.tail (f.print [b])
    else
      let whole := s
      let flags := s.takeWhile fun b => (text "#-+ 0").contains b
      let (width, s, f) := f.measure (s.drop flags.length)
      let (precision, s, f) := match s with
        | 0x2E :: s =>
          let (precision, s, f) := f.measure s
          (some (precision.getD 0), s, f)
        | s => (none, s, f)
      match s with
      | [] => f.fail (text "missing format character")
      | conversion :: s =>
        let written := b :: whole.take (whole.length - s.length)
        -- a negative width asks for blanks after the field, a negative precision for none
        let flags := if width.getD 0 < 0 then 0x2D :: flags else flags
        let precision := precision.bind fun n => if n < 0 then none else some n.toNat
        let d : Directive := ⟨flags, (width.getD 0).natAbs, precision⟩
        match d.refusal? conversion with
        | none => once n s (f.convert d written conversion)
        | some complaint =>
          let tried := f.convert ⟨[], 0, none⟩ written conversion
          if tried.status = 2 then tried else { tried with out := f.out }.fail complaint

/-- Fill all arguments into a format. -/
def all (format : Bytes) : (rounds : Nat) → Filling → Filling
  | 0, f => f
  | rounds + 1, f =>
    let filled := once (format.length + 1) format f
    if filled.isEnded ∨ filled.left = [] ∨ filled.left.length = f.left.length then filled
    else all format rounds filled

end Filling

/-- What `printf` does with its format and the arguments after it. -/
def printf (format : Bytes) (args : List Bytes) : Filling :=
  Filling.all format (args.length + 1) ⟨[], args, [], 0, false⟩

end TestRig.Shell
