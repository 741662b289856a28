import TestRig.Text.Bytes

/-! # Printing bytes that may not be UTF-8

    Messages and printed command lines are UTF-8, whatever bytes they quote.
    Well-formed sequences are kept; each maximal part of an ill-formed one
    is replaced by the replacement character `U+FFFD`. Which sequences are
    well formed is the table of the Unicode standard: the first byte fixes
    the ranges in which the following bytes must lie.

    The decoder reads one byte at a time and remembers the sequence it is in
    the middle of. -/

namespace TestRig.Lossy

/-! ## Section 1: The bytes of a sequence -/

/-- An interval of byte values. -/
structure ByteRange where
  low : UInt8
  high : UInt8
  deriving DecidableEq

/-- Does the byte lie in the interval? -/
def ByteRange.contains (r : ByteRange) (b : UInt8) : Bool := r.low ≤ b && b ≤ r.high

/-- The values that may continue a sequence, where the first byte does not
    narrow them. -/
def trailing : ByteRange := ⟨0x80, 0xBF⟩

/-- The ranges of the bytes that must follow a first byte, or nothing if no
    sequence starts with it. Overlong forms, surrogates and values above
    `U+10FFFF` are excluded by the second range. -/
def following (b : UInt8) : Option (List ByteRange) :=
  if b < 0x80 then some []
  else if b < 0xC2 then none
  else if b < 0xE0 then some [trailing]
  else if b = 0xE0 then some [⟨0xA0, 0xBF⟩, trailing]
  else if b = 0xED then some [⟨0x80, 0x9F⟩, trailing]
  else if b < 0xF0 then some [trailing, trailing]
  else if b = 0xF0 then some [⟨0x90, 0xBF⟩, trailing, trailing]
  else if b < 0xF4 then some [trailing, trailing, trailing]
  else if b = 0xF4 then some [⟨0x80, 0x8F⟩, trailing, trailing]
  else none

/-- The replacement character `U+FFFD` in UTF-8. -/
def replacement : Bytes := [0xEF, 0xBF, 0xBD]

/-! ## Section 2: Decoding -/

/-- Where the decoder stands: the bytes of an unfinished sequence and the
    ranges it still waits for. Between sequences both are empty. -/
structure Pending where
  held : Bytes
  due : List ByteRange
  deriving DecidableEq

/-- Between two sequences. -/
def idle : Pending := ⟨[], []⟩

/-- Read a byte between two sequences: the bytes to print now, and what is
    pending after. -/
def first (b : UInt8) : Bytes × Pending :=
  match following b with
  | none => (replacement, idle)
  | some [] => ([b], idle)
  | some due => ([], ⟨[b], due⟩)

/-- Read a byte. One that does not continue the pending sequence ends it as
    ill formed and is read as the first byte of a new one. -/
def next (p : Pending) (b : UInt8) : Bytes × Pending :=
  match p.due with
  | [] => first b
  | r :: due =>
    if r.contains b then
      if due = [] then (p.held ++ [b], idle) else ([], ⟨p.held ++ [b], due⟩)
    else (replacement ++ (first b).1, (first b).2)

/-- Decode the rest of a text from where the decoder stands. -/
def decodeFrom : Pending → Bytes → Bytes
  | p, [] => if p.due = [] then [] else replacement
  | p, b :: s => (next p b).1 ++ decodeFrom (next p b).2 s

end TestRig.Lossy

namespace TestRig

/-- The text with every maximal ill-formed part replaced by one `U+FFFD`. -/
def lossy (s : Bytes) : Bytes := Lossy.decodeFrom Lossy.idle s

end TestRig
