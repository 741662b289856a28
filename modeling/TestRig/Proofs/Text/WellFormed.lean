import TestRig.Text.Lossy

/-! # What of a text is UTF-8

    A text falls into well-formed sequences and into bytes that belong to
    none. `wellFormedPart` is what is left when these bytes are left out, so
    two texts with the same well-formed part differ in ill-formed bytes at
    most. A byte below `0x80` is a sequence of its own wherever it stands,
    and is never left out (`count_wellFormedPart`). -/

namespace TestRig

namespace Lossy

/-! ## Section 1: Sequences -/

/-- Do the ranges admit the bytes that a text starts with, one after the
    other? -/
def admits : List ByteRange → Bytes → Bool
  | [], _ => true
  | _ :: _, [] => false
  | r :: due, b :: s => r.contains b && admits due s

/-- The number of bytes in `s` that belong to the sequence that `b` starts, if
    it starts one. -/
def sequence? (b : UInt8) (s : Bytes) : Option Nat :=
  match following b with
  | some due => if admits due s then some due.length else none
  | none => none

theorem sequence?_of_lt {b : UInt8} (hb : b < 0x80) (s : Bytes) : sequence? b s = some 0 := by
  have hdue : following b = some [] := by rw [following, if_pos hb]
  rw [sequence?, hdue]
  rfl

/-- The bytes that belong to a sequence, where the first `n` belong to one
    that started before. -/
def keepFrom : Nat → Bytes → Bytes
  | _, [] => []
  | n + 1, b :: s => b :: keepFrom n s
  | 0, b :: s =>
    match sequence? b s with
    | some n => b :: keepFrom n s
    | none => keepFrom 0 s

end Lossy

/-- The text without the bytes that belong to no well-formed sequence. -/
def wellFormedPart (s : Bytes) : Bytes := Lossy.keepFrom 0 s

/-- The texts are not the same, but all that is well formed in them is. -/
def DifferInIllFormed (s t : Bytes) : Prop := s ≠ t ∧ wellFormedPart s = wellFormedPart t

/-! ## Section 2: Bytes that are never left out -/

section ascii

variable {b : UInt8} (hb : b < 0x80)
include hb

theorem Lossy.count_keepFrom (n : Nat) (s : Bytes) : (keepFrom n s).count b = s.count b := by
  induction s generalizing n with
  | nil => rfl
  | cons c s ih =>
    cases n with
    | succ n =>
      show (c :: keepFrom n s).count b = _
      rw [List.count_cons, List.count_cons, ih]
    | zero =>
      cases hsequence : sequence? c s with
      | some n =>
        rw [keepFrom, hsequence]
        show (c :: keepFrom n s).count b = _
        rw [List.count_cons, List.count_cons, ih]
      | none =>
        -- a byte that is left out starts no sequence, so it is another one
        have hne : c ≠ b := by
          intro he
          rw [he, sequence?_of_lt hb] at hsequence
          cases hsequence
        rw [keepFrom, hsequence]
        show (keepFrom 0 s).count b = _
        rw [ih, List.count_cons_of_ne hne]

theorem count_wellFormedPart (s : Bytes) : (wellFormedPart s).count b = s.count b :=
  Lossy.count_keepFrom hb 0 s

/-- The letter stays, and so does the sequence of three bytes. -/
example : wellFormedPart [0x61, 0xC3, 0xE2, 0x82, 0xAC, 0x80] = [0x61, 0xE2, 0x82, 0xAC] := by
  decide

theorem DifferInIllFormed.count_eq {s t : Bytes} (h : DifferInIllFormed s t) :
    s.count b = t.count b := by
  rw [← count_wellFormedPart hb s, h.2, count_wellFormedPart hb]

end ascii

/-- One byte that starts no sequence, and one whose sequence does not come. -/
example : DifferInIllFormed [0x61, 0xFF] [0x61, 0xC3] := ⟨by decide, by decide⟩

end TestRig
