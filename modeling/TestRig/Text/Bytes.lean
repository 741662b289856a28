/-! # Byte text

    Names, paths, arguments and bodies are arbitrary bytes: nothing in the
    system promises that they are UTF-8. All text of this library is
    therefore a list of bytes, and this module holds the few general
    operations on it: fixed text, decimal numerals, splitting at a separator
    and the piece after the last separator.

    The small laws below say that splitting and joining undo each other,
    which is what the reading of printed command lines and of paths rests
    on. -/

namespace TestRig

/-! ## Section 1: Text and numerals -/

/-- Text as the system holds it: any sequence of bytes. -/
abbrev Bytes : Type := List UInt8

/-- The UTF-8 bytes of a piece of fixed text. -/
def text (s : String) : Bytes := s.toUTF8.data.toList

/-- The numeral of `n` in base ten, without sign or leading zeros. -/
def decimal (n : Nat) : Bytes := (Nat.toDigits 10 n).map fun c => c.toNat.toUInt8

/-- The number that a non-empty run of digits denotes, or nothing for any
    other text. -/
def numeral? (s : Bytes) : Option Nat :=
  if s ≠ [] ∧ s.all (fun b => 0x30 ≤ b && b ≤ 0x39) then
    some (s.foldl (fun n b => 10 * n + (b.toNat - 0x30)) 0)
  else none

/-- The sum of some numbers. -/
def total (ns : List Nat) : Nat := ns.foldl (· + ·) 0

/-! ## Section 2: Bytes that separate -/

/-- The byte `/`. -/
def slash : UInt8 := 0x2F

/-- The byte that separates the words of a printed command line. -/
def space : UInt8 := 0x20

/-- The byte that ends a line. -/
def newline : UInt8 := 0x0A

/-- The byte that no name and no argument can hold. -/
def nul : UInt8 := 0

/-! ## Section 3: Pieces -/

/-- Put `b` in front of the first piece. -/
def consHead (b : UInt8) : List Bytes → List Bytes
  | [] => [[b]]
  | piece :: rest => (b :: piece) :: rest

/-- The pieces of `s` between the separators; `n` separators make `n + 1`
    pieces, empty ones kept. -/
def pieces (sep : UInt8) : Bytes → List Bytes
  | [] => [[]]
  | b :: s => if b = sep then [] :: pieces sep s else consHead b (pieces sep s)

/-- The pieces put together again, with one separator between each two. -/
def joined (sep : UInt8) : List Bytes → Bytes
  | [] => []
  | [piece] => piece
  | piece :: rest => piece ++ sep :: joined sep rest

/-- Everything after the last separator: all of `s` if it holds none. -/
def afterLast (sep : UInt8) (s : Bytes) : Bytes :=
  (s.reverse.takeWhile (· ≠ sep)).reverse

/-- The lines of `s`, without their ends; what follows the last end of line
    is a line if not empty. -/
def lines (s : Bytes) : List Bytes :=
  match (pieces newline s).reverse with
  | [] :: rest => rest.reverse
  | all => all.reverse

/-! ## Section 4: Laws of splitting -/

theorem pieces_ne_nil (sep : UInt8) (s : Bytes) : pieces sep s ≠ [] := by
  cases s with
  | nil => simp [pieces]
  | cons b s =>
    unfold pieces
    split
    · simp
    · cases pieces sep s <;> simp [consHead]

theorem joined_consHead (sep b : UInt8) (ps : List Bytes) (h : ps ≠ []) :
    joined sep (consHead b ps) = b :: joined sep ps := by
  match ps with
  | [] => exact absurd rfl h
  | [_] => rfl
  | _ :: _ :: _ => rfl

/-- Joining the pieces gives the text back. -/
theorem joined_pieces (sep : UInt8) (s : Bytes) : joined sep (pieces sep s) = s := by
  induction s with
  | nil => rfl
  | cons b s ih =>
    unfold pieces
    split
    · next h =>
      subst h
      cases hp : pieces b s with
      | nil => exact absurd hp (pieces_ne_nil b s)
      | cons p ps => rw [hp] at ih; simp [joined, ih]
    · rw [joined_consHead _ _ _ (pieces_ne_nil sep s), ih]

/-- No piece holds the separator. -/
theorem not_mem_of_mem_pieces {sep : UInt8} {s p : Bytes} (h : p ∈ pieces sep s) : sep ∉ p := by
  induction s generalizing p with
  | nil => simp_all [pieces]
  | cons b s ih =>
    unfold pieces at h
    split at h
    · rcases List.mem_cons.1 h with rfl | h
      · simp
      · exact ih h
    · next hb =>
      cases hp : pieces sep s with
      | nil => exact absurd hp (pieces_ne_nil sep s)
      | cons q qs =>
        rw [hp] at h ih
        rcases List.mem_cons.1 h with rfl | h
        · have := ih (List.mem_cons_self ..)
          simp only [List.mem_cons, not_or]
          exact ⟨fun e => hb e.symm, this⟩
        · exact ih (List.mem_cons_of_mem _ h)

end TestRig
