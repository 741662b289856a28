import TestRig.Shell.Pattern

/-! # Fields

    A word whose parameters were replaced is a row of pieces. Some pieces
    hold text that is to be split at the separators, others text that stays
    together. `fieldsOf` gives the fields that the pieces make; with a
    limit, the last field takes all that is left (`limitedFieldsOf`).

    A separator that is a blank or an end of line ends a field only if there
    is one, and takes further blanks and one other separator along. Any
    other separator always ends a field. Arguments that were joined by NUL
    bytes are split at these. -/

namespace TestRig.Shell

/-! ## Section 1: Pieces of words -/

/-- A piece of a word whose parameters were replaced. -/
inductive Piece where
  /-- Text that is not split. It makes a field even if it is empty. -/
  | kept (gs : List Glyph)
  /-- Text that is to be split at the separators. -/
  | splitting (gs : List Glyph)
  /-- Arguments that are split at the NUL bytes between them only. -/
  | arguments (gs : List Glyph)

/-- The glyphs of a piece. -/
def Piece.glyphs : Piece → List Glyph
  | .kept gs => gs
  | .splitting gs => gs
  | .arguments gs => gs

/-! ## Section 2: Splitting -/

/-- Fields under construction. -/
structure Fields where
  /-- The fields that are complete, the last one first. -/
  complete : List (List Glyph)
  /-- The field that has begun, its last glyph first. -/
  begun : Option (List Glyph)
  /-- Was the last field of this piece ended by a blank, so that one more
      separator belongs to its end? -/
  isAfterBlank : Bool
  /-- Did the piece before, and does this one, hold arguments? -/
  isAfterArguments : Bool
  /-- How many fields may still be ended, if that is limited. -/
  room : Option Nat
  /-- How much of the last field counts if nothing but separators comes any
      more. -/
  cutAt : Option Nat

namespace Fields

/-- Nothing yet. -/
def start (room : Option Nat) : Fields := ⟨[], none, false, false, room, none⟩

/-- Continue the field. -/
def extend (f : Fields) (g : Glyph) : Fields := { f with begun := some (g :: f.begun.getD []) }

/-- End the field. -/
def cut (f : Fields) : Fields :=
  { f with complete := (f.begun.getD []).reverse :: f.complete, begun := none }

/-- Take a glyph when no more field can be ended: only separators at the end
    will be left out. -/
def takeLast (f : Fields) (isSeparator isBlank : Bool) (g : Glyph) : Fields :=
  let here := (f.begun.getD []).length
  let f :=
    if isBlank then { f with cutAt := some (f.cutAt.getD here) }
    else
      let cutAt := if isSeparator && f.isAfterBlank then f.cutAt else none
      { f with cutAt, isAfterBlank := false }
  f.extend g

/-- Take a separator when a field can be ended. `endsInBlank` says that
    further separators may belong to it. -/
def takeSeparator (f : Fields) (endsInBlank : Bool) (g : Glyph) : Fields :=
  if endsInBlank && f.begun.isNone then { f with isAfterBlank := false }
  else
    let f := { f with isAfterBlank := endsInBlank }
    match f.room with
    | some 1 => { f with room := some 0, cutAt := some (f.begun.getD []).length }.extend g
    | room => { f with room := room.map (· - 1) }.cut

/-- Take a glyph of a text that is to be split. `afterArguments` says that
    arguments were split before, and `isArguments` that this is what is done
    now. -/
def take (separators : Bytes) (afterArguments isArguments : Bool) (f : Fields) (g : Glyph) : Fields :=
  let isSeparator := g.byte = nul || (!isArguments && separators.contains g.byte)
  let isBlank := isSeparator && (g.byte = nul || isBlank g.byte || g.byte = newline)
  if f.room = some 0 then f.takeLast isSeparator isBlank g
  else if f.isAfterBlank then
    if isBlank then f
    else
      let f := { f with isAfterBlank := false }
      if isSeparator then f else f.extend g
  else if isSeparator then f.takeSeparator (isBlank && !(afterArguments || isArguments)) g
  else f.extend g

/-- Take a piece. -/
def takePiece (separators : Bytes) (f : Fields) : Piece → Fields
  | .kept gs => { f with begun := some (gs.reverse ++ f.begun.getD []) }
  | .splitting gs =>
    let f' := { f with isAfterBlank := false, isAfterArguments := false }
    gs.foldl (Fields.take separators f.isAfterArguments false) f'
  | .arguments gs =>
    let f' := { f with isAfterBlank := false, isAfterArguments := true }
    gs.foldl (Fields.take separators f.isAfterArguments true) f'

/-- Come to the end. After arguments there is always a last field. -/
def finish (f : Fields) : List (List Glyph) :=
  let begun := match f.begun, f.cutAt with
    | some gs, some n => some (gs.drop (gs.length - n))
    | begun, _ => begun
  match begun with
  | some gs => (gs.reverse :: f.complete).reverse
  | none => (if f.isAfterArguments then [] :: f.complete else f.complete).reverse

end Fields

/-- The fields of pieces. -/
def fieldsOf (separators : Bytes) (pieces : List Piece) : List (List Glyph) :=
  (pieces.foldl (Fields.takePiece separators) (.start none)).finish

/-- The same, but at most `most` of them. A last one that is empty is left
    out. -/
def limitedFieldsOf (separators : Bytes) (most : Nat) (pieces : List Piece) : List (List Glyph) :=
  let fields := (pieces.foldl (Fields.takePiece separators) (.start (some most))).finish
  if fields.getLast? = some [] then fields.dropLast else fields

/-- The one text of pieces, not split. -/
def unsplit (pieces : List Piece) : List Glyph := pieces.flatMap Piece.glyphs

end TestRig.Shell
