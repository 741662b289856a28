import TestRig.CommandLine
import TestRig.Proofs.Path.Join
import TestRig.Proofs.Text.Boundary

/-! # What is shown of a command line

    A command line is shown word by word, each one decoded on its own, with
    a space between them. That is the same as decoding the whole line at
    once, since no sequence of bytes lies across a space
    (`display_decodes_line`).

    The spaces can be found again in what is shown. So if no word holds one,
    the words can be read back: exactly if they are UTF-8, and up to what is
    replaced in them if they are not (`ReadsBack`). -/

namespace TestRig

/-! ## Section 1: Joined texts -/

section joined

variable {sep : UInt8}

theorem joined_cons (piece : Bytes) (rest : List Bytes) :
    joined sep (piece :: rest) = piece ++ rest.flatMap fun s => sep :: s := by
  induction rest generalizing piece with
  | nil => simp [joined]
  | cons s rest ih =>
    show piece ++ sep :: joined sep (s :: rest) = _
    rw [ih s, List.flatMap_cons]
    rfl

/-- Texts without the separator can be taken apart again. -/
theorem pieces_joined {ss : List Bytes} (hne : ss ≠ []) (h : ∀ s ∈ ss, sep ∉ s) :
    pieces sep (joined sep ss) = ss := by
  induction ss with
  | nil => exact absurd rfl hne
  | cons s ss ih =>
    have hs : sep ∉ s := h s List.mem_cons_self
    cases ss with
    | nil => exact pieces_eq_singleton hs
    | cons s' ss =>
      have hrest := ih (by simp) fun t ht => h t (List.mem_cons_of_mem _ ht)
      show pieces sep (s ++ sep :: joined sep (s' :: ss)) = _
      rw [pieces_append_sep, pieces_eq_singleton hs, hrest]
      rfl

end joined

namespace CommandLine

/-! ## Section 2: The whole line -/

theorem display_eq_joined (c : CommandLine) : c.display = joined space (c.argv.map lossy) := by
  rw [argv, List.map_cons, joined_cons, List.flatMap_map]
  rfl

/-- What is shown of a command line is what the whole line decodes to, where
    each maximal part that belongs to no character is replaced once, and
    there is nothing else that it decodes to. -/
theorem display_decodes_line (program : Bytes) (args : List Bytes) :
    let c : CommandLine := ⟨program, args⟩
    let line := joined space (program :: args)
    c.display = lossy line ∧ ∀ out, Decodes line out ↔ out = c.display := by
  intro c line
  have hline : c.display = lossy line := by
    rw [display_eq_joined, lossy_joined (by decide)]
    rfl
  refine ⟨hline, ?_⟩
  intro out
  rw [hline]
  exact decodes_iff

/-! ## Section 3: Reading the words back -/

/-- No word holds the byte that is put between words. -/
def IsSpaceless (c : CommandLine) : Prop := ∀ word ∈ c.argv, space ∉ word

instance (c : CommandLine) : Decidable c.IsSpaceless := inferInstanceAs (Decidable (∀ _ ∈ _, _))

/-- Every word is UTF-8. -/
def IsUtf8 (c : CommandLine) : Prop := ∀ word ∈ c.argv, TestRig.IsUtf8 word

/-- What is shown of a command line tells its words. -/
structure ReadsBack (c : CommandLine) : Prop where
  /-- The pieces between the spaces are the words, each one decoded. -/
  words : pieces space c.display = c.argv.map lossy
  /-- Words that are UTF-8 are the pieces themselves, -/
  exactly : c.IsUtf8 → pieces space c.display = c.argv
  /-- and no other such command line is shown in the same way. -/
  only : c.IsUtf8 → ∀ d : CommandLine, d.IsSpaceless → d.IsUtf8 → d.display = c.display → d = c

theorem pieces_display {c : CommandLine} (h : c.IsSpaceless) :
    pieces space c.display = c.argv.map lossy := by
  rw [display_eq_joined]
  refine pieces_joined (by simp [argv]) ?_
  intro s hs hspace
  obtain ⟨word, hword, rfl⟩ := List.mem_map.mp hs
  exact h word hword (mem_of_mem_lossy (by decide) hspace)

theorem pieces_display_of_isUtf8 {c : CommandLine} (h : c.IsSpaceless) (hc : c.IsUtf8) :
    pieces space c.display = c.argv := by
  have hwords : c.argv.map lossy = c.argv.map id :=
    List.map_congr_left fun word hword => lossy_of_isUtf8 (hc word hword)
  rw [pieces_display h, hwords, List.map_id]

theorem argv_injective {c d : CommandLine} (h : c.argv = d.argv) : c = d := by
  cases c
  cases d
  cases h
  rfl

theorem reads_back (c : CommandLine) (h : c.IsSpaceless) : ReadsBack c where
  words := pieces_display h
  exactly := by
    intro hc
    exact pieces_display_of_isUtf8 h hc
  only := by
    intro hc d hd hd' hshown
    apply argv_injective
    rw [← pieces_display_of_isUtf8 hd hd', hshown, pieces_display_of_isUtf8 h hc]

/-- A command line with empty words at both ends, and one that breaks off in
    the middle of a character. -/
def ragged : CommandLine := ⟨[], [[0xE2, 0x82], text "é", []]⟩

/-- Its spaces are told from the empty words between them. -/
theorem ragged_reads_back :
    ragged.IsSpaceless ∧ ReadsBack ragged ∧
      pieces space ragged.display = [[], Lossy.replacement, text "é", []] := by
  have hspaceless : ragged.IsSpaceless := by decide +kernel
  have hpieces : pieces space ragged.display = [[], Lossy.replacement, text "é", []] := by
    decide +kernel
  exact ⟨hspaceless, reads_back ragged hspaceless, hpieces⟩

end CommandLine

end TestRig
