import TestRig.Layout
import TestRig.Tree.Walk

/-! # What joining does to a path

    The walk of a path looks at three things: where the path starts, the
    names in it, and whether a separator ends it. This module says what
    `Path.join` does to each of them when the joined name holds no
    separator, which is all that a layout ever joins.

    A path that something is joined to counts as a directory, and the same
    directory has two spellings at most (`eq_of_asDirectory_eq`). -/

namespace TestRig

/-! ## Section 1: Pieces of an appended text -/

theorem consHead_append (b : UInt8) (ps qs : List Bytes) (h : ps ≠ []) :
    consHead b (ps ++ qs) = consHead b ps ++ qs := by
  cases ps with
  | nil => exact absurd rfl h
  | cons p ps => rfl

theorem pieces_append_sep (sep : UInt8) (s t : Bytes) :
    pieces sep (s ++ sep :: t) = pieces sep s ++ pieces sep t := by
  induction s with
  | nil => simp [pieces]
  | cons b s ih =>
    by_cases hb : b = sep
    · simp [pieces, hb, ih]
    · simp only [List.cons_append, pieces, if_neg hb, ih]
      exact consHead_append b _ _ (pieces_ne_nil sep s)

theorem pieces_eq_singleton {sep : UInt8} {s : Bytes} (h : sep ∉ s) :
    pieces sep s = [s] := by
  induction s with
  | nil => rfl
  | cons b s ih =>
    have hb : b ≠ sep := fun e => h (by simp [e])
    have hs : sep ∉ s := fun e => h (by simp [e])
    simp [pieces, hb, ih hs, consHead]

theorem not_mem_afterLast (sep : UInt8) (s : Bytes) : sep ∉ afterLast sep s := by
  intro h
  unfold afterLast at h
  have := List.all_takeWhile (l := s.reverse) (p := fun b => decide (b ≠ sep))
  rw [List.all_eq_true] at this
  simpa using this sep (List.mem_reverse.mp h)

/-- A file name holds no separator, whatever the URL is. -/
theorem slash_not_mem_fileName (url : Url) : slash ∉ fileName url :=
  not_mem_afterLast slash url

namespace Path

/-! ## Section 2: Names -/

theorem names_append_slash (p q : Path) : names (p ++ slash :: q) = p.names ++ q.names := by
  simp [names, pieces_append_sep]

@[simp] theorem names_nil : names [] = [] := rfl

theorem names_of_slash_not_mem {name : Bytes} (h : slash ∉ name) :
    names name = if name = [] then [] else [name] := by
  by_cases hn : name = []
  · simp [hn]
  · simp [names, pieces_eq_singleton h, hn]

/-- What a separator at the end of a path leaves before it. -/
theorem exists_of_endsInSlash {p : Path} (h : p.endsInSlash) : ∃ q, p = q ++ [slash] := by
  have hl : p.getLast? = some slash := by simpa [endsInSlash] using h
  exact List.getLast?_eq_some_iff.mp hl

/-- Seen as a directory, a path with a name after it has its own names and
    the names after it. -/
theorem names_asDirectory_append (p q : Path) :
    names (p.asDirectory ++ q) = p.names ++ q.names := by
  unfold asDirectory
  split
  · next h =>
    rcases h with rfl | h
    · simp
    · obtain ⟨r, rfl⟩ := exists_of_endsInSlash h
      rw [List.append_assoc, List.singleton_append, names_append_slash, names_append_slash]
      simp
  · rw [List.append_assoc, List.singleton_append, names_append_slash]

/-! ## Section 3: Joining a name without a separator -/

section join

variable {base name : Path} (h : slash ∉ name)
include h

theorem not_isAbsolute_of_slash_not_mem : name.isAbsolute = false := by
  cases name with
  | nil => rfl
  | cons b rest =>
    have hb : b ≠ slash := fun e => h (by simp [e])
    simp [isAbsolute, hb]

theorem join_eq : join base name = base.asDirectory ++ name := by
  simp [join, not_isAbsolute_of_slash_not_mem h]

/-- An empty name adds nothing to the names of a path. -/
theorem names_join : (join base name).names = base.names ++ if name = [] then [] else [name] := by
  rw [join_eq h, names_asDirectory_append, names_of_slash_not_mem h]

/-- A joined name does not change where the path starts. -/
theorem start_join (cwd : Place) : Tree.start cwd (join base name) = Tree.start cwd base := by
  have habs : (join base name).isAbsolute = base.isAbsolute := by
    rw [join_eq h]
    cases base with
    | nil =>
      have hnil : isAbsolute [] = false := rfl
      simp [asDirectory, hnil, not_isAbsolute_of_slash_not_mem h]
    | cons b rest =>
      unfold asDirectory
      split <;> simp [isAbsolute]
  simp [Tree.start, habs]

theorem nul_mem_join : nul ∈ join base name ↔ nul ∈ base ∨ nul ∈ name := by
  rw [join_eq h, List.mem_append]
  have hdir : nul ∈ base.asDirectory ↔ nul ∈ base := by
    unfold asDirectory
    split
    · rfl
    · simp [nul, slash]
  rw [hdir]

theorem join_ne_nil (hn : name ≠ []) : join base name ≠ [] := by
  rw [join_eq h]
  simp [hn]

theorem not_endsInSlash_join (hn : name ≠ []) : (join base name).endsInSlash = false := by
  rw [join_eq h, endsInSlash, List.getLast?_append, List.getLast?_eq_some_getLast hn]
  have hlast : name.getLast hn ≠ slash := fun e => h (e ▸ List.getLast_mem hn)
  simpa using hlast

/-- What a name was joined to is no directory by its spelling yet. -/
theorem asDirectory_join (hn : name ≠ []) :
    (join base name).asDirectory = join base name ++ [slash] := by
  have hend : ¬ (join base name).endsInSlash := by simp [not_endsInSlash_join h hn]
  rw [asDirectory, if_neg (not_or.mpr ⟨join_ne_nil h hn, hend⟩)]

theorem length_le_length_join : base.length ≤ (join base name).length := by
  rw [join_eq h]
  have hdir : base.length ≤ base.asDirectory.length := by
    unfold asDirectory
    split
    · exact Nat.le_refl _
    · simp
  rw [List.length_append]
  omega

end join

/-- An empty name leaves a separator at the end of a path. -/
theorem endsInSlash_join_nil {base : Path} (h : base ≠ []) : (join base []).endsInSlash := by
  rw [join_eq (by simp)]
  unfold asDirectory
  split
  · next hb =>
    rcases hb with hb | hb
    · exact absurd hb h
    · simpa using hb
  · simp [endsInSlash]

/-! ## Section 4: Spellings of a directory -/

section spellings

variable {p q : Path}

theorem asDirectory_cases (p : Path) : p.asDirectory = p ∨ p.asDirectory = p ++ [slash] := by
  unfold asDirectory
  split
  · exact .inl rfl
  · exact .inr rfl

/-- Two spellings of a directory that hold the same number of separators are
    the same, since they differ in one at the end at most. -/
theorem eq_of_asDirectory_eq (h : p.asDirectory = q.asDirectory)
    (hcount : p.count slash = q.count slash) : p = q := by
  rcases p.asDirectory_cases with hp | hp
  · rcases q.asDirectory_cases with hq | hq
    · rw [← hp, h, hq]
    · -- only `q` got a separator, so `p` has one more
      rw [← hp, h, hq, List.count_append] at hcount
      simp at hcount
  · rcases q.asDirectory_cases with hq | hq
    · rw [← hq, ← h, hp, List.count_append] at hcount
      simp at hcount
    · rw [hp, hq] at h
      exact List.append_cancel_right h

end spellings

end Path

end TestRig
