import Mathlib.Data.List.DropRight
import TestRig.Proofs.Layout.Collision
import TestRig.Proofs.Text.Boundary

/-! # File names as the ends of URLs

    A file name is found by a scan from the right that stops at the first
    separator. The scan undoes the appending of a name: of all ways to take a
    text apart there is one that leaves a name without a separator behind a
    text that a name can follow, and the scan finds it
    (`afterLast_append_eq_iff`).

    * `OpensPiece`: the texts that a name can follow, which are the empty one
      and those with a separator at the end.
    * `afterLast_lossy`, `isUtf8_append_iff`: such a cut lies between two
      characters, so names are decoded on their own and the parts of a string
      are strings.
    * `Part.base`, `Part.name`: a layout as five joins. No name in them
      starts at the root, so no join forgets its base.
    * `IsEntry`: a path that is a directory, one separator, and a name.

    Everything said about where archives are stored rests on this: an
    absolute file name would be stored wherever the URL says. -/

namespace TestRig

/-! ## Section 1: The last piece of a text -/

/-- The text is empty or ends in a separator, so a new piece starts behind
    it. -/
def OpensPiece (sep : UInt8) (s : Bytes) : Prop := s = [] ∨ s.getLast? = some sep

/-- Everything up to the last separator and with it: nothing if `s` holds none. -/
def upToLast (sep : UInt8) (s : Bytes) : Bytes := s.rdropWhile (· ≠ sep)

section cuts

variable (sep : UInt8)

theorem afterLast_eq_rtakeWhile (s : Bytes) : afterLast sep s = s.rtakeWhile (· ≠ sep) := rfl

theorem upToLast_append_afterLast (s : Bytes) : upToLast sep s ++ afterLast sep s = s :=
  List.rdropWhile_append_rtakeWhile

theorem opensPiece_concat (s : Bytes) : OpensPiece sep (s ++ [sep]) := .inr (by simp)

theorem opensPiece_upToLast (s : Bytes) : OpensPiece sep (upToLast sep s) := by
  by_cases hempty : upToLast sep s = []
  · exact .inl hempty
  · -- the scan stops at a separator unless it comes to the start of the text
    have hlast : (upToLast sep s).getLast hempty = sep := by
      have hstop := List.rdropWhile_last_not (fun b => decide (b ≠ sep)) s hempty
      rwa [decide_eq_true_iff, not_not] at hstop
    right
    rw [List.getLast?_eq_some_getLast hempty, hlast]

end cuts

section append

variable {sep : UInt8} {b n : Bytes}

/-- The scan does not go past a separator. -/
theorem afterLast_append (hb : OpensPiece sep b) (n : Bytes) :
    afterLast sep (b ++ n) = afterLast sep n := by
  simp only [afterLast_eq_rtakeWhile]
  induction n using List.reverseRecOn with
  | nil =>
    rw [List.append_nil, List.rtakeWhile_nil, List.rtakeWhile_eq_nil_iff]
    intro hne
    have hlast : b.getLast? = some sep := hb.resolve_left hne
    have hsep : b.getLast hne = sep := by
      rwa [List.getLast?_eq_some_getLast hne, Option.some.injEq] at hlast
    simp [hsep]
  | append_singleton n x ih =>
    rw [← List.append_assoc, List.rtakeWhile_concat, List.rtakeWhile_concat, ih]

theorem afterLast_of_not_mem (hn : sep ∉ n) : afterLast sep n = n := by
  rw [afterLast_eq_rtakeWhile, List.rtakeWhile_eq_self_iff]
  intro x hx
  have hne : x ≠ sep := fun e => hn (e ▸ hx)
  simpa using hne

/-- What was appended comes back exactly if it was one piece, and began
    one. -/
theorem afterLast_append_eq_iff : afterLast sep (b ++ n) = n ↔ OpensPiece sep b ∧ sep ∉ n := by
  constructor
  · intro h
    have hcut := upToLast_append_afterLast sep (b ++ n)
    rw [h] at hcut
    have hb : upToLast sep (b ++ n) = b := List.append_cancel_right hcut
    constructor
    · rw [← hb]
      exact opensPiece_upToLast sep (b ++ n)
    · rw [← h]
      exact not_mem_afterLast sep (b ++ n)
  · intro h
    obtain ⟨hb, hn⟩ := h
    rw [afterLast_append hb, afterLast_of_not_mem hn]

end append

/-! ## Section 2: Cuts between characters -/

section characters

variable {sep : UInt8} {b n : Bytes} (hsep : sep < 0x80)
include hsep

/-- No character lies across the border, so both sides decode apart. -/
theorem lossy_append (hb : OpensPiece sep b) (n : Bytes) : lossy (b ++ n) = lossy b ++ lossy n := by
  rcases hb with rfl | hlast
  · rfl
  · obtain ⟨init, rfl⟩ := List.getLast?_eq_some_iff.mp hlast
    have hnil : lossy [] = [] := rfl
    rw [List.append_assoc, List.singleton_append, lossy_append_cons hsep, lossy_append_cons hsep,
      hnil, List.append_assoc, List.singleton_append]

theorem opensPiece_lossy (hb : OpensPiece sep b) : OpensPiece sep (lossy b) := by
  rcases hb with rfl | hlast
  · exact .inl rfl
  · obtain ⟨init, rfl⟩ := List.getLast?_eq_some_iff.mp hlast
    rw [lossy_append_cons hsep]
    exact opensPiece_concat sep (lossy init)

/-- The last piece of what is shown is what is shown of the last piece. -/
theorem afterLast_lossy (s : Bytes) : afterLast sep (lossy s) = lossy (afterLast sep s) := by
  have hopens : OpensPiece sep (upToLast sep s) := opensPiece_upToLast sep s
  have hcut : lossy s = lossy (upToLast sep s) ++ lossy (afterLast sep s) := by
    rw [← lossy_append hsep hopens, upToLast_append_afterLast]
  have hpiece : sep ∉ lossy (afterLast sep s) := by
    intro h
    exact not_mem_afterLast sep s (mem_of_mem_lossy hsep h)
  rw [hcut]
  exact afterLast_append_eq_iff.mpr ⟨opensPiece_lossy hsep hopens, hpiece⟩

/-- A text that is cut before its last piece is UTF-8 exactly if both parts
    are. -/
theorem isUtf8_append_iff (hcut : afterLast sep (b ++ n) = n) :
    IsUtf8 (b ++ n) ↔ IsUtf8 b ∧ IsUtf8 n := by
  constructor
  · intro h
    rw [isUtf8_iff_lossy_eq] at h
    have hname : lossy n = n :=
      calc lossy n = lossy (afterLast sep (b ++ n)) := by rw [hcut]
        _ = afterLast sep (lossy (b ++ n)) := (afterLast_lossy hsep (b ++ n)).symm
        _ = afterLast sep (b ++ n) := by rw [h]
        _ = n := hcut
    have hbefore : lossy b = b := by
      rw [lossy_append hsep (afterLast_append_eq_iff.mp hcut).1, hname] at h
      exact List.append_cancel_right h
    exact ⟨isUtf8_iff_lossy_eq.mpr hbefore, isUtf8_iff_lossy_eq.mpr hname⟩
  · intro h
    obtain ⟨hb, hn⟩ := h
    exact hb.append hn

end characters

/-! ## Section 3: Layouts as joins -/

/-- The path of `name` in the directory `dir`: the two with one separator
    between them, since neither has one at the border. -/
structure Path.IsEntry (dir : Path) (name : Bytes) (path : Path) : Prop where
  /-- The bytes of the path. -/
  bytes : path = dir ++ slash :: name
  /-- The separator is not the second one after the directory, -/
  before : dir.endsInSlash = false
  /-- and there is none after it. -/
  after : slash ∉ name

/-- A name behind a name is an entry of the directory that the first one
    names. -/
theorem Path.isEntry_join {base m n : Bytes} (hm : slash ∉ m) (hne : m ≠ []) (hn : slash ∉ n) :
    IsEntry (join base m) n (join (join base m) n) where
  bytes := join_join hm hne hn
  before := not_endsInSlash_join hm hne
  after := hn

namespace Layout

/-- What the path of a part is joined to. -/
def Part.base (root : Path) (l : Layout) : Part → Path
  | .installDir => root
  | .pluginsDir => l.installDir
  | .runnerJar => l.installDir
  | .coverageJar => l.pluginsDir
  | .configFile => root

/-- What is joined to it. -/
def Part.name (artifacts : Artifacts) : Part → Bytes
  | .installDir => installName
  | .pluginsDir => pluginsName
  | .runnerJar => fileName artifacts.runner
  | .coverageJar => fileName artifacts.coverage
  | .configFile => configName

/-- Each path is one join. -/
theorem path_eq_join (root : Path) (artifacts : Artifacts) (p : Part) :
    let l := resolve root artifacts
    l.path p = Path.join (p.base root l) (p.name artifacts) := by
  cases p <;> rfl

theorem slash_not_mem_name (artifacts : Artifacts) (p : Part) : slash ∉ p.name artifacts := by
  cases p with
  | installDir => exact slash_not_mem_installName
  | pluginsDir => exact slash_not_mem_pluginsName
  | runnerJar => exact slash_not_mem_fileName artifacts.runner
  | coverageJar => exact slash_not_mem_fileName artifacts.coverage
  | configFile => exact slash_not_mem_configName

/-! ## Section 4: File names -/

/-- The file name of a URL is one part of it, and the other part is
    determined. -/
structure CutsUrl (url : Url) : Prop where
  /-- A file name is one piece. -/
  piece : slash ∉ fileName url
  /-- There is one text before it, and a piece can follow that text. -/
  before : ∃! b, OpensPiece slash b ∧ url = b ++ fileName url
  /-- A URL that is a string falls into two strings. -/
  characters : ∀ b, url = b ++ fileName url → (IsUtf8 url ↔ IsUtf8 b ∧ IsUtf8 (fileName url))

/-- A layout keeps every base in the paths that are joined to it. -/
structure KeepsBases (root : Path) (artifacts : Artifacts) (l : Layout) : Prop where
  /-- Every path is a join, and no join has an absolute right side. -/
  relative : ∀ p : Part, l.path p = Path.join (p.base root l) (p.name artifacts) ∧
    Path.isAbsolute (p.name artifacts) = false
  /-- The archive of the runner is in the directory of the installation. -/
  runner : Path.IsEntry l.installDir (fileName artifacts.runner) l.runnerJar
  /-- The archive of the plugin is in the directory of the plugins. -/
  coverage : Path.IsEntry l.pluginsDir (fileName artifacts.coverage) l.coverageJar

theorem cutsUrl (url : Url) : CutsUrl url where
  piece := slash_not_mem_fileName url
  before := by
    have hcut : url = upToLast slash url ++ fileName url :=
      (upToLast_append_afterLast slash url).symm
    refine ⟨upToLast slash url, ⟨opensPiece_upToLast slash url, hcut⟩, ?_⟩
    rintro b ⟨-, hb⟩
    exact List.append_cancel_right (hb.symm.trans hcut)
  characters := by
    intro b hb
    have hname : fileName (b ++ fileName url) = fileName url := by rw [← hb]
    have hiff := isUtf8_append_iff (by decide) hname
    rwa [← hb] at hiff

theorem keepsBases (root : Path) (artifacts : Artifacts) :
    KeepsBases root artifacts (resolve root artifacts) where
  relative := by
    intro p
    refine ⟨path_eq_join root artifacts p, ?_⟩
    exact Path.not_isAbsolute_of_slash_not_mem (slash_not_mem_name artifacts p)
  runner := by
    have hne : installName ≠ [] := by decide +kernel
    have hpiece : slash ∉ fileName artifacts.runner := slash_not_mem_fileName artifacts.runner
    exact Path.isEntry_join slash_not_mem_installName hne hpiece
  coverage := by
    have hne : pluginsName ≠ [] := by decide +kernel
    have hpiece : slash ∉ fileName artifacts.coverage := slash_not_mem_fileName artifacts.coverage
    exact Path.isEntry_join slash_not_mem_pluginsName hne hpiece

/-- Taking the file name undoes appending one: it gives back what was
    appended exactly if that was one piece behind a text that a piece can
    follow, and every URL is made in this way. So no file name is absolute,
    and an archive is stored under its name in the directory that is meant
    for it, whatever the root and the URLs are. -/
theorem fileName_undoes_append :
    (∀ url : Url, CutsUrl url) ∧
    (∀ b n : Bytes, fileName (b ++ n) = n ↔ OpensPiece slash b ∧ slash ∉ n) ∧
    ∀ (root : Path) (artifacts : Artifacts),
      KeepsBases root artifacts (resolve root artifacts) := by
  refine ⟨cutsUrl, ?_, keepsBases⟩
  intro b n
  exact afterLast_append_eq_iff

/-- Separators in a query count as well, and a separator at the end leaves no
    name. -/
example : fileName (text "http://host/run.jar?from=a/b.jar") = text "b.jar" ∧
    fileName (text "http://host/dir/") = [] ∧ fileName (text "plain.jar") = text "plain.jar" := by
  decide +kernel

end Layout

end TestRig
