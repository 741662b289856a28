import TestRig.Proofs.Path.Join

/-! # Components of a joined path

    Comparing goes by components, and joining goes by bytes. This module
    shows that the two fit together: the components of a joined path are
    those of its base, and then what the name adds. The one place where this
    could fail is the start of the path, since a leading `.` counts only
    there. It does not, because a name is joined behind a separator unless
    the base is empty.

    * `opening`: the component that stands for the start of a path.
    * `opening_asDirectory_append`: what comes after a path that is not
      empty does not change its start.
    * `plain`: what a file name adds to a path, as a list of names.
    * `components_join`: the components of a joined path. -/

namespace TestRig.Path

/-! ## Section 1: The start of a path -/

/-- The root, or a leading `.`, or nothing. -/
def opening (p : Path) : List Component :=
  if p.isAbsolute then [Component.root]
  else if (pieces slash p).head? = some dot then [Component.here] else []

theorem components_eq (p : Path) :
    p.components = p.opening ++ p.names.filterMap Component.ofName? := rfl

theorem isAbsolute_append {p : Path} (hp : p ≠ []) (q : Path) :
    isAbsolute (p ++ q) = p.isAbsolute := by
  cases p with
  | nil => exact absurd rfl hp
  | cons b p => rfl

theorem head_pieces_append_slash (p q : Path) :
    (pieces slash (p ++ slash :: q)).head? = (pieces slash p).head? := by
  rw [pieces_append_sep]
  cases hp : pieces slash p with
  | nil => exact absurd hp (pieces_ne_nil slash p)
  | cons piece rest => rfl

/-- Seen as a directory, a path keeps its start whatever comes after it. -/
theorem opening_asDirectory_append {p : Path} (hp : p ≠ []) (q : Path) :
    opening (p.asDirectory ++ q) = p.opening := by
  have hhead : (pieces slash (p.asDirectory ++ q)).head? = (pieces slash p).head? := by
    unfold asDirectory
    split
    · next h =>
      obtain ⟨r, rfl⟩ := exists_of_endsInSlash (h.resolve_left hp)
      rw [List.append_assoc, List.singleton_append, head_pieces_append_slash,
        head_pieces_append_slash]
    · rw [List.append_assoc, List.singleton_append, head_pieces_append_slash]
  have habsolute : isAbsolute (p.asDirectory ++ q) = p.isAbsolute := by
    unfold asDirectory
    split
    · exact isAbsolute_append hp q
    · rw [List.append_assoc]
      exact isAbsolute_append hp _
  rw [opening, hhead, habsolute]
  rfl

theorem opening_eq_nil {name : Bytes} (h : slash ∉ name) (hdot : name ≠ dot) :
    opening name = [] := by
  rw [opening, not_isAbsolute_of_slash_not_mem h, pieces_eq_singleton h]
  simp [hdot]

/-! ## Section 2: What a name adds -/

/-- The names that a file name adds to a path: none if it is empty or `.`. -/
def plain (name : Bytes) : List Bytes := if name = [] ∨ name = dot then [] else [name]

/-- The component that stands for a name that adds one. -/
def Component.ofPlain (name : Bytes) : Component := if name = dotDot then .parent else .name name

theorem Component.ofPlain_injective {m n : Bytes} (h : ofPlain m = ofPlain n) : m = n := by
  unfold ofPlain at h
  by_cases hm : m = dotDot
  · by_cases hn : n = dotDot
    · rw [hm, hn]
    · simp [hm, hn] at h
  · by_cases hn : n = dotDot
    · simp [hm, hn] at h
    · simpa [hm, hn] using h

/-- What a file name adds to the components of a path. -/
def added (name : Bytes) : List Component := (plain name).map Component.ofPlain

theorem added_eq_iff {m n : Bytes} : added m = added n ↔ plain m = plain n := by
  constructor
  · intro h
    exact List.map_inj_right (fun _ _ => Component.ofPlain_injective) |>.mp h
  · intro h
    rw [added, h]
    rfl

theorem filterMap_names {name : Bytes} (h : slash ∉ name) :
    (names name).filterMap Component.ofName? = added name := by
  rw [names_of_slash_not_mem h, added, plain]
  by_cases hempty : name = []
  · simp [hempty]
  · by_cases hdot : name = dot
    · simp [hdot, Component.ofName?, dot]
    · have hname : Component.ofName? name = some (Component.ofPlain name) := by
        unfold Component.ofName? Component.ofPlain
        rw [if_neg hdot]
        split <;> rfl
      simp [hempty, hdot, hname]

/-! ## Section 3: Joined paths -/

/-- A joined name adds its component at the end. Only a `.` that is joined to
    the empty path would be a leading one. -/
theorem components_join {base name : Path} (h : slash ∉ name) (hstart : base ≠ [] ∨ name ≠ dot) :
    (join base name).components = base.components ++ added name := by
  rw [join_eq h, components_eq, components_eq, names_asDirectory_append, List.filterMap_append,
    filterMap_names h, ← List.append_assoc]
  have hopening : opening (base.asDirectory ++ name) = base.opening := by
    by_cases hbase : base = []
    · subst hbase
      exact opening_eq_nil h (hstart.resolve_left (fun hne => hne rfl))
    · exact opening_asDirectory_append hbase name
  rw [hopening]

/-- A `.` counts as a whole path, and not behind a name. -/
example : components [] ≠ components dot ∧ components (text "a") = components (text "a/.") := by
  decide +kernel

end TestRig.Path
