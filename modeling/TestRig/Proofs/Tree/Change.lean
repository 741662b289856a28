import TestRig.Proofs.Path.Join
import TestRig.Proofs.Tree.Arrival

/-! # What an edit of a tree does

    Each edit puts at most one node, and this module says where and when:

    * `makeDirectory_eq_ok_iff`: a directory is made exactly where a path
      leads to a vacant name (`Tree.Vacant`).
    * `filePlace_spec`: a file is created where nothing but a file is.
    * `write_truncate`: a file that is created and then written holds what
      was written and nothing else.

    The last section is about paths that are joined from a directory and a
    name. When the directory is known to be there and the name to be free,
    only a NUL byte and the limits can stand in the way
    (`makeDirectory_join`, `filePlace_join`). -/

namespace TestRig.Tree

/-! ## Section 1: Putting nodes -/

section put

variable {t : Tree} {p : Place} {n m : Node}

theorem admits_of_free {dir : Place} {name : Name} (hdir : t.hasDirectory dir)
    (hfree : t.nodeAt (dir ++ [name]) = none) : t.Admits (dir ++ [name]) n := by
  refine ⟨by simp, by simpa using hdir, fun h => ?_⟩
  rw [hasDirectory, hfree] at h
  cases h

theorem nodeAt_put_self (h : t.Admits p n) : (t.put p n).nodeAt p = some n := by
  rw [nodeAt_put h, if_pos rfl]

theorem nodeAt_put_of_ne (h : t.Admits p n) {q : Place} (hq : p ≠ q) :
    (t.put p n).nodeAt q = t.nodeAt q := by
  rw [nodeAt_put h, if_neg hq]

theorem dropLast_ne_self (h : p ≠ []) : p ≠ p.dropLast := by
  intro e
  have hlen := congrArg List.length e
  have hpos := List.length_pos_iff.mpr h
  rw [List.length_dropLast] at hlen
  omega

/-- A node can be put in place of one that is no directory. -/
theorem admits_put (h : t.Admits p n) (hn : n ≠ .directory) : (t.put p n).Admits p m := by
  refine ⟨h.1, ?_, fun hd => ?_⟩
  · rw [hasDirectory, nodeAt_put_of_ne h (dropLast_ne_self h.1)]
    exact h.2.1
  · rw [hasDirectory, nodeAt_put_self h] at hd
    exact absurd (Option.some.inj hd) hn

/-- Of two nodes put at one place the second stays. -/
theorem put_put (h : t.Admits p n) (hn : n ≠ .directory) (hm : t.Admits p m) :
    (t.put p n).put p m = t.put p m := by
  apply ext_nodeAt
  intro q
  rw [nodeAt_put (admits_put h hn), nodeAt_put h, nodeAt_put hm]
  split <;> rfl

end put

/-! ## Section 2: Making a directory -/

/-- The path leads to a name in a directory, and nothing is there yet. -/
structure Vacant (t : Tree) (cwd : Place) (path : Path) (dir : Place) (name : Name) : Prop where
  noNul : nul ∉ path
  short : path.length ≤ pathLimit
  leads : ∃ names left, path.names = names ++ [name] ∧
    t.Follows linkLimit (start cwd path) names left dir
  entryName : IsEntryName name
  shortName : name.length ≤ nameLimit
  isDirectory : t.hasDirectory dir
  free : t.nodeAt (dir ++ [name]) = none

theorem Vacant.admits {t : Tree} {cwd : Place} {path : Path} {dir : Place} {name : Name} {n : Node}
    (h : t.Vacant cwd path dir name) : t.Admits (dir ++ [name]) n :=
  admits_of_free h.isDirectory h.free

/-- A path is looked up by a walk, unless it cannot be passed at all. -/
theorem locate_eq_ok_iff {t : Tree} {purpose : Purpose} {cwd : Place} {path : Path} {spot : Spot} :
    t.locate purpose cwd path = .ok spot ↔
      nul ∉ path ∧ path ≠ [] ∧ path.length ≤ pathLimit ∧
        t.Arrives purpose linkLimit path.endsInSlash (start cwd path) path.names spot := by
  rw [← walk_eq_ok_iff]
  unfold locate
  split
  · next h => simp [h]
  · next h =>
    split
    · next h' => simp [h']
    · next h' =>
      split
      · next hlong => simp [Nat.not_le.mpr hlong]
      · next hshort =>
        simp only [h, h', not_false_eq_true, Nat.le_of_not_lt hshort, true_and, ne_eq]
        cases t.walk purpose linkLimit path.endsInSlash (start cwd path) path.names with
        | error e =>
          constructor
          · intro hok
            cases hok
          · intro hok
            cases hok
        | ok s =>
          constructor
          · intro hok
            cases hok
            rfl
          · intro hok
            cases hok
            rfl

theorem makeDirectory_eq_ok_iff_locate {t t' : Tree} {cwd : Place} {path : Path} :
    t.makeDirectory cwd path = .ok t' ↔
      ∃ dir name, t.locate .makeDirectory cwd path = .ok (.entry dir name none) ∧
        t' = t.put (dir ++ [name]) .directory := by
  unfold makeDirectory
  cases t.locate .makeDirectory cwd path with
  | error e => simp
  | ok spot =>
    cases spot with
    | itself dir => simp
    | entry dir name found => cases found <;> simp [eq_comm, and_assoc]

/-- A directory is made exactly where a path leads to a vacant name. -/
theorem makeDirectory_eq_ok_iff {t t' : Tree} {cwd : Place} {path : Path} :
    t.makeDirectory cwd path = .ok t' ↔
      ∃ dir name, t.Vacant cwd path dir name ∧ t' = t.put (dir ++ [name]) .directory := by
  rw [makeDirectory_eq_ok_iff_locate]
  refine exists_congr fun dir => exists_congr fun name => and_congr_left fun _ => ?_
  rw [locate_eq_ok_iff]
  constructor
  · rintro ⟨hnul, -, hlen, ha⟩
    obtain ⟨names, last, hnames⟩ : ∃ names last, path.names = names ++ [last] := by
      rcases List.eq_nil_or_concat path.names with h | ⟨names, last, h⟩
      · rw [h] at ha
        cases ha
      · exact ⟨names, last, by rw [h, List.concat_eq_append]⟩
    rw [hnames] at ha
    -- all names but the last one are followed as directories
    obtain ⟨left, d, hf, hlast⟩ := arrives_concat_iff.mp ha
    have hname : IsEntryName last := by
      apply Decidable.byContradiction
      intro hn
      obtain ⟨_, hspot⟩ := hlast.itself_of_last hn
      cases hspot
    rw [arrives_last_iff hname fun hr => absurd hr (not_redirects_makeDirectory _)] at hlast
    obtain ⟨found, hc, -, hspot⟩ := hlast
    cases hspot
    obtain ⟨hdir, hshort, hfree⟩ := child_eq_ok_iff.mp hc
    exact ⟨hnul, hlen, ⟨names, left, hnames, hf⟩, hname, hshort, hdir, hfree⟩
  · rintro ⟨hnul, hlen, ⟨names, left, hnames, hf⟩, hname, hshort, hdir, hfree⟩
    refine ⟨hnul, ?_, hlen, ?_⟩
    · rintro rfl
      simp at hnames
    · rw [hnames]
      have hlast := child_eq_ok_iff.mpr ⟨hdir, hshort, hfree⟩
      exact arrives_concat_iff.mpr ⟨left, dir, hf, .last hname hlast trivial⟩

/-! ## Section 3: Creating and writing a file -/

/-- Only a file, or nothing, is at the place, and the place is in a
    directory. -/
structure TakesFile (t : Tree) (p : Place) : Prop where
  ne_root : p ≠ []
  inDirectory : t.hasDirectory p.dropLast
  notDirectory : ¬ t.hasDirectory p
  notLink : ∀ target, t.nodeAt p ≠ some (.link target)

/-- May the file at the place be run? A file that is new may not. -/
def modeAt (t : Tree) (p : Place) : Bool :=
  match t.nodeAt p with
  | some (.file _ executable) => executable
  | _ => false

section file

variable {t : Tree} {p : Place}

theorem TakesFile.admits (h : t.TakesFile p) (n : Node) : t.Admits p n :=
  ⟨h.ne_root, h.inDirectory, fun hd => absurd hd h.notDirectory⟩

theorem filePlace_eq_ok_iff {cwd : Place} {path : Path} :
    t.filePlace cwd path = .ok p ↔
      ∃ dir name found, t.locate .createFile cwd path = .ok (.entry dir name found) ∧
        found ≠ some .directory ∧ p = dir ++ [name] := by
  unfold filePlace
  cases t.locate .createFile cwd path with
  | error e => simp
  | ok spot =>
    cases spot with
    | itself dir => simp
    | entry dir name found =>
      rcases found with _ | _ | _ | _ <;> simp [Spot.place, eq_comm, and_assoc]

/-- A path with a separator at its end leads to no file. -/
theorem not_endsInSlash_of_filePlace {cwd : Place} {path : Path}
    (h : t.filePlace cwd path = .ok p) : ¬ path.endsInSlash := by
  intro hslash
  obtain ⟨dir, name, found, hspot, -⟩ := filePlace_eq_ok_iff.mp h
  obtain ⟨-, -, -, ha⟩ := locate_eq_ok_iff.mp hspot
  obtain ⟨_, he⟩ := ha.itself_of_slashed hslash
  cases he

/-- A file is created where nothing but a file is. -/
theorem filePlace_spec {cwd : Place} {path : Path} (h : t.filePlace cwd path = .ok p) :
    t.TakesFile p := by
  obtain ⟨dir, name, found, hspot, hfound, rfl⟩ := filePlace_eq_ok_iff.mp h
  obtain ⟨-, -, -, ha⟩ := locate_eq_ok_iff.mp hspot
  obtain ⟨hd, hnode, s, -, hlink⟩ := ha.entry rfl
  refine ⟨by simp, by simpa using hd, fun hpd => ?_, ?_⟩
  · rw [hasDirectory, hnode] at hpd
    exact hfound hpd
  · rw [hnode]
    exact hlink

theorem createFile_eq_ok_iff {t' : Tree} {cwd : Place} {path : Path} :
    t.createFile cwd path = .ok (t', p) ↔ t.filePlace cwd path = .ok p ∧ t' = t.truncate p := by
  unfold createFile
  cases t.filePlace cwd path with
  | error e => simp [Except.map]
  | ok q =>
    simp only [Except.map, Except.ok.injEq, Prod.mk.injEq]
    constructor
    · rintro ⟨rfl, rfl⟩
      exact ⟨rfl, rfl⟩
    · rintro ⟨rfl, rfl⟩
      exact ⟨rfl, rfl⟩

theorem truncate_eq_put (t : Tree) (p : Place) :
    t.truncate p = t.put p (.file [] (t.modeAt p)) := by
  unfold truncate modeAt
  cases t.nodeAt p with
  | none => rfl
  | some n => cases n <;> rfl

/-- A file that is created and then written holds what was written, and
    nothing else changes. -/
theorem write_truncate (h : t.TakesFile p) (bytes : Bytes) :
    (t.truncate p).write p bytes = t.put p (.file bytes (t.modeAt p)) := by
  rw [truncate_eq_put, write, nodeAt_put_self (h.admits _)]
  simp only [List.drop_nil, List.append_nil]
  exact put_put (h.admits _) (by simp) (h.admits _)

end file

/-! ## Section 4: A name in a directory that a path leads to -/

section join

variable {t : Tree} {cwd : Place} {base : Path} {name : Name} {d : Place}

theorem LeadsTo.join (h : t.LeadsTo cwd base d) (hslash : slash ∉ name) (hne : name ≠ [])
    (hname : IsEntryName name) (hlen : name.length ≤ nameLimit)
    (hdir : t.hasDirectory (d ++ [name])) : t.LeadsTo cwd (Path.join base name) (d ++ [name]) := by
  obtain ⟨left, hf⟩ := h
  refine ⟨left, ?_⟩
  rw [Path.start_join hslash, Path.names_join hslash, if_neg hne]
  exact hf.append (.down hname hlen hdir .done)

/-- A path that ends in a name leads to that name in the directory before
    it. -/
theorem vacant_join_iff (hslash : slash ∉ name) (hne : name ≠ []) (hname : IsEntryName name)
    {n : Name} :
    t.Vacant cwd (Path.join base name) d n ↔
      n = name ∧ (nul ∉ base ∧ nul ∉ name) ∧ (Path.join base name).length ≤ pathLimit ∧
        name.length ≤ nameLimit ∧ t.LeadsTo cwd base d ∧ t.hasDirectory d ∧
        t.nodeAt (d ++ [name]) = none := by
  have hnames : (Path.join base name).names = base.names ++ [name] := by
    rw [Path.names_join hslash, if_neg hne]
  have hnul : nul ∉ Path.join base name ↔ nul ∉ base ∧ nul ∉ name := by
    rw [Path.nul_mem_join hslash, not_or]
  constructor
  · rintro ⟨hn, hlen, ⟨names, left, hns, hf⟩, -, hshort, hdir, hfree⟩
    rw [hnames] at hns
    obtain ⟨rfl, hlast⟩ := List.append_inj' hns rfl
    cases hlast
    rw [Path.start_join hslash] at hf
    exact ⟨rfl, hnul.mp hn, hlen, hshort, ⟨left, hf⟩, hdir, hfree⟩
  · rintro ⟨rfl, hn, hlen, hshort, ⟨left, hf⟩, hdir, hfree⟩
    refine ⟨hnul.mpr hn, hlen, ⟨base.names, left, hnames, ?_⟩, hname, hshort, hdir, hfree⟩
    rw [Path.start_join hslash]
    exact hf

/-- Where a name is looked up in a directory that holds no link under it.
    Only a NUL byte and the limits can stand in the way. -/
theorem locate_join {purpose : Purpose} (hslash : slash ∉ name) (hne : name ≠ [])
    (hname : IsEntryName name) (h : t.LeadsTo cwd base d) (hdir : t.hasDirectory d)
    (hr : Redirects purpose false → ∀ target, t.nodeAt (d ++ [name]) ≠ some (.link target)) :
    t.locate purpose cwd (Path.join base name) =
      if nul ∈ base ∨ nul ∈ name then .error .nulInPath
      else if pathLimit < (Path.join base name).length ∨ nameLimit < name.length then
        .error (.os .nameTooLong)
      else .ok (.entry d name (t.nodeAt (d ++ [name]))) := by
  obtain ⟨left, hf⟩ := h
  unfold locate
  simp only [Path.nul_mem_join hslash, Path.join_ne_nil hslash hne, if_false,
    Path.not_endsInSlash_join hslash hne, Path.start_join hslash, Path.names_join hslash, hne,
    hf.walk_concat]
  split
  · rfl
  · by_cases hlong : pathLimit < (Path.join base name).length
    · rw [if_pos hlong, if_pos (.inl hlong)]
    · rw [if_neg hlong]
      by_cases hlen : nameLimit < name.length
      · have hc : t.child d name = .error .nameTooLong := by simp [child, hdir, hlen]
        rw [walk_last_error hname hc, if_pos (.inr hlen)]
        rfl
      · have hc := child_eq_ok_iff.mpr ⟨hdir, Nat.le_of_not_lt hlen, rfl⟩
        rw [walk_last hname hc (settles_of_not_link hr), if_neg (by simp [hlong, hlen])]
        rfl

/-- Whether a directory can be made under a free name. -/
theorem makeDirectory_join (hslash : slash ∉ name) (hne : name ≠ []) (hname : IsEntryName name)
    (h : t.LeadsTo cwd base d) (hdir : t.hasDirectory d) (hfree : t.nodeAt (d ++ [name]) = none) :
    t.makeDirectory cwd (Path.join base name) =
      if nul ∈ base ∨ nul ∈ name then .error .nulInPath
      else if pathLimit < (Path.join base name).length ∨ nameLimit < name.length then
        .error (.os .nameTooLong)
      else .ok (t.put (d ++ [name]) .directory) := by
  unfold makeDirectory
  rw [locate_join hslash hne hname h hdir fun hr => absurd hr (not_redirects_makeDirectory _),
    hfree]
  by_cases hnul : nul ∈ base ∨ nul ∈ name
  · simp only [if_pos hnul]
  · by_cases hlong : pathLimit < (Path.join base name).length ∨ nameLimit < name.length
    · simp only [if_neg hnul, if_pos hlong]
    · simp only [if_neg hnul, if_neg hlong]

/-- Whether a file can be created under a free name. -/
theorem filePlace_join (hslash : slash ∉ name) (hne : name ≠ []) (hname : IsEntryName name)
    (h : t.LeadsTo cwd base d) (hdir : t.hasDirectory d) (hfree : t.nodeAt (d ++ [name]) = none) :
    t.filePlace cwd (Path.join base name) =
      if nul ∈ base ∨ nul ∈ name then .error .nulInPath
      else if pathLimit < (Path.join base name).length ∨ nameLimit < name.length then
        .error (.os .nameTooLong)
      else .ok (d ++ [name]) := by
  unfold filePlace
  rw [locate_join hslash hne hname h hdir fun _ target => by simp [hfree], hfree]
  by_cases hnul : nul ∈ base ∨ nul ∈ name
  · simp only [if_pos hnul]
  · by_cases hlong : pathLimit < (Path.join base name).length ∨ nameLimit < name.length
    · simp only [if_neg hnul, if_pos hlong]
    · simp only [if_neg hnul, if_neg hlong]
      rfl

/-- A path that ends in an empty name, in `.` or in `..` leads to no file. -/
theorem filePlace_join_isEntryName {p : Place} (hslash : slash ∉ name) (hbase : base ≠ [])
    (h : t.filePlace cwd (Path.join base name) = .ok p) : name ≠ [] ∧ IsEntryName name := by
  obtain ⟨dir, n, found, hspot, -, -⟩ := filePlace_eq_ok_iff.mp h
  obtain ⟨-, -, -, ha⟩ := locate_eq_ok_iff.mp hspot
  by_cases hne : name = []
  · subst hne
    exact absurd (Path.endsInSlash_join_nil hbase) (not_endsInSlash_of_filePlace h)
  · refine ⟨hne, Decidable.byContradiction fun hname => ?_⟩
    rw [Path.names_join hslash, if_neg hne, arrives_concat_iff] at ha
    obtain ⟨_, _, -, hlast⟩ := ha
    obtain ⟨_, he⟩ := hlast.itself_of_last hname
    cases he

/-- No file is created where a directory is. -/
theorem filePlace_join_of_hasDirectory (hslash : slash ∉ name) (hne : name ≠ [])
    (hname : IsEntryName name) (h : t.LeadsTo cwd base d) (hdir : t.hasDirectory d)
    (hd : t.hasDirectory (d ++ [name])) (p : Place) :
    t.filePlace cwd (Path.join base name) ≠ .ok p := by
  intro hp
  have hnode : t.nodeAt (d ++ [name]) = some .directory := hd
  obtain ⟨dir, n, found, hspot, hfound, -⟩ := filePlace_eq_ok_iff.mp hp
  rw [locate_join hslash hne hname h hdir fun _ target => by simp [hnode], hnode] at hspot
  split at hspot
  · cases hspot
  · split at hspot
    · cases hspot
    · cases hspot
      exact hfound rfl

end join

end TestRig.Tree
