import TestRig.Proofs.Tree.Growth

/-! # The directory that a path denotes

    A path denotes the directory that one finds by looking at it through
    links; the empty path denotes the current directory. `denotes_iff`
    turns this into names that are followed, which is how the paths that
    are joined to it are read. -/

namespace TestRig

/-- The spot is the directory at `d`. -/
def Spot.IsDirectory : Spot → (d : Place) → Prop
  | .entry dir name found, d => found = some .directory ∧ d = dir ++ [name]
  | .itself dir, d => d = dir

namespace Tree

/-- The path denotes the directory at `d`. -/
def Denotes (t : Tree) (cwd : Place) (path : Path) (d : Place) : Prop :=
  t.hasDirectory d ∧ if path = [] then d = cwd else t.look cwd path = .ok (d, .directory)

theorem look_eq_directory_iff {t : Tree} {cwd d : Place} {path : Path} :
    t.look cwd path = .ok (d, .directory) ↔
      ∃ spot, t.locate .look cwd path = .ok spot ∧ spot.IsDirectory d := by
  unfold look
  cases t.locate .look cwd path with
  | error e => simp
  | ok spot =>
    cases spot with
    | itself dir => simp [Spot.IsDirectory, eq_comm]
    | entry dir name found => cases found <;> simp [Spot.IsDirectory, eq_comm, and_comm]

/-- Names lead to the directory that is found by looking. -/
theorem Arrives.follows {t : Tree} {links : Nat} {slashed : Bool} {here d : Place}
    {names : List Name} {spot : Spot} (h : t.Arrives .look links slashed here names spot)
    (hd : spot.IsDirectory d) : ∃ left, t.Follows links here names left d := by
  induction h with
  | @itself n s here =>
    obtain rfl : d = here := hd
    exact ⟨n, .done⟩
  | dot _ ih =>
    obtain ⟨left, hf⟩ := ih hd
    exact ⟨left, .dot hf⟩
  | dotDot _ ih =>
    obtain ⟨left, hf⟩ := ih hd
    exact ⟨left, .dotDot hf⟩
  | @last n s here name found hname hc _ =>
    obtain ⟨rfl, rfl⟩ := hd
    obtain ⟨-, hlen, hnode⟩ := child_eq_ok_iff.mp hc
    exact ⟨n, .down hname hlen hnode .done⟩
  | lastLink hname hc _ _ ih =>
    obtain ⟨left, hf⟩ := ih hd
    obtain ⟨-, hlen, hnode⟩ := child_eq_ok_iff.mp hc
    exact ⟨left, .link hname hlen hnode (by rwa [List.append_nil])⟩
  | down _ hname hc _ ih =>
    obtain ⟨left, hf⟩ := ih hd
    obtain ⟨-, hlen, hnode⟩ := child_eq_ok_iff.mp hc
    exact ⟨left, .down hname hlen hnode hf⟩
  | link _ hname hc _ ih =>
    obtain ⟨left, hf⟩ := ih hd
    obtain ⟨-, hlen, hnode⟩ := child_eq_ok_iff.mp hc
    exact ⟨left, .link hname hlen hnode hf⟩

/-- Looking finds the directory that names lead to, whether or not a
    separator ends them. -/
theorem Follows.arrives_look {t : Tree} {links left : Nat} {here d : Place} {names : List Name}
    (h : t.Follows links here names left d) (slashed : Bool) :
    ∃ spot, t.Arrives .look links slashed here names spot ∧ spot.IsDirectory d := by
  induction h generalizing slashed with
  | done => exact ⟨_, .itself, rfl⟩
  | dot _ ih =>
    obtain ⟨spot, ha, hd⟩ := ih slashed
    exact ⟨spot, .dot ha, hd⟩
  | dotDot _ ih =>
    obtain ⟨spot, ha, hd⟩ := ih slashed
    exact ⟨spot, .dotDot ha, hd⟩
  | @down n here name rest m d hname hlen hdir hf ih =>
    have hc := child_eq_of_nodeAt hlen hdir
    by_cases hrest : rest = []
    · subst hrest
      cases hf
      exact ⟨_, .last hname hc ⟨by simp, fun _ => rfl⟩, rfl, rfl⟩
    · obtain ⟨spot, ha, hd⟩ := ih slashed
      exact ⟨spot, .down hrest hname hc ha, hd⟩
  | @link n here name rest target m d hname hlen hlink hf ih =>
    have hc := child_eq_of_nodeAt hlen hlink
    by_cases hrest : rest = []
    · -- a separator at the end of the target counts from here on
      subst hrest
      obtain ⟨spot, ha, hd⟩ := ih (slashed || target.endsInSlash)
      rw [List.append_nil] at ha
      exact ⟨spot, .lastLink hname hc trivial ha, hd⟩
    · obtain ⟨spot, ha, hd⟩ := ih slashed
      exact ⟨spot, .link hrest hname hc ha, hd⟩

theorem start_nil (cwd : Place) : start cwd [] = cwd := by
  have habs : Path.isAbsolute [] = false := rfl
  simp [start, habs]

/-- A path denotes the directory that its names lead to. -/
theorem denotes_iff {t : Tree} {cwd d : Place} {path : Path} :
    t.Denotes cwd path d ↔
      t.hasDirectory d ∧ nul ∉ path ∧ path.length ≤ pathLimit ∧ t.LeadsTo cwd path d := by
  refine and_congr_right fun _ => ?_
  by_cases hnil : path = []
  · subst hnil
    rw [if_pos rfl, LeadsTo, start_nil, Path.names_nil]
    constructor
    · rintro rfl
      exact ⟨by simp, by simp, _, .done⟩
    · rintro ⟨-, -, left, hf⟩
      cases hf
      rfl
  · rw [if_neg hnil, look_eq_directory_iff]
    constructor
    · rintro ⟨spot, hspot, hd⟩
      obtain ⟨hnul, -, hlen, ha⟩ := locate_eq_ok_iff.mp hspot
      exact ⟨hnul, hlen, ha.follows hd⟩
    · rintro ⟨hnul, hlen, left, hf⟩
      obtain ⟨spot, ha, hd⟩ := hf.arrives_look path.endsInSlash
      exact ⟨spot, locate_eq_ok_iff.mpr ⟨hnul, hnil, hlen, ha⟩, hd⟩

/-- A path that a directory is made at leads to that directory. -/
theorem look_of_makeDirectory {t t' : Tree} {cwd : Place} {path : Path}
    (h : t.makeDirectory cwd path = .ok t') :
    ∃ p, t.Admits p .directory ∧ t.nodeAt p = none ∧ t' = t.put p .directory ∧
      t'.look cwd path = .ok (p, .directory) := by
  have hgrows : t.Grows t' := grows_makeDirectory h
  obtain ⟨dir, name, hv, rfl⟩ := makeDirectory_eq_ok_iff.mp h
  obtain ⟨names, left, hnames, hf⟩ := hv.leads
  have hmade : (t.put (dir ++ [name]) .directory).hasDirectory (dir ++ [name]) :=
    nodeAt_put_self hv.admits
  -- the way to it is still there, and it is the last step
  have hleads : (t.put (dir ++ [name]) .directory).LeadsTo cwd path (dir ++ [name]) := by
    refine ⟨left, ?_⟩
    rw [hnames]
    exact (hf.mono hgrows).append (.down hv.entryName hv.shortName hmade .done)
  have hdenotes := denotes_iff.mpr ⟨hmade, hv.noNul, hv.short, hleads⟩
  have hne : path ≠ [] := by
    rintro rfl
    simp at hnames
  have hlook := hdenotes.2
  rw [if_neg hne] at hlook
  exact ⟨_, hv.admits, hv.free, rfl, hlook⟩

end Tree

end TestRig
