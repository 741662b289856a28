import TestRig.Proofs.Tree.Growth

/-! # Paths that lead to the same place

    Files never decide where a path leads, so a path leads to the same spot
    in every tree that has gained files only (`Arrives.of_gainsFiles`),
    whatever it is looked up for. Only what is found at the spot can be
    another node.

    A tree that grows in any way may have gained a directory or a link where
    a walk found nothing, but a walk that ended at something still ends
    there (`Arrives.of_grows`), and what was found there is still found, of
    the kind that it was (`look_of_grows`).

    A file that can be created at a path is found there by looking
    (`look_of_filePlace`), so a download to a path that leads elsewhere
    leaves a file alone. -/

namespace TestRig

/-- The spot as it is found in another tree. -/
def Spot.seenIn (t : Tree) : Spot → Spot
  | .entry dir name _ => .entry dir name (t.nodeAt (dir ++ [name]))
  | .itself dir => .itself dir

/-- Something is there where the walk ended. -/
def Spot.IsTaken : Spot → Prop
  | .entry _ _ found => found ≠ none
  | .itself _ => True

namespace Tree

variable {t t' : Tree}

/-! ## Section 1: A tree that gains files -/

/-- A link that is there now was there before. -/
theorem GainsFiles.link (h : t.GainsFiles t') {p : Place} {target : Path}
    (hp : t'.nodeAt p = some (.link target)) : t.nodeAt p = some (.link target) := by
  have hkind := h.onlyFiles p _ (kindAt_eq_link_iff.mpr hp) (by simp)
  exact kindAt_eq_link_iff.mp hkind

/-- Where a walk may end in the one tree, it may end in the other. -/
theorem Settles.of_gainsFiles (h : t.GainsFiles t') {purpose : Purpose} {slashed : Bool}
    {p : Place} (hs : Settles purpose slashed (t.nodeAt p)) :
    Settles purpose slashed (t'.nodeAt p) := by
  cases purpose with
  | makeDirectory => trivial
  | createFile =>
    obtain ⟨hslashed, hlink⟩ := hs
    exact ⟨hslashed, fun target hp => hlink target (h.link hp)⟩
  | look =>
    obtain ⟨hlink, hdir⟩ := hs
    refine ⟨fun target hp => hlink target (h.link hp), ?_⟩
    intro hslashed
    exact h.grows.hasDirectory (hdir hslashed)

/-- A walk ends at the same spot. The induction is on the walk in the first
    tree: all directories and links that it met are still there. -/
theorem Arrives.of_gainsFiles (h : t.GainsFiles t') {purpose : Purpose} {links : Nat}
    {slashed : Bool} {here : Place} {names : List Name} {spot : Spot}
    (ha : t.Arrives purpose links slashed here names spot) :
    t'.Arrives purpose links slashed here names (spot.seenIn t') := by
  induction ha with
  | itself => exact .itself
  | dot _ ih => exact .dot ih
  | dotDot _ ih => exact .dotDot ih
  | @last n s here name found hname hc hs =>
    obtain ⟨hdir, hlen, rfl⟩ := child_eq_ok_iff.mp hc
    -- the last name may hold another node now, but no link and no directory less
    have hc' := child_eq_ok_iff.mpr ⟨h.grows.hasDirectory hdir, hlen, rfl⟩
    exact .last hname hc' (hs.of_gainsFiles h)
  | lastLink hname hc hr _ ih =>
    obtain ⟨-, hlen, hlink⟩ := child_eq_ok_iff.mp hc
    exact .lastLink hname (child_eq_of_nodeAt hlen (h.grows.link hlink)) hr ih
  | down hrest hname hc _ ih =>
    obtain ⟨-, hlen, hdir⟩ := child_eq_ok_iff.mp hc
    exact .down hrest hname (child_eq_of_nodeAt hlen (h.grows.hasDirectory hdir)) ih
  | link hrest hname hc _ ih =>
    obtain ⟨-, hlen, hlink⟩ := child_eq_ok_iff.mp hc
    exact .link hrest hname (child_eq_of_nodeAt hlen (h.grows.link hlink)) ih

theorem locate_of_gainsFiles (h : t.GainsFiles t') {purpose : Purpose} {cwd : Place} {path : Path}
    {spot : Spot} (hspot : t.locate purpose cwd path = .ok spot) :
    t'.locate purpose cwd path = .ok (spot.seenIn t') := by
  obtain ⟨hnul, hne, hlen, ha⟩ := locate_eq_ok_iff.mp hspot
  exact locate_eq_ok_iff.mpr ⟨hnul, hne, hlen, ha.of_gainsFiles h⟩

/-- A file that can be created at a path can be created there again. -/
theorem filePlace_of_gainsFiles (h : t.GainsFiles t') {cwd p : Place} {path : Path}
    (hp : t.filePlace cwd path = .ok p) : t'.filePlace cwd path = .ok p := by
  have htakes : t.TakesFile p := filePlace_spec hp
  obtain ⟨dir, name, found, hspot, -, rfl⟩ := filePlace_eq_ok_iff.mp hp
  refine filePlace_eq_ok_iff.mpr ⟨dir, name, _, locate_of_gainsFiles h hspot, ?_, rfl⟩
  -- no directory has come to where none was
  intro hdir
  have hkind := h.onlyFiles _ _ (kindAt_eq_directory_iff.mpr hdir) (by simp)
  exact htakes.notDirectory (kindAt_eq_directory_iff.mp hkind)

/-! ## Section 2: A tree that grows in any way -/

/-- A node is still there, though a file may hold something else. -/
theorem Grows.node (h : t.Grows t') {p : Place} {n : Node} (hp : t.nodeAt p = some n) :
    ∃ n', n'.kind = n.kind ∧ t'.nodeAt p = some n' := by
  have hkind : t.kindAt p = some n.kind := by
    unfold kindAt
    rw [hp]
    rfl
  have hkind' := h p _ hkind
  unfold kindAt at hkind'
  cases hn : t'.nodeAt p with
  | none =>
    rw [hn] at hkind'
    cases hkind'
  | some n' =>
    rw [hn] at hkind'
    exact ⟨n', Option.some.inj hkind', rfl⟩

/-- Whether a walk may end at a node depends on its kind only. -/
theorem Settles.of_kind {purpose : Purpose} {slashed : Bool} {n n' : Node}
    (hkind : n'.kind = n.kind) (hs : Settles purpose slashed (some n)) :
    Settles purpose slashed (some n') := by
  have hlink : (∀ target, some n ≠ some (.link target)) →
      ∀ target, some n' ≠ some (.link target) := by
    rintro h target hn'
    cases hn'
    cases n <;> cases hkind
    exact h _ rfl
  cases purpose with
  | makeDirectory => trivial
  | createFile => exact ⟨hs.1, hlink hs.2⟩
  | look =>
    refine ⟨hlink hs.1, ?_⟩
    intro hslashed
    have hdir := hs.2 hslashed
    cases hdir
    cases n' <;> cases hkind
    rfl

/-- A walk that ended at something still ends there. -/
theorem Arrives.of_grows (h : t.Grows t') {purpose : Purpose} {links : Nat} {slashed : Bool}
    {here : Place} {names : List Name} {spot : Spot}
    (ha : t.Arrives purpose links slashed here names spot) (htaken : spot.IsTaken) :
    t'.Arrives purpose links slashed here names (spot.seenIn t') := by
  induction ha with
  | itself => exact .itself
  | dot _ ih => exact .dot (ih htaken)
  | dotDot _ ih => exact .dotDot (ih htaken)
  | @last n s here name found hname hc hs =>
    obtain ⟨-, hlen, hnode⟩ := child_eq_ok_iff.mp hc
    cases found with
    | none => exact absurd rfl htaken
    | some node =>
      obtain ⟨node', hkind, hnode'⟩ := h.node hnode
      rw [Spot.seenIn, hnode']
      exact .last hname (child_eq_of_nodeAt hlen hnode') (hs.of_kind hkind)
  | lastLink hname hc hr _ ih =>
    obtain ⟨-, hlen, hlink⟩ := child_eq_ok_iff.mp hc
    exact .lastLink hname (child_eq_of_nodeAt hlen (h.link hlink)) hr (ih htaken)
  | down hrest hname hc _ ih =>
    obtain ⟨-, hlen, hdir⟩ := child_eq_ok_iff.mp hc
    exact .down hrest hname (child_eq_of_nodeAt hlen (h.hasDirectory hdir)) (ih htaken)
  | link hrest hname hc _ ih =>
    obtain ⟨-, hlen, hlink⟩ := child_eq_ok_iff.mp hc
    exact .link hrest hname (child_eq_of_nodeAt hlen (h.link hlink)) (ih htaken)

theorem look_eq_ok_iff {cwd p : Place} {path : Path} {n : Node} :
    t.look cwd path = .ok (p, n) ↔
      (t.locate .look cwd path = .ok (.itself p) ∧ n = .directory) ∨
        ∃ dir name, t.locate .look cwd path = .ok (.entry dir name (some n)) ∧
          p = dir ++ [name] := by
  unfold look
  cases t.locate .look cwd path with
  | error e => simp
  | ok spot =>
    cases spot with
    | itself dir =>
      constructor
      · intro h
        cases h
        exact .inl ⟨rfl, rfl⟩
      · rintro (⟨hspot, rfl⟩ | ⟨dir, name, hspot, -⟩)
        · cases hspot
          rfl
        · cases hspot
    | entry dir name found => cases found <;> simp [eq_comm, and_comm, and_assoc]

/-- What a path leads to is still there, of the kind that it was. -/
theorem look_of_grows (h : t.Grows t') {cwd p : Place} {path : Path} {n : Node}
    (hlook : t.look cwd path = .ok (p, n)) :
    ∃ n', n'.kind = n.kind ∧ t'.look cwd path = .ok (p, n') := by
  rcases look_eq_ok_iff.mp hlook with ⟨hspot, rfl⟩ | ⟨dir, name, hspot, rfl⟩
  · obtain ⟨hnul, hne, hlen, ha⟩ := locate_eq_ok_iff.mp hspot
    have hspot' := locate_eq_ok_iff.mpr ⟨hnul, hne, hlen, ha.of_grows h trivial⟩
    exact ⟨.directory, rfl, look_eq_ok_iff.mpr (.inl ⟨hspot', rfl⟩)⟩
  · obtain ⟨hnul, hne, hlen, ha⟩ := locate_eq_ok_iff.mp hspot
    obtain ⟨n', hkind, hnode'⟩ := h.node (ha.entry rfl).2.1
    have ha' := ha.of_grows h (by simp [Spot.IsTaken])
    rw [Spot.seenIn, hnode'] at ha'
    have hspot' := locate_eq_ok_iff.mpr ⟨hnul, hne, hlen, ha'⟩
    exact ⟨n', hkind, look_eq_ok_iff.mpr (.inr ⟨dir, name, hspot', rfl⟩)⟩

/-! ## Section 3: Looking at a file -/

variable {cwd p : Place} {path : Path} {content : Bytes} {executable : Bool}

theorem look_eq_file_iff :
    t.look cwd path = .ok (p, .file content executable) ↔
      ∃ dir name, t.locate .look cwd path = .ok (.entry dir name (some (.file content executable))) ∧
        p = dir ++ [name] := by
  rw [look_eq_ok_iff]
  simp

/-- What looking finds at a spot is what the tree has there. -/
theorem nodeAt_of_look (h : t.look cwd path = .ok (p, .file content executable)) :
    t.nodeAt p = some (.file content executable) := by
  obtain ⟨dir, name, hspot, rfl⟩ := look_eq_file_iff.mp h
  obtain ⟨-, -, -, ha⟩ := locate_eq_ok_iff.mp hspot
  exact (ha.entry rfl).2.1

/-- A path that leads to a file still does, as long as nothing is taken
    away and the file stays as it is. -/
theorem look_file_of_grows (h : t.Grows t')
    (hlook : t.look cwd path = .ok (p, .file content executable))
    (hstays : t'.nodeAt p = some (.file content executable)) :
    t'.look cwd path = .ok (p, .file content executable) := by
  obtain ⟨n, hkind, hlook'⟩ := look_of_grows h hlook
  obtain ⟨content', executable', rfl⟩ := Node.eq_file_of_kind hkind
  rw [nodeAt_of_look hlook'] at hstays
  cases hstays
  exact hlook'

/-- A walk that may create a file may look at it. -/
theorem Arrives.look {links : Nat} {slashed : Bool} {here : Place} {names : List Name} {spot : Spot}
    (ha : t.Arrives .createFile links slashed here names spot) :
    t.Arrives .look links slashed here names spot := by
  induction ha with
  | itself => exact .itself
  | dot _ ih => exact .dot ih
  | dotDot _ ih => exact .dotDot ih
  | last hname hc hs =>
    obtain ⟨hslashed, hlink⟩ := hs
    -- no separator follows, so looking asks for no directory either
    refine .last hname hc ⟨hlink, ?_⟩
    intro h
    rw [hslashed] at h
    cases h
  | lastLink hname hc _ _ ih => exact .lastLink hname hc trivial ih
  | down hrest hname hc _ ih => exact .down hrest hname hc ih
  | link hrest hname hc _ ih => exact .link hrest hname hc ih

/-- A file at the place where a file would be created is found there. -/
theorem look_of_filePlace (h : t.filePlace cwd path = .ok p)
    (hp : t.nodeAt p = some (.file content executable)) :
    t.look cwd path = .ok (p, .file content executable) := by
  obtain ⟨dir, name, found, hspot, -, rfl⟩ := filePlace_eq_ok_iff.mp h
  obtain ⟨hnul, hne, hlen, ha⟩ := locate_eq_ok_iff.mp hspot
  -- what was found on the way is the file that is there
  obtain ⟨-, hfound, -⟩ := ha.entry rfl
  rw [hp] at hfound
  subst hfound
  have hlook := locate_eq_ok_iff.mpr ⟨hnul, hne, hlen, ha.look⟩
  exact look_eq_file_iff.mpr ⟨dir, name, hlook, rfl⟩

/-- A path that a file is created at leads to that file. -/
theorem look_put_of_filePlace (h : t.filePlace cwd path = .ok p) (content : Bytes)
    (executable : Bool) :
    (t.put p (.file content executable)).look cwd path = .ok (p, .file content executable) := by
  have htakes : t.TakesFile p := filePlace_spec h
  have hagain := filePlace_of_gainsFiles (htakes.gainsFiles_put content executable) h
  exact look_of_filePlace hagain (nodeAt_put_self (htakes.admits _))

/-- A path that ends in the name of a file leads to that file. -/
theorem look_join {base : Path} {name : Name} {d : Place} (hslash : slash ∉ name) (hne : name ≠ [])
    (hname : IsEntryName name) (hleads : t.LeadsTo cwd base d) (hnul : ¬ (nul ∈ base ∨ nul ∈ name))
    (hshort : (Path.join base name).length ≤ pathLimit ∧ name.length ≤ nameLimit)
    (hfile : t.nodeAt (d ++ [name]) = some (.file content executable)) :
    t.look cwd (Path.join base name) = .ok (d ++ [name], .file content executable) := by
  have hdir : t.hasDirectory d := hasDirectory_of_isSome (by rw [hfile]; rfl)
  have hlong : ¬ (pathLimit < (Path.join base name).length ∨ nameLimit < name.length) := by
    omega
  have hspot : t.locate .look cwd (Path.join base name)
      = .ok (.entry d name (some (.file content executable))) := by
    rw [locate_join hslash hne hname hleads hdir fun _ target => by simp [hfile], if_neg hnul,
      if_neg hlong, hfile]
  exact look_eq_file_iff.mpr ⟨d, name, hspot, rfl⟩

end Tree

end TestRig
